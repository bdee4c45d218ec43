import MethodLint.Proofs.Config.Natural
import MethodLint.Proofs.Config.Quoted

/-!
# The values of settings are read exactly

A setting is a truth value or a severity.  A severity may be given by any
value at all, which is read whole and judged afterwards; so one has to show
that nothing but a quoted text and the three digits can pass.

**Numbers.**  A number is judged by its decimal numeral, and of all numerals
only `0`, `1` and `2` are words for a severity.

**What follows.**  A word or a quoted text is read whatever follows it.  A
number is not, so the equivalence for severities has to say that the numeral
stops.
-/

namespace MethodLint
namespace Config

open Grammar

theorem map_eq_ok_iff {α β ε : Type} {x : Except ε α} {f : α → β} {b : β} :
    x.map f = .ok b ↔ ∃ a, x = .ok a ∧ f a = b := by
  cases x with
  | error e =>
      simp [Except.map]
  | ok a =>
      simp [Except.map]

section Spelling

theorem lookup_spellings_iff {word : String} {level : Severity} :
    Severity.spellings.lookup word = some level ↔ word ∈ level.words := by
  constructor
  · intro hlookup
    obtain ⟨before, after, hsplit, -⟩ := List.lookup_eq_some_iff.mp hlookup
    have hmem : (word, level) ∈ Severity.spellings := by
      rw [hsplit]
      simp
    simp only [Severity.spellings, List.mem_cons, Prod.mk.injEq,
      List.not_mem_nil, or_false] at hmem
    rcases hmem with ⟨rfl, rfl⟩ | ⟨rfl, rfl⟩ | ⟨rfl, rfl⟩ | ⟨rfl, rfl⟩ |
      ⟨rfl, rfl⟩ | ⟨rfl, rfl⟩ | ⟨rfl, rfl⟩ | ⟨rfl, rfl⟩ | ⟨rfl, rfl⟩ <;>
      simp [Severity.words]
  · intro hmem
    cases level with
    | off | error | suggestion =>
        simp only [Severity.words, List.mem_cons, List.not_mem_nil,
          or_false] at hmem
        rcases hmem with rfl | rfl <;> decide
    | warn =>
        simp only [Severity.words, List.mem_cons, List.not_mem_nil,
          or_false] at hmem
        rcases hmem with rfl | rfl | rfl <;> decide

theorem ofText?_eq_some_iff {text : String} {level : Severity} :
    Severity.ofText? text = some level ↔ Spells text level := by
  rw [Severity.ofText?, lookup_spellings_iff, Severity.normalize]
  constructor
  · intro hword
    exact ⟨_, Text.trimmed_trim text.toList, hword⟩
  · rintro ⟨core, hcore, hword⟩
    rw [Text.trim_eq_iff.mpr hcore]
    exact hword

end Spelling

section Numerals

theorem isBlank_of_isDigit {c : Char} (hdigit : c.isDigit = true) :
    Text.isBlank c = false := by
  obtain ⟨hlow, hhigh⟩ := Char.isDigit_iff_toNat.mp hdigit
  have hzero : '0'.toNat = 48 := rfl
  have hnine : '9'.toNat = 57 := rfl
  simp only [Text.isBlank, Bool.or_eq_false_iff, Bool.and_eq_false_iff,
    decide_eq_false_iff_not, beq_eq_false_iff_ne]
  omega

theorem isGap_of_isDigit {c : Char} (hdigit : c.isDigit = true) :
    isGap c = false := by
  rw [Bool.eq_false_iff]
  intro hgap
  have hmem := (isGap_iff c).mp hgap
  simp only [List.mem_cons, List.not_mem_nil, or_false] at hmem
  rcases hmem with rfl | rfl | rfl | rfl <;> cases hdigit

theorem toLower_of_isDigit {c : Char} (hdigit : c.isDigit = true) :
    c.toLower = c := by
  have hrange := Char.isDigit_iff_toNat.mp hdigit
  have hsmall : ¬ ('A'.val ≤ c.val ∧ c.val ≤ 'Z'.val) := by
    rintro ⟨hlow, -⟩
    have hletter : 'A'.toNat ≤ c.toNat := UInt32.le_iff_toNat_le.mp hlow
    have hnine : '9'.toNat < 'A'.toNat := by
      decide
    omega
  exact dif_neg hsmall

theorem isDigit_of_mem_repr {n : Nat} {c : Char}
    (hc : c ∈ (Nat.repr n).toList) : c.isDigit = true := by
  rw [Nat.toList_repr] at hc
  exact Nat.isDigit_of_mem_toDigits (by decide) (by decide) hc

theorem exists_cons_toDigits (n : Nat) :
    ∃ c tail, Nat.toDigits 10 n = c :: tail ∧ c.isDigit = true := by
  obtain ⟨c, tail, hdigits⟩ :=
    List.exists_cons_of_ne_nil (Nat.toDigits_ne_nil (n := n) (b := 10))
  refine ⟨c, tail, hdigits, ?_⟩
  apply isDigit_of_mem_repr (n := n)
  rw [Nat.toList_repr, hdigits]
  exact List.mem_cons_self

/-- A numeral has no blanks to lose and no letters to change. -/
theorem normalize_repr (n : Nat) : Severity.normalize (Nat.repr n) = Nat.repr n := by
  have htrimmed : Text.Trimmed (Nat.repr n).toList (Nat.repr n).toList := by
    refine ⟨⟨[], [], by simp, by simp, by simp⟩, ?_, ?_⟩
    · intro c hc
      exact isBlank_of_isDigit (isDigit_of_mem_repr (List.mem_of_mem_head? hc))
    · intro c hc
      exact
        isBlank_of_isDigit (isDigit_of_mem_repr (List.mem_of_mem_getLast? hc))
  have hlower : (Nat.repr n).toList.map Char.toLower = (Nat.repr n).toList := by
    rw [List.map_congr_left fun c hc => toLower_of_isDigit (isDigit_of_mem_repr hc)]
    simp
  rw [Severity.normalize, Text.trim_eq_iff.mpr htrimmed, hlower,
    String.ofList_toList]

theorem repr_ne_of_letter {n : Nat} {word : String} {c : Char}
    (hc : c ∈ word.toList)
    (hletter : c.isDigit = false) :
    Nat.repr n ≠ word := by
  rintro rfl
  rw [isDigit_of_mem_repr hc] at hletter
  cases hletter

/-- Of all numerals, three are words for a severity. -/
theorem ofText?_repr_eq_some_iff {n : Nat} {level : Severity} :
    Severity.ofText? (Nat.repr n) = some level ↔
      (n, level) ∈ [(0, .off), (1, .warn), (2, .error)] := by
  have hwords :
      ∀ word ∈ ["off", "warn", "warning", "error", "suggestion", "hint"],
        Nat.repr n ≠ word := by
    intro word hword
    simp only [List.mem_cons, List.not_mem_nil, or_false] at hword
    rcases hword with rfl | rfl | rfl | rfl | rfl | rfl
    · exact repr_ne_of_letter (c := 'o') (by simp) rfl
    · exact repr_ne_of_letter (c := 'w') (by simp) rfl
    · exact repr_ne_of_letter (c := 'w') (by simp) rfl
    · exact repr_ne_of_letter (c := 'e') (by simp) rfl
    · exact repr_ne_of_letter (c := 's') (by simp) rfl
    · exact repr_ne_of_letter (c := 'h') (by simp) rfl
  have hnumerals (m : Nat) : Nat.repr n = Nat.repr m ↔ n = m := by
    constructor
    · intro hrepr
      have hvalue :=
        congrArg (fun text => Nat.ofDigitChars 10 text.toList 0) hrepr
      simpa only [Nat.toList_repr, Nat.ofDigitChars_ten_toDigits] using hvalue
    · rintro rfl
      rfl
  have hzero : Nat.repr n = "0" ↔ n = 0 := hnumerals 0
  have hone : Nat.repr n = "1" ↔ n = 1 := hnumerals 1
  have htwo : Nat.repr n = "2" ↔ n = 2 := hnumerals 2
  rw [Severity.ofText?, lookup_spellings_iff, normalize_repr]
  simp only [List.forall_mem_cons, List.not_mem_nil] at hwords
  cases level <;>
    simp [Severity.words, hwords, hzero, hone, htwo]

end Numerals

section Values

variable {s rest : List Char}

theorem number_ne_text (text : String) :
    number s ≠ .ok (.text text, rest) := by
  intro hread
  unfold number at hread
  split at hread
  · cases hread
  · next numeral after _ =>
      split at hread
      · next value hvalue =>
          obtain ⟨rfl, -⟩ := Prod.mk.inj (Except.ok.inj hread)
          exact numeral.value_ne_text text hvalue
      · cases hread

/-- What is neither a list nor an object, by the first character. -/
theorem scalar_cases {value : Value}
    (hread : scalar s = .ok (value, rest)) :
    value = .null ∨ (∃ truth, value = .bool truth) ∨
      (∃ text, value = .text text ∧ key s = .ok (text, rest)) ∨
      number s = .ok (value, rest) := by
  unfold scalar at hread
  split at hread
  · cases hread
  · next c tail =>
      split at hread
      · obtain ⟨after, -, hvalue⟩ := map_eq_ok_iff.mp hread
        exact .inl (Prod.mk.inj hvalue).1.symm
      · split at hread
        · obtain ⟨after, -, hvalue⟩ := map_eq_ok_iff.mp hread
          exact .inr (.inl ⟨true, (Prod.mk.inj hvalue).1.symm⟩)
        · split at hread
          · obtain ⟨after, -, hvalue⟩ := map_eq_ok_iff.mp hread
            exact .inr (.inl ⟨false, (Prod.mk.inj hvalue).1.symm⟩)
          · split at hread
            · next hquote =>
                obtain ⟨⟨text, after⟩, htext, hvalue⟩ :=
                  map_eq_ok_iff.mp hread
                obtain ⟨rfl, rfl⟩ := Prod.mk.inj hvalue
                subst hquote
                exact .inr (.inr (.inl ⟨text, rfl, htext⟩))
            · split at hread
              · exact .inr (.inr (.inr hread))
              · cases hread

theorem scalar_eq_text_iff {text : String} :
    scalar s = .ok (.text text, rest) ↔
      ∃ quoted, Quoted quoted text ∧ s = quoted ++ rest := by
  rw [← key_eq_ok_iff]
  constructor
  · intro hread
    rcases scalar_cases hread with
      hnull | ⟨truth, hbool⟩ | ⟨text', htext, hkey⟩ | hnumber
    · cases hnull
    · cases hbool
    · cases htext
      exact hkey
    · exact absurd hnumber (number_ne_text text)
  · intro hkey
    unfold key at hkey
    split at hkey
    · simp [scalar, hkey, Except.map]
    · cases hkey

theorem scalar_eq_natural_iff {n : Nat} :
    scalar s = .ok (.integer (n : Int), rest) ↔
      n < Numeral.significandBound ∧ s = Nat.toDigits 10 n ++ rest ∧
        Numeral.Stops rest := by
  rw [← number_eq_natural_iff]
  constructor
  · intro hread
    rcases scalar_cases hread with
      hnull | ⟨truth, hbool⟩ | ⟨text', htext, hkey⟩ | hnumber
    · cases hnull
    · cases hbool
    · cases htext
    · exact hnumber
  · intro hnumber
    obtain ⟨-, hsplit, -⟩ := number_eq_natural_iff.mp hnumber
    obtain ⟨c, tail, hdigits, hdigit⟩ := exists_cons_toDigits n
    rw [hdigits, List.cons_append] at hsplit
    subst hsplit
    have hother : ∀ d : Char, d.isDigit = false → c ≠ d := by
      rintro d hd rfl
      rw [hdigit] at hd
      cases hd
    simp only [scalar, hother 'n' (by decide), hother 't' (by decide),
      hother 'f' (by decide), hother '"' (by decide), hdigit, Bool.or_true,
      if_true, if_false]
    exact hnumber

theorem valueOver_eq_ok_iff
    {below : Option (Reader Value)} {found : Value}
    (hlist : found ≠ .list)
    (hobject : found ≠ .object) :
    valueOver below s = .ok (found, rest) ↔
      scalar (skipGap s) = .ok (found, rest) := by
  unfold valueOver
  split
  · next hnil =>
      simp [hnil, scalar]
  · next c tail hcons =>
      rw [hcons]
      split
      · next hbracket =>
          subst hbracket
          cases below with
          | none =>
              simp [scalar, Char.isDigit]
          | some item =>
              simp [scalar, Char.isDigit, map_eq_ok_iff, hlist.symm]
      · split
        · next hbrace =>
            subst hbrace
            cases below with
            | none =>
                simp [scalar, Char.isDigit]
            | some item =>
                simp [scalar, Char.isDigit, map_eq_ok_iff, hobject.symm]
        · rfl

/-- A value that is neither a list nor an object is read at any level. -/
theorem value_eq_ok_iff
    {levels : Nat} {found : Value}
    (hlist : found ≠ .list)
    (hobject : found ≠ .object) :
    value levels s = .ok (found, rest) ↔
      scalar (skipGap s) = .ok (found, rest) := by
  cases levels with
  | zero =>
      exact valueOver_eq_ok_iff hlist hobject
  | succ levels =>
      exact valueOver_eq_ok_iff hlist hobject

/-- A quoted text is read as a value after a gap, whatever follows it. -/
theorem value_of_quoted
    {levels : Nat} {gap written : List Char} {text : String}
    (hgap : Gap gap)
    (hquoted : Quoted written text)
    (rest : List Char) :
    value levels (gap ++ (written ++ rest)) = .ok (.text text, rest) := by
  rw [value_eq_ok_iff (by simp) (by simp), scalar_eq_text_iff]
  refine ⟨written, hquoted, skipGap_append hgap ?_⟩
  cases hquoted with
  | quotes =>
      simp [isGap]

/-- A number that fits is read as a value after a gap, if its numeral stops. -/
theorem value_of_toDigits
    {levels n : Nat} {gap : List Char}
    (hgap : Gap gap)
    (hfits : n < Numeral.significandBound)
    (hstops : Numeral.Stops rest) :
    value levels (gap ++ (Nat.toDigits 10 n ++ rest)) =
      .ok (.integer n, rest) := by
  obtain ⟨c, tail, hdigits, hdigit⟩ := exists_cons_toDigits n
  rw [value_eq_ok_iff (by simp) (by simp), scalar_eq_natural_iff]
  refine ⟨hfits, skipGap_append hgap ?_, hstops⟩
  simp [hdigits, isGap_of_isDigit hdigit]

end Values

section Settings

/-- Only a quoted text and a natural number can be a severity. -/
theorem severity_of_value_iff {found : Value} {level : Severity} :
    found.severity = .ok level ↔
      (∃ text, found = .text text ∧ Spells text level) ∨
        ∃ n : Nat, found = .integer n ∧
          Severity.ofText? (Nat.repr n) = some level := by
  simp only [← ofText?_eq_some_iff]
  constructor
  · intro hlevel
    unfold Value.severity at hlevel
    split at hlevel
    · cases hlevel
    · next spelled hspelled =>
        split at hlevel
        · cases hlevel
        · next meant hmeant =>
            obtain rfl := Except.ok.inj hlevel
            unfold Value.spelling? at hspelled
            split at hspelled
            · next text =>
                obtain rfl := Option.some.inj hspelled
                exact .inl ⟨text, rfl, hmeant⟩
            · next n =>
                obtain rfl := Option.some.inj hspelled
                exact .inr ⟨n, rfl, hmeant⟩
            · cases hspelled
  · rintro (⟨text, rfl, hmeant⟩ | ⟨n, rfl, hmeant⟩)
    · simp [Value.severity, Value.spelling?, hmeant]
    · have hspelling : (Value.integer n).spelling? = some (Nat.repr n) := rfl
      simp [Value.severity, hspelling, hmeant]

/-- A written severity is a quoted text, or the numeral of a number that is one. -/
theorem level_iff {written : List Char} {level : Severity} :
    Level written level ↔
      (∃ text, Quoted written text ∧ Spells text level) ∨
        ∃ n, written = Nat.toDigits 10 n ∧
          Severity.ofText? (Nat.repr n) = some level := by
  constructor
  · intro hlevel
    cases hlevel with
    | off =>
        exact .inr ⟨0, rfl, by decide⟩
    | warn =>
        exact .inr ⟨1, rfl, by decide⟩
    | error =>
        exact .inr ⟨2, rfl, by decide⟩
    | text hquoted hspells =>
        exact .inl ⟨_, hquoted, hspells⟩
  · rintro (⟨text, hquoted, hspells⟩ | ⟨n, rfl, hmeant⟩)
    · exact .text hquoted hspells
    · have hthree := ofText?_repr_eq_some_iff.mp hmeant
      simp only [List.mem_cons, Prod.mk.injEq, List.not_mem_nil,
        or_false] at hthree
      rcases hthree with ⟨rfl, rfl⟩ | ⟨rfl, rfl⟩ | ⟨rfl, rfl⟩
      · exact .off
      · exact .warn
      · exact .error

theorem severity_eq_value_iff {s rest : List Char} {level : Severity} :
    severity s = .ok (level, rest) ↔
      ∃ found, value severityLevels s = .ok (found, rest) ∧
        found.severity = .ok level := by
  constructor
  · intro hread
    unfold severity at hread
    split at hread
    · cases hread
    · next found after hfound =>
        split at hread
        · cases hread
        · next meant hmeant =>
            obtain ⟨rfl, rfl⟩ := Prod.mk.inj (Except.ok.inj hread)
            exact ⟨found, hfound, hmeant⟩
  · rintro ⟨found, hfound, hmeant⟩
    simp only [severity, hfound, hmeant]

/-- A severity is read after a gap; behind a numeral, nothing may prolong it. -/
theorem severity_eq_ok_iff {s rest : List Char} {level : Severity} :
    severity s = .ok (level, rest) ↔
      ∃ gap written, Gap gap ∧ Level written level ∧
        (written.head? ≠ some '"' → Numeral.Stops rest) ∧
        s = gap ++ (written ++ rest) := by
  rw [severity_eq_value_iff]
  constructor
  · rintro ⟨found, hfound, hmeant⟩
    obtain ⟨gap, hgap, hs⟩ := exists_gap s
    rcases severity_of_value_iff.mp hmeant with
      ⟨text, rfl, hspells⟩ | ⟨n, rfl, hword⟩
    · rw [value_eq_ok_iff (by simp) (by simp), scalar_eq_text_iff] at hfound
      obtain ⟨quoted, hquoted, hskip⟩ := hfound
      rw [hskip] at hs
      exact
        ⟨gap, quoted, hgap, .text hquoted hspells,
          fun hother => absurd hquoted.head? hother, hs⟩
    · rw [value_eq_ok_iff (by simp) (by simp), scalar_eq_natural_iff] at hfound
      obtain ⟨-, hskip, hstops⟩ := hfound
      rw [hskip] at hs
      exact
        ⟨gap, Nat.toDigits 10 n, hgap, level_iff.mpr (.inr ⟨n, rfl, hword⟩),
          fun _ => hstops, hs⟩
  · rintro ⟨gap, written, hgap, hlevel, hstops, rfl⟩
    rcases level_iff.mp hlevel with ⟨text, hquoted, hspells⟩ | ⟨n, rfl, hword⟩
    · exact
        ⟨.text text, value_of_quoted hgap hquoted rest,
          severity_of_value_iff.mpr (.inl ⟨text, rfl, hspells⟩)⟩
    · refine
        ⟨.integer n, value_of_toDigits hgap ?_ (hstops ?_),
          severity_of_value_iff.mpr (.inr ⟨n, rfl, hword⟩)⟩
      · have hthree := ofText?_repr_eq_some_iff.mp hword
        simp only [List.mem_cons, Prod.mk.injEq, List.not_mem_nil,
          or_false] at hthree
        rw [Numeral.significandBound]
        omega
      · obtain ⟨c, tail, hdigits, hdigit⟩ := exists_cons_toDigits n
        rw [hdigits]
        rintro hquote
        obtain rfl := Option.some.inj hquote
        cases hdigit

theorem boolean_eq_ok_iff {s rest : List Char} {truth : Bool} :
    boolean s = .ok (truth, rest) ↔
      ∃ gap written, Gap gap ∧ Truth written truth ∧
        s = gap ++ (written ++ rest) := by
  constructor
  · intro hread
    unfold boolean at hread
    split at hread
    · cases hread
    · next c tail hcons =>
        obtain ⟨-, gap, hgap, rfl⟩ := skipGap_eq_cons_iff.mp hcons
        split at hread
        · next hc =>
            obtain ⟨after, hword, hvalue⟩ := map_eq_ok_iff.mp hread
            obtain ⟨rfl, rfl⟩ := Prod.mk.inj hvalue
            rw [word_eq_ok_iff] at hword
            exact ⟨gap, _, hgap, .yes, by rw [hc, hword]; rfl⟩
        · split at hread
          · next hc =>
              obtain ⟨after, hword, hvalue⟩ := map_eq_ok_iff.mp hread
              obtain ⟨rfl, rfl⟩ := Prod.mk.inj hvalue
              rw [word_eq_ok_iff] at hword
              exact ⟨gap, _, hgap, .no, by rw [hc, hword]; rfl⟩
          · -- Whatever else comes is refused for its type, or not read at all.
            split at hread
            · cases hread
            · split at hread
              · cases hread
              · split at hread <;> cases hread
  · rintro ⟨gap, written, hgap, htruth, rfl⟩
    cases htruth with
    | yes =>
        have hword : word ['r', 'u', 'e'] ('r' :: 'u' :: 'e' :: rest) = .ok rest :=
          word_eq_ok_iff.mpr rfl
        rw [boolean, skipGap_append hgap (by simp [isGap])]
        simp [hword, Except.map]
    | no =>
        have hword :
            word ['a', 'l', 's', 'e'] ('a' :: 'l' :: 's' :: 'e' :: rest) =
              .ok rest :=
          word_eq_ok_iff.mpr rfl
        rw [boolean, skipGap_append hgap (by simp [isGap])]
        simp [hword, Except.map]

end Settings

end Config
end MethodLint
