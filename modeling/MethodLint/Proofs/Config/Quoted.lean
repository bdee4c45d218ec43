import MethodLint.Proofs.Config.Grammar
import Mathlib.Tactic.IntervalCases

/-!
# Words and quoted texts are read exactly

For each reader of a part that cannot go on after its end, one equivalence: it
succeeds exactly if the text begins with a written form of its result, and
then it leaves the rest.  The equivalences are used in both directions, so a
reader is never opened again.

**Order.**  Gaps and words come first, then hexadecimal numbers, surrogate
pairs, escapes, and the characters between quotes.
-/

namespace MethodLint
namespace Config

open Grammar

section Gaps

theorem isGap_iff (c : Char) :
    isGap c = true ↔ c ∈ [' ', '\t', '\n', '\r'] := by
  simp [isGap, or_assoc]

theorem isGap_of_mem {gap : List Char} (hgap : Gap gap) :
    ∀ c ∈ gap, isGap c = true := by
  intro c hc
  exact (isGap_iff c).mpr (hgap c hc)

theorem exists_gap (s : List Char) :
    ∃ gap, Gap gap ∧ s = gap ++ skipGap s := by
  refine ⟨s.takeWhile isGap, ?_, ?_⟩
  · intro c hc
    exact (isGap_iff c).mp (List.mem_takeWhile_imp hc)
  · exact List.takeWhile_append_dropWhile.symm

theorem skipGap_eq_nil_iff {s : List Char} : skipGap s = [] ↔ Gap s := by
  constructor
  · intro hnil
    obtain ⟨gap, hgap, hs⟩ := exists_gap s
    rw [hnil, List.append_nil] at hs
    exact hs ▸ hgap
  · intro hgap
    exact List.dropWhile_eq_nil_iff.mpr (isGap_of_mem hgap)

theorem skipGap_append
    {gap s : List Char}
    (hgap : Gap gap)
    (hfirst : ∀ c ∈ s.head?, isGap c = false) :
    skipGap (gap ++ s) = s :=
  Text.dropWhile_append_run (isGap_of_mem hgap) hfirst

/-- The first character after a gap is no part of it. -/
theorem skipGap_eq_cons_iff {s rest : List Char} {c : Char} :
    skipGap s = c :: rest ↔
      isGap c = false ∧ ∃ gap, Gap gap ∧ s = gap ++ c :: rest := by
  constructor
  · intro hcons
    obtain ⟨gap, hgap, hs⟩ := exists_gap s
    rw [hcons] at hs
    refine ⟨?_, gap, hgap, hs⟩
    apply Text.eq_false_of_mem_head?_dropWhile
    change c ∈ (skipGap s).head?
    rw [hcons]
    rfl
  · rintro ⟨hc, gap, hgap, rfl⟩
    apply skipGap_append hgap
    intro d hd
    obtain rfl := Option.some.inj hd
    exact hc

end Gaps

/-- A word is read if its letters come next, whatever follows. -/
theorem word_eq_ok_iff {letters s rest : List Char} :
    word letters s = .ok rest ↔ s = letters ++ rest := by
  induction letters generalizing s with
  | nil =>
      simp [word]
  | cons letter letters ih =>
      cases s with
      | nil =>
          simp [word]
      | cons c s =>
          by_cases hc : c = letter
          · simp [word, hc, ih]
          · simp [word, hc]

section Hexadecimal

theorem hexDigit_of_hexValue? {c : Char} {n : Nat}
    (hvalue : hexValue? c = some n) : HexDigit c n := by
  unfold hexValue? at hvalue
  simp only [Bool.and_eq_true, decide_eq_true_eq, Char.le_def,
    UInt32.le_iff_toNat_le] at hvalue
  -- In each range the character is one of a few, and so is its value.
  have hchar := Char.ofNat_toNat c
  split at hvalue
  · next hrange =>
      obtain ⟨hlow, hhigh⟩ : 48 ≤ c.toNat ∧ c.toNat ≤ 57 := hrange
      obtain rfl := Option.some.inj hvalue
      generalize c.toNat = k at hlow hhigh hchar
      subst hchar
      interval_cases k <;> decide
  · split at hvalue
    · next hrange =>
        obtain ⟨hlow, hhigh⟩ : 97 ≤ c.toNat ∧ c.toNat ≤ 102 := hrange
        obtain rfl := Option.some.inj hvalue
        generalize c.toNat = k at hlow hhigh hchar
        subst hchar
        interval_cases k <;> decide
    · split at hvalue
      · next hrange =>
          obtain ⟨hlow, hhigh⟩ : 65 ≤ c.toNat ∧ c.toNat ≤ 70 := hrange
          obtain rfl := Option.some.inj hvalue
          generalize c.toNat = k at hlow hhigh hchar
          subst hchar
          interval_cases k <;> decide
      · cases hvalue

theorem Grammar.HexDigit.lt {c : Char} {n : Nat}
    (hdigit : HexDigit c n) : n < 16 := by
  rcases hdigit with hlower | hupper
  · exact (List.getElem?_eq_some_iff.mp hlower).1
  · exact (List.getElem?_eq_some_iff.mp hupper).1

theorem hexValue?_eq_some_iff {c : Char} {n : Nat} :
    hexValue? c = some n ↔ HexDigit c n := by
  constructor
  · exact hexDigit_of_hexValue?
  · intro hdigit
    have hlt := hdigit.lt
    rcases hdigit with hlower | hupper
    · interval_cases n <;>
        · obtain rfl := Option.some.inj hlower
          decide
    · interval_cases n <;>
        · obtain rfl := Option.some.inj hupper
          decide

theorem hexNumber?_eq_some_iff {a b c d : Char} {n : Nat} :
    hexNumber? a b c d = some n ↔ HexQuad [a, b, c, d] n := by
  have hsum (i j k l : Nat) :
      ((i * 16 + j) * 16 + k) * 16 + l =
        i * 4096 + j * 256 + k * 16 + l := by
    omega
  simp only [hexNumber?, Option.bind_eq_bind, Option.bind_eq_some_iff,
    hexValue?_eq_some_iff, Option.pure_def, Option.some.injEq, hsum]
  constructor
  · rintro ⟨i, hi, j, hj, k, hk, l, hl, rfl⟩
    exact .digits hi hj hk hl
  · intro hquad
    cases hquad with
    | digits hi hj hk hl =>
        exact ⟨_, hi, _, hj, _, hk, _, hl, rfl⟩

theorem Grammar.HexQuad.lt {quad : List Char} {n : Nat}
    (hquad : HexQuad quad n) : n < 0x10000 := by
  rcases hquad with ⟨hi, hj, hk, hl⟩
  have hfirst := hi.lt
  have hsecond := hj.lt
  have hthird := hk.lt
  have hfourth := hl.lt
  omega

theorem hexQuad_eq_ok_iff {s rest : List Char} {n : Nat} :
    hexQuad s = .ok (n, rest) ↔
      ∃ quad, HexQuad quad n ∧ s = quad ++ rest := by
  constructor
  · intro hread
    unfold hexQuad at hread
    split at hread
    · next a b c d tail =>
        split at hread
        · next value hvalue =>
            obtain ⟨rfl, rfl⟩ := Prod.mk.inj (Except.ok.inj hread)
            exact ⟨[a, b, c, d], hexNumber?_eq_some_iff.mp hvalue, rfl⟩
        · cases hread
    · cases hread
  · rintro ⟨quad, hquad, rfl⟩
    cases hquad with
    | digits hi hj hk hl =>
        have hnumber := hexNumber?_eq_some_iff.mpr (.digits hi hj hk hl)
        simp [hexQuad, hnumber]

end Hexadecimal

section Escapes

theorem pairMarks_eq_ok_iff {s rest : List Char} :
    pairMarks s = .ok rest ↔ s = '\\' :: 'u' :: rest := by
  have hmark (mark : Char) (s rest : List Char) :
      pairMark mark s = .ok rest ↔ s = mark :: rest := by
    cases s with
    | nil =>
        simp [pairMark]
    | cons c s =>
        by_cases hc : c = mark
        · simp [pairMark, hc]
        · simp [pairMark, hc]
  unfold pairMarks
  cases hfirst : pairMark '\\' s with
  | error fault =>
      simp only [reduceCtorEq, false_iff]
      rintro rfl
      simp [(hmark _ _ _).mpr rfl] at hfirst
  | ok between =>
      rw [hmark] at hfirst
      simp [hmark, hfirst]

theorem lowSurrogate_eq_ok_iff {s rest : List Char} {low : Nat} :
    lowSurrogate s = .ok (low, rest) ↔
      ∃ quad, HexQuad quad low ∧ 0xDC00 ≤ low ∧ low ≤ 0xDFFF ∧
        s = '\\' :: 'u' :: (quad ++ rest) := by
  constructor
  · intro hread
    unfold lowSurrogate at hread
    split at hread
    · cases hread
    · next afterMarks hmarks =>
        rw [pairMarks_eq_ok_iff] at hmarks
        split at hread
        · cases hread
        · next unit afterQuad hunit =>
            obtain ⟨quad, hquad, rfl⟩ := hexQuad_eq_ok_iff.mp hunit
            split at hread
            · next hrange =>
                obtain ⟨rfl, rfl⟩ := Prod.mk.inj (Except.ok.inj hread)
                simp only [Bool.and_eq_true, decide_eq_true_eq] at hrange
                exact ⟨quad, hquad, hrange.1, hrange.2, hmarks⟩
            · cases hread
  · rintro ⟨quad, hquad, hlow, hhigh, rfl⟩
    have hmarks :
        pairMarks ('\\' :: 'u' :: (quad ++ rest)) = .ok (quad ++ rest) :=
      pairMarks_eq_ok_iff.mpr rfl
    have hread : hexQuad (quad ++ rest) = .ok (low, rest) :=
      hexQuad_eq_ok_iff.mpr ⟨quad, hquad, rfl⟩
    simp [lowSurrogate, hmarks, hread, hlow, hhigh]

/-- The code point of a character is no surrogate. -/
theorem toNat_not_surrogate (c : Char) :
    c.toNat < 0xD800 ∨ 0xDFFF < c.toNat := by
  rcases c.valid with hbelow | ⟨habove, -⟩
  · exact .inl hbelow
  · exact .inr habove

theorem toNat_ofNat {n : Nat} (hvalid : n.isValidChar) :
    (Char.ofNat n).toNat = n := by
  rw [Char.ofNat, dif_pos hvalid]
  rfl

theorem toNat_ofNat_unit {unit : Nat}
    (hunit : unit < 0x10000)
    (hlow : ¬ (0xDC00 ≤ unit ∧ unit ≤ 0xDFFF))
    (hhigh : ¬ (0xD800 ≤ unit ∧ unit ≤ 0xDBFF)) :
    (Char.ofNat unit).toNat = unit := by
  apply toNat_ofNat
  rw [Nat.isValidChar]
  omega

theorem toNat_pairChar {high low : Nat}
    (hhigh : 0xD800 ≤ high ∧ high ≤ 0xDBFF)
    (hlow : 0xDC00 ≤ low ∧ low ≤ 0xDFFF) :
    (pairChar high low).toNat =
      0x10000 + (high - 0xD800) * 0x400 + (low - 0xDC00) := by
  apply toNat_ofNat
  rw [Nat.isValidChar]
  omega

/-- After the mark of a numbered escape there is one number, or a pair. -/
theorem letter_numbered_iff {written : List Char} {c : Char} :
    Letter ('\\' :: 'u' :: written) c ↔
      HexQuad written c.toNat ∨
      ∃ first second high low,
        HexQuad first high ∧ (0xD800 ≤ high ∧ high ≤ 0xDBFF) ∧
        HexQuad second low ∧ (0xDC00 ≤ low ∧ low ≤ 0xDFFF) ∧
        c.toNat = 0x10000 + (high - 0xD800) * 0x400 + (low - 0xDC00) ∧
        written = first ++ '\\' :: 'u' :: second := by
  constructor
  · intro hletter
    cases hletter with
    | short hmark =>
        simp [shortEscapes] at hmark
    | number hquad =>
        exact .inl hquad
    | pair hfirst hlower hupper hsecond hlower' hupper' hvalue =>
        exact
          .inr ⟨_, _, _, _, hfirst, ⟨hlower, hupper⟩, hsecond,
            ⟨hlower', hupper'⟩, hvalue, rfl⟩
  · rintro (hquad | ⟨first, second, high, low, hfirst, hhigh, hsecond, hlow,
      hvalue, rfl⟩)
    · exact .number hquad
    · exact .pair hfirst hhigh.1 hhigh.2 hsecond hlow.1 hlow.2 hvalue

theorem numberedEscape_eq_ok_iff {s rest : List Char} {c : Char} :
    numberedEscape s = .ok (c, rest) ↔
      ∃ written, Letter ('\\' :: 'u' :: written) c ∧ s = written ++ rest := by
  simp only [letter_numbered_iff]
  constructor
  · intro hread
    unfold numberedEscape at hread
    split at hread
    · cases hread
    · next unit afterQuad hunit =>
        obtain ⟨quad, hquad, rfl⟩ := hexQuad_eq_ok_iff.mp hunit
        split at hread
        · cases hread
        · next hnotLow =>
            simp only [Bool.and_eq_true, decide_eq_true_eq] at hnotLow
            split at hread
            · next hhigh =>
                simp only [Bool.and_eq_true, decide_eq_true_eq] at hhigh
                split at hread
                · cases hread
                · next low afterPair hpair =>
                    obtain ⟨second, hsecond, hlower, hupper, rfl⟩ :=
                      lowSurrogate_eq_ok_iff.mp hpair
                    obtain ⟨rfl, rfl⟩ := Prod.mk.inj (Except.ok.inj hread)
                    refine
                      ⟨quad ++ '\\' :: 'u' :: second, .inr ?_, by simp⟩
                    exact
                      ⟨quad, second, unit, low, hquad, hhigh, hsecond,
                        ⟨hlower, hupper⟩, toNat_pairChar hhigh ⟨hlower, hupper⟩,
                        rfl⟩
            · next hnotHigh =>
                simp only [Bool.and_eq_true, decide_eq_true_eq] at hnotHigh
                obtain ⟨rfl, rfl⟩ := Prod.mk.inj (Except.ok.inj hread)
                refine ⟨quad, .inl ?_, rfl⟩
                rw [toNat_ofNat_unit hquad.lt hnotLow hnotHigh]
                exact hquad
  · rintro ⟨written, hquad | ⟨first, second, high, low, hfirst, hhigh, hsecond,
      hlow, hvalue, rfl⟩, rfl⟩
    · have hread : hexQuad (written ++ rest) = .ok (c.toNat, rest) :=
        hexQuad_eq_ok_iff.mpr ⟨written, hquad, rfl⟩
      have hscalar := toNat_not_surrogate c
      have hnotLow : ¬ (0xDC00 ≤ c.toNat ∧ c.toNat ≤ 0xDFFF) := by
        omega
      have hnotHigh : ¬ (0xD800 ≤ c.toNat ∧ c.toNat ≤ 0xDBFF) := by
        omega
      simp [numberedEscape, hread, hnotLow, hnotHigh]
    · have hread :
          hexQuad (first ++ '\\' :: 'u' :: (second ++ rest)) =
            .ok (high, '\\' :: 'u' :: (second ++ rest)) :=
        hexQuad_eq_ok_iff.mpr ⟨first, hfirst, rfl⟩
      have hpair :
          lowSurrogate ('\\' :: 'u' :: (second ++ rest)) = .ok (low, rest) :=
        lowSurrogate_eq_ok_iff.mpr ⟨second, hsecond, hlow.1, hlow.2, rfl⟩
      have hnotLow : ¬ (0xDC00 ≤ high ∧ high ≤ 0xDFFF) := by
        omega
      have hchar : pairChar high low = c := by
        rw [pairChar, ← hvalue, Char.ofNat_toNat]
      simp [numberedEscape, hread, hpair, hnotLow, hhigh, hchar]

theorem shortEscape?_eq_some_iff {mark c : Char} :
    shortEscape? mark = some c ↔ (mark, c) ∈ shortEscapes := by
  constructor
  · intro hshort
    unfold shortEscape? at hshort
    split at hshort <;>
      simp only [Option.some.injEq, reduceCtorEq] at hshort <;>
      simp [shortEscapes, ← hshort]
  · intro hmem
    simp only [shortEscapes, List.mem_cons, Prod.mk.injEq, List.not_mem_nil,
      or_false] at hmem
    rcases hmem with ⟨rfl, rfl⟩ | ⟨rfl, rfl⟩ | ⟨rfl, rfl⟩ | ⟨rfl, rfl⟩ |
      ⟨rfl, rfl⟩ | ⟨rfl, rfl⟩ | ⟨rfl, rfl⟩ | ⟨rfl, rfl⟩ <;> rfl

/-- After a backslash, what is read is the rest of one written character. -/
theorem escape_eq_ok_iff {s rest : List Char} {c : Char} :
    escape s = .ok (c, rest) ↔
      ∃ written, Letter ('\\' :: written) c ∧ s = written ++ rest := by
  constructor
  · intro hread
    unfold escape at hread
    split at hread
    · cases hread
    · next mark tail =>
        split at hread
        · next hmark =>
            obtain ⟨written, hletter, rfl⟩ := numberedEscape_eq_ok_iff.mp hread
            exact ⟨'u' :: written, hletter, by rw [hmark]; rfl⟩
        · split at hread
          · next meant hshort =>
              obtain ⟨rfl, rfl⟩ := Prod.mk.inj (Except.ok.inj hread)
              exact ⟨[mark], .short (shortEscape?_eq_some_iff.mp hshort), rfl⟩
          · cases hread
  · rintro ⟨written, hletter, rfl⟩
    have hnumbered {tail : List Char}
        (htail : Letter ('\\' :: 'u' :: tail) c) :
        escape (('u' :: tail) ++ rest) = .ok (c, rest) := by
      rw [List.cons_append, escape, if_pos rfl]
      exact numberedEscape_eq_ok_iff.mpr ⟨tail, htail, rfl⟩
    cases hletter with
    | plain _ hbackslash _ =>
        exact absurd rfl hbackslash
    | @short mark _ hmem =>
        have hmark : mark ≠ 'u' := by
          rintro rfl
          simp [shortEscapes] at hmem
        have hshort := shortEscape?_eq_some_iff.mpr hmem
        simp [escape, hmark, hshort]
    | number hquad =>
        exact hnumbered (.number hquad)
    | pair hfirst hlower hupper hsecond hlower' hupper' hvalue =>
        exact
          hnumbered (.pair hfirst hlower hupper hsecond hlower' hupper' hvalue)

end Escapes

section Quotes

/-- A written character stands for itself, or begins with a backslash. -/
theorem Grammar.Letter.plain_or_escaped {s : List Char} {c : Char}
    (hletter : Letter s c) :
    (s = [c] ∧ c ≠ '"' ∧ c ≠ '\\' ∧ 0x20 ≤ c.toNat) ∨
      ∃ written, s = '\\' :: written := by
  cases hletter with
  | plain hquote hbackslash hcontrol =>
      exact .inl ⟨rfl, hquote, hbackslash, hcontrol⟩
  | short | number | pair =>
      exact .inr ⟨_, rfl⟩

theorem quotedChars_append
    {written cs : List Char}
    (hletters : Letters written cs)
    (rest : List Char) :
    quotedChars (written ++ '"' :: rest) = .ok (cs, rest) := by
  induction hletters with
  | nil =>
      rw [List.nil_append, quotedChars, if_pos rfl]
  | @cons s tail cs c hletter _ ih =>
      rw [List.append_assoc]
      rcases hletter.plain_or_escaped with
        ⟨rfl, hquote, hbackslash, hcontrol⟩ | ⟨inner, rfl⟩
      · rw [List.singleton_append, quotedChars, if_neg hquote,
          if_neg hbackslash, if_neg (Nat.not_lt.mpr hcontrol), ih]
      · have hescape :
            escape (inner ++ (tail ++ '"' :: rest)) =
              .ok (c, tail ++ '"' :: rest) :=
          escape_eq_ok_iff.mpr ⟨inner, hletter, rfl⟩
        rw [List.cons_append, quotedChars, if_neg (by decide), if_pos rfl]
        split
        · next fault hfault =>
            rw [hescape] at hfault
            cases hfault
        · next meant after hmeant =>
            rw [hescape] at hmeant
            obtain ⟨rfl, rfl⟩ := Prod.mk.inj (Except.ok.inj hmeant)
            rw [ih]

theorem letters_of_quotedChars
    {s cs rest : List Char}
    (hread : quotedChars s = .ok (cs, rest)) :
    ∃ written, Letters written cs ∧ s = written ++ '"' :: rest := by
  fun_induction quotedChars s generalizing cs rest with
  | case1 =>
      cases hread
  | case2 tail =>
      obtain ⟨rfl, rfl⟩ := Prod.mk.inj (Except.ok.inj hread)
      exact ⟨[], .nil, rfl⟩
  | case3 | case4 | case6 | case7 =>
      cases hread
  | case5 tail meant between hescape cs' rest' hchars _ ih =>
      obtain ⟨rfl, rfl⟩ := Prod.mk.inj (Except.ok.inj hread)
      obtain ⟨inner, hletter, rfl⟩ := escape_eq_ok_iff.mp hescape
      obtain ⟨written, hletters, rfl⟩ := ih hchars
      exact ⟨('\\' :: inner) ++ written, .cons hletter hletters, by simp⟩
  | case8 c tail hquote hbackslash hcontrol cs' rest' hchars ih =>
      obtain ⟨rfl, rfl⟩ := Prod.mk.inj (Except.ok.inj hread)
      obtain ⟨written, hletters, rfl⟩ := ih hchars
      have hletter : Letter [c] c :=
        .plain hquote hbackslash (Nat.not_lt.mp hcontrol)
      exact ⟨[c] ++ written, .cons hletter hletters, rfl⟩

theorem Grammar.Quoted.head? {quoted : List Char} {text : String}
    (hquoted : Quoted quoted text) : quoted.head? = some '"' := by
  cases hquoted with
  | quotes =>
      rfl

theorem quotedText_eq_ok_iff {s rest : List Char} {text : String} :
    quotedText s = .ok (text, rest) ↔
      ∃ written, Quoted ('"' :: written) text ∧ s = written ++ rest := by
  constructor
  · intro hread
    unfold quotedText at hread
    split at hread
    · cases hread
    · next cs after hchars =>
        obtain ⟨rfl, rfl⟩ := Prod.mk.inj (Except.ok.inj hread)
        obtain ⟨written, hletters, rfl⟩ := letters_of_quotedChars hchars
        exact ⟨written ++ ['"'], .quotes hletters, by simp⟩
  · rintro ⟨written, hquoted, rfl⟩
    cases hquoted with
    | @quotes inner cs hletters =>
        have hchars := quotedChars_append hletters rest
        rw [List.append_assoc, List.singleton_append, quotedText, hchars]

/-- A key is a quoted text, whatever follows it. -/
theorem key_eq_ok_iff {s rest : List Char} {text : String} :
    key s = .ok (text, rest) ↔
      ∃ quoted, Quoted quoted text ∧ s = quoted ++ rest := by
  constructor
  · intro hread
    unfold key at hread
    split at hread
    · obtain ⟨written, hquoted, rfl⟩ := quotedText_eq_ok_iff.mp hread
      exact ⟨'"' :: written, hquoted, rfl⟩
    · cases hread
  · rintro ⟨quoted, hquoted, rfl⟩
    cases hquoted with
    | quotes hletters =>
        exact quotedText_eq_ok_iff.mpr ⟨_, .quotes hletters, rfl⟩

end Quotes

end Config
end MethodLint
