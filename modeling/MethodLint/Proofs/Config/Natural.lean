import MethodLint.Config.Numeral
import MethodLint.Proofs.Text.Runs

/-!
# Natural numbers are read exactly

A numeral goes on as long as a digit, a point or the letter of an exponent
follows, so a reader of numerals has to look at what comes next.  Here: a
numeral is read as a natural number exactly if it is the decimal numeral of
that number, the number fits in the significand, and nothing follows that
would make the numeral longer.

**Argument.**  Only a numeral without sign, fraction and exponent has an
integer for its value that is not negative.  Its digits have no needless zero
in front, so they are the decimal digits of their value.
-/

namespace MethodLint
namespace Config
namespace Numeral

/-- Nothing that follows could make a numeral longer. -/
def Stops (rest : List Char) : Prop :=
  ∀ c ∈ rest.head?, c.isDigit = false ∧ c ≠ '.' ∧ c ≠ 'e' ∧ c ≠ 'E'

instance (rest : List Char) : Decidable (Stops rest) :=
  inferInstanceAs (Decidable (∀ c ∈ rest.head?, _))

/-- Digits without a needless zero in front. -/
structure Whole (digits : List Char) : Prop where
  digit : ∀ c ∈ digits, c.isDigit = true
  nonempty : digits ≠ []
  zero : digits.head? = some '0' → digits = ['0']

section Parts

variable {s rest : List Char}

theorem digits_eq_nil_iff :
    digits s = [] ↔ ∀ c ∈ s.head?, c.isDigit = false := by
  cases s with
  | nil =>
      simp [digits]
  | cons c s =>
      simp [digits]

theorem digits_append_afterDigits (s : List Char) :
    digits s ++ afterDigits s = s :=
  List.takeWhile_append_dropWhile

/-- The whole part is read up to the last digit. -/
theorem readWhole_eq_ok_iff {whole : List Char} :
    readWhole s = .ok (whole, rest) ↔
      Whole whole ∧ s = whole ++ rest ∧
        ∀ c ∈ rest.head?, c.isDigit = false := by
  constructor
  · intro hread
    unfold readWhole at hread
    split at hread
    · cases hread
    · next c tail =>
        split at hread
        · next hzero =>
            split at hread
            · next hnone =>
                obtain ⟨rfl, rfl⟩ := Prod.mk.inj (Except.ok.inj hread)
                subst hzero
                refine ⟨⟨?_, by simp, fun _ => rfl⟩, rfl, ?_⟩
                · intro d hd
                  rw [List.mem_singleton.mp hd]
                  rfl
                · exact digits_eq_nil_iff.mp (List.isEmpty_iff.mp hnone)
            · cases hread
        · next hzero =>
            split at hread
            · next hdigit =>
                obtain ⟨rfl, rfl⟩ := Prod.mk.inj (Except.ok.inj hread)
                refine ⟨⟨?_, by simp, ?_⟩, ?_, ?_⟩
                · intro d hd
                  rcases List.mem_cons.mp hd with rfl | hd
                  · exact hdigit
                  · exact List.mem_takeWhile_imp hd
                · intro hhead
                  exact absurd (Option.some.inj hhead) hzero
                · rw [List.cons_append, digits_append_afterDigits]
                · intro d hd
                  exact Text.eq_false_of_mem_head?_dropWhile hd
            · cases hread
  · rintro ⟨hwhole, rfl, hstop⟩
    cases whole with
    | nil =>
        exact absurd rfl hwhole.nonempty
    | cons c ds =>
        by_cases hzero : c = '0'
        · subst hzero
          obtain rfl : ds = [] := by
            simpa using hwhole.zero rfl
          have hnone := digits_eq_nil_iff.mpr hstop
          simp [readWhole, hnone]
        · have hdigit := hwhole.digit c List.mem_cons_self
          have hrest := fun d hd => hwhole.digit d (List.mem_cons_of_mem c hd)
          have hdigits : digits (ds ++ rest) = ds :=
            Text.takeWhile_append_run hrest hstop
          have hafter : afterDigits (ds ++ rest) = rest :=
            Text.dropWhile_append_run hrest hstop
          simp [readWhole, hzero, hdigit, hdigits, hafter]

theorem readFraction_eq_none_iff :
    readFraction s = .ok (none, rest) ↔
      rest = s ∧ ∀ c ∈ s.head?, c ≠ '.' := by
  unfold readFraction
  split
  · next tail =>
      constructor
      · intro hread
        split at hread
        · split at hread <;> cases hread
        · cases hread
      · rintro ⟨-, hpoint⟩
        exact absurd rfl (hpoint '.' rfl)
  · next hpoint =>
      constructor
      · intro hread
        obtain ⟨-, rfl⟩ := Prod.mk.inj (Except.ok.inj hread)
        refine ⟨rfl, ?_⟩
        rintro c hc rfl
        obtain ⟨tail, rfl⟩ := List.head?_eq_some_iff.mp hc
        exact hpoint tail rfl
      · rintro ⟨rfl, -⟩
        rfl

theorem readExponent_eq_none_iff :
    readExponent s = .ok (none, rest) ↔
      rest = s ∧ ∀ c ∈ s.head?, c ≠ 'e' ∧ c ≠ 'E' := by
  unfold readExponent
  split
  · constructor
    · intro hread
      obtain ⟨-, rfl⟩ := Prod.mk.inj (Except.ok.inj hread)
      exact ⟨rfl, by simp⟩
    · rintro ⟨rfl, -⟩
      rfl
  · next c tail =>
      split
      · next hletter =>
          constructor
          · intro hread
            split at hread
            · cases hread
            · split at hread <;> cases hread
          · rintro ⟨-, hother⟩
            have hneither := hother c rfl
            simp [hneither] at hletter
      · next hletter =>
          constructor
          · intro hread
            obtain ⟨-, rfl⟩ := Prod.mk.inj (Except.ok.inj hread)
            refine ⟨rfl, ?_⟩
            intro d hd
            obtain rfl := Option.some.inj hd
            simpa using hletter
          · rintro ⟨rfl, -⟩
            rfl

theorem readSign_eq_false_iff {afterSign : List Char} :
    readSign s = (false, afterSign) ↔
      afterSign = s ∧ ∀ c ∈ s.head?, c ≠ '-' := by
  unfold readSign
  split
  · next tail =>
      simp
  · next hminus =>
      constructor
      · intro hread
        obtain ⟨-, rfl⟩ := Prod.mk.inj hread
        refine ⟨rfl, ?_⟩
        rintro c hc rfl
        obtain ⟨tail, rfl⟩ := List.head?_eq_some_iff.mp hc
        exact hminus tail rfl
      · rintro ⟨rfl, -⟩
        rfl

/-- The four parts of a numeral are read one after the other. -/
theorem read_eq_ok_iff {numeral : Numeral} :
    read s = .ok (numeral, rest) ↔
      ∃ afterSign afterWhole afterFraction,
        readSign s = (numeral.negative, afterSign) ∧
        readWhole afterSign = .ok (numeral.whole, afterWhole) ∧
        readFraction afterWhole = .ok (numeral.fraction, afterFraction) ∧
        readExponent afterFraction = .ok (numeral.exponent, rest) := by
  constructor
  · intro hread
    unfold read at hread
    split at hread
    next negative afterSign hsign =>
      split at hread
      · cases hread
      · next whole afterWhole hwhole =>
          split at hread
          · cases hread
          · next fraction afterFraction hfraction =>
              split at hread
              · cases hread
              · next exponent after hexponent =>
                  obtain ⟨rfl, rfl⟩ := Prod.mk.inj (Except.ok.inj hread)
                  exact
                    ⟨afterSign, afterWhole, afterFraction, hsign, hwhole,
                      hfraction, hexponent⟩
  · rintro ⟨afterSign, afterWhole, afterFraction, hsign, hwhole, hfraction,
      hexponent⟩
    simp [read, hsign, hwhole, hfraction, hexponent]

/-- A numeral of digits alone is read if nothing makes it longer. -/
theorem read_eq_digits_iff {whole : List Char} :
    read s = .ok (⟨false, whole, none, none⟩, rest) ↔
      Whole whole ∧ s = whole ++ rest ∧ Stops rest := by
  rw [read_eq_ok_iff]
  constructor
  · rintro ⟨afterSign, afterWhole, afterFraction, hsign, hwhole, hfraction,
      hexponent⟩
    obtain ⟨rfl, -⟩ := readSign_eq_false_iff.mp hsign
    obtain ⟨hdigits, hsplit, hdigit⟩ := readWhole_eq_ok_iff.mp hwhole
    obtain ⟨rfl, hpoint⟩ := readFraction_eq_none_iff.mp hfraction
    obtain ⟨rfl, hletter⟩ := readExponent_eq_none_iff.mp hexponent
    exact
      ⟨hdigits, hsplit, fun c hc => ⟨hdigit c hc, hpoint c hc, hletter c hc⟩⟩
  · rintro ⟨hwhole, rfl, hstops⟩
    refine ⟨whole ++ rest, rest, rest, ?_, ?_, ?_, ?_⟩
    · rw [readSign_eq_false_iff]
      refine ⟨rfl, ?_⟩
      obtain ⟨first, tail, rfl⟩ := List.exists_cons_of_ne_nil hwhole.nonempty
      rintro c hc rfl
      obtain rfl := Option.some.inj hc
      exact absurd (hwhole.digit '-' List.mem_cons_self) (by decide)
    · exact
        readWhole_eq_ok_iff.mpr ⟨hwhole, rfl, fun c hc => (hstops c hc).1⟩
    · exact readFraction_eq_none_iff.mpr ⟨rfl, fun c hc => (hstops c hc).2.1⟩
    · exact readExponent_eq_none_iff.mpr ⟨rfl, fun c hc => (hstops c hc).2.2⟩

end Parts

section Value

theorem exists_real_of_scale
    {negative : Bool} {significand : Nat} {exponent : Int} {value : Value}
    (hscale : scale negative significand exponent = .ok value) :
    ∃ x, value = .real x := by
  unfold scale at hscale
  split at hscale
  · exact ⟨_, (Except.ok.inj hscale).symm⟩
  · cases hscale

theorem exists_real_of_raise
    {negative : Bool} {significand : Nat} {shift : Int} {exponent : Exponent}
    {value : Value}
    (hraise : raise negative significand shift exponent = .ok value) :
    ∃ x, value = .real x := by
  unfold raise at hraise
  split at hraise
  · exact exists_real_of_scale hraise
  · split at hraise
    · cases hraise
    · exact ⟨_, (Except.ok.inj hraise).symm⟩

/-- With a sign, zero is a double, and any other integer is negative. -/
theorem integer_eq_natural_iff {negative : Bool} {m n : Nat} :
    integer negative m = .integer (n : Int) ↔
      negative = false ∧ m = n := by
  cases negative with
  | false =>
      simp only [integer, Bool.not_false, if_true, Value.integer.injEq,
        true_and]
      omega
  | true =>
      simp only [integer, Bool.not_true, Bool.false_eq_true, if_false,
        Bool.true_eq_false, false_and, iff_false]
      split
      · simp [signed]
      · next hnonzero =>
          have hne : m ≠ 0 := by
            intro hzero
            simp [hzero] at hnonzero
          rw [Value.integer.injEq]
          omega

/-- The value of a numeral is a double, unless it is of digits that all fit. -/
theorem value_cases
    {numeral : Numeral} {value : Value}
    (hvalue : numeral.value = .ok value) :
    (∃ x, value = .real x) ∨
      ∃ n, numeral.fraction = none ∧ numeral.exponent = none ∧
        gather significandBound 0 numeral.whole = (n, []) ∧
        value = integer numeral.negative n := by
  rcases numeral with ⟨negative, whole, fraction, exponent⟩
  cases fraction with
  | some fraction =>
      left
      cases exponent with
      | none =>
          exact exists_real_of_scale hvalue
      | some exponent =>
          exact exists_real_of_raise hvalue
  | none =>
      cases exponent with
      | some exponent =>
          exact .inl (exists_real_of_raise hvalue)
      | none =>
          cases hgather : gather significandBound 0 whole with
          | mk significand spilled =>
              simp only [Numeral.value, hgather] at hvalue
              cases spilled with
              | cons c spilled =>
                  exact .inl (exists_real_of_scale hvalue)
              | nil =>
                  exact
                    .inr ⟨significand, rfl, rfl, rfl,
                      (Except.ok.inj hvalue).symm⟩

theorem value_ne_text (numeral : Numeral) (text : String) :
    numeral.value ≠ .ok (.text text) := by
  intro hvalue
  rcases value_cases hvalue with ⟨x, hreal⟩ | ⟨n, -, -, -, hinteger⟩
  · cases hreal
  · unfold integer signed at hinteger
    split at hinteger
    · cases hinteger
    · split at hinteger <;> cases hinteger

/-- Only digits alone have a natural number for their value. -/
theorem value_eq_natural_iff {numeral : Numeral} {n : Nat} :
    numeral.value = .ok (.integer (n : Int)) ↔
      numeral.negative = false ∧ numeral.fraction = none ∧
        numeral.exponent = none ∧
        gather significandBound 0 numeral.whole = (n, []) := by
  constructor
  · intro hvalue
    rcases value_cases hvalue with
      ⟨x, hreal⟩ | ⟨m, hfraction, hexponent, hgather, hinteger⟩
    · cases hreal
    · obtain ⟨hsign, rfl⟩ := integer_eq_natural_iff.mp hinteger.symm
      exact ⟨hsign, hfraction, hexponent, hgather⟩
  · rintro ⟨hsign, hfraction, hexponent, hgather⟩
    simp [value, hfraction, hexponent, hgather, hsign, integer]

end Value

section Digits

theorem digitValue_lt {c : Char} (hdigit : c.isDigit = true) :
    digitValue c < 10 := by
  have hrange := Char.isDigit_iff_toNat.mp hdigit
  have hzero : '0'.toNat = 48 := rfl
  have hnine : '9'.toNat = 57 := rfl
  unfold digitValue
  omega

theorem digitChar_digitValue {c : Char} (hdigit : c.isDigit = true) :
    (digitValue c).digitChar = c := by
  have hvalue := Nat.toNat_digitChar_of_lt_ten (digitValue_lt hdigit)
  have hrange := Char.isDigit_iff_toNat.mp hdigit
  have hzero : '0'.toNat = 48 := rfl
  apply Char.toNat_inj.mp
  rw [hvalue, digitValue]
  omega

theorem le_ofDigitChars (ds : List Char) (m : Nat) :
    m ≤ Nat.ofDigitChars 10 ds m := by
  induction ds generalizing m with
  | nil =>
      simp
  | cons c ds ih =>
      rw [Nat.ofDigitChars_cons]
      exact Nat.le_trans (by omega) (ih _)

/-- All digits are gathered exactly if their value stays below the bound. -/
theorem gather_eq_iff
    {bound m n : Nat} {ds : List Char}
    (hstart : m < bound) :
    gather bound m ds = (n, []) ↔
      Nat.ofDigitChars 10 ds m = n ∧ n < bound := by
  induction ds generalizing m with
  | nil =>
      simp only [gather, Nat.ofDigitChars_nil, Prod.mk.injEq, and_true]
      omega
  | cons c ds ih =>
      rw [Nat.ofDigitChars_cons]
      by_cases hgrown : 10 * m + digitValue c < bound
      · simp only [gather, hgrown, if_true]
        exact ih hgrown
      · simp only [gather, hgrown, if_false, Prod.mk.injEq, reduceCtorEq,
          and_false, false_iff, not_and]
        rintro rfl
        exact fun hlt =>
          hgrown (Nat.lt_of_le_of_lt (le_ofDigitChars ds _) hlt)

/-- More digits after a number that is not zero are its further digits. -/
theorem toDigits_ofDigitChars
    {m : Nat} {ds : List Char}
    (hpositive : 0 < m)
    (hdigits : ∀ c ∈ ds, c.isDigit = true) :
    Nat.toDigits 10 (Nat.ofDigitChars 10 ds m) = Nat.toDigits 10 m ++ ds := by
  induction ds generalizing m with
  | nil =>
      simp
  | cons c ds ih =>
      have hdigit := hdigits c List.mem_cons_self
      have hlt := digitValue_lt hdigit
      have hlast : Nat.toDigits 10 (digitValue c) = [c] := by
        rw [Nat.toDigits_of_lt_base hlt, digitChar_digitValue hdigit]
      have hrest := fun d hd => hdigits d (List.mem_cons_of_mem c hd)
      rw [Nat.ofDigitChars_cons]
      change Nat.toDigits 10 (Nat.ofDigitChars 10 ds (10 * m + digitValue c)) = _
      rw [ih (by omega) hrest,
        ← Nat.toDigits_append_toDigits (by decide) hpositive hlt, hlast]
      simp

theorem whole_toDigits (n : Nat) : Whole (Nat.toDigits 10 n) where
  digit c hc := Nat.isDigit_of_mem_toDigits (by decide) (by decide) hc
  nonempty := Nat.toDigits_ne_nil
  zero := by
    induction n using Nat.strongRecOn with
    | ind n ih =>
        by_cases hsmall : n < 10
        · rw [Nat.toDigits_of_lt_base hsmall]
          intro hhead
          rw [Option.some.inj hhead]
        · -- The first digit is the first one of the number without its last.
          rw [Nat.toDigits_of_base_le (by decide) (Nat.not_lt.mp hsmall)]
          intro hhead
          have hfront : (Nat.toDigits 10 (n / 10)).head? = some '0' := by
            obtain ⟨first, tail, hcons⟩ :=
              List.exists_cons_of_ne_nil
                (Nat.toDigits_ne_nil (n := n / 10) (b := 10))
            rw [hcons] at hhead ⊢
            exact hhead
          have hzero := ih (n / 10) (by omega) hfront
          have hvalue := Nat.ofDigitChars_ten_toDigits (n := n / 10)
          rw [hzero] at hvalue
          have hnone : Nat.ofDigitChars 10 ['0'] 0 = 0 := by
            decide
          omega

theorem toDigits_of_whole
    {whole : List Char}
    (hwhole : Whole whole) :
    Nat.toDigits 10 (Nat.ofDigitChars 10 whole 0) = whole := by
  obtain ⟨c, ds, rfl⟩ := List.exists_cons_of_ne_nil hwhole.nonempty
  by_cases hzero : c = '0'
  · rw [hwhole.zero (by rw [hzero]; rfl)]
    decide
  · have hdigit := hwhole.digit c List.mem_cons_self
    have hrest := fun d hd => hwhole.digit d (List.mem_cons_of_mem c hd)
    have hpositive : 0 < digitValue c := by
      have hrange := Char.isDigit_iff_toNat.mp hdigit
      have hne : c.toNat ≠ '0'.toNat := fun heq =>
        hzero (Char.toNat_inj.mp heq)
      unfold digitValue
      omega
    rw [Nat.ofDigitChars_cons, Nat.mul_zero, Nat.zero_add]
    change Nat.toDigits 10 (Nat.ofDigitChars 10 ds (digitValue c)) = _
    rw [toDigits_ofDigitChars hpositive hrest,
      Nat.toDigits_of_lt_base (digitValue_lt hdigit),
      digitChar_digitValue hdigit]
    rfl

end Digits

end Numeral

/--
A natural number is read exactly if its decimal numeral comes next, it fits,
and nothing follows that makes the numeral longer.
-/
theorem number_eq_natural_iff {s rest : List Char} {n : Nat} :
    number s = .ok (.integer (n : Int), rest) ↔
      n < Numeral.significandBound ∧ s = Nat.toDigits 10 n ++ rest ∧
        Numeral.Stops rest := by
  have hstart : 0 < Numeral.significandBound := by
    decide
  constructor
  · intro hread
    unfold number at hread
    split at hread
    · cases hread
    · next numeral after hnumeral =>
        split at hread
        · next value hvalue =>
            obtain ⟨rfl, rfl⟩ := Prod.mk.inj (Except.ok.inj hread)
            rcases numeral with ⟨negative, whole, fraction, exponent⟩
            obtain ⟨rfl, rfl, rfl, hgather⟩ :=
              Numeral.value_eq_natural_iff.mp hvalue
            obtain ⟨hwhole, hsplit, hstops⟩ :=
              Numeral.read_eq_digits_iff.mp hnumeral
            obtain ⟨rfl, hfits⟩ := (Numeral.gather_eq_iff hstart).mp hgather
            rw [Numeral.toDigits_of_whole hwhole]
            exact ⟨hfits, hsplit, hstops⟩
        · cases hread
  · rintro ⟨hfits, rfl, hstops⟩
    have hread :=
      Numeral.read_eq_digits_iff.mpr
        ⟨Numeral.whole_toDigits n, rfl, hstops⟩
    have hgather :=
      (Numeral.gather_eq_iff hstart).mpr
        ⟨Nat.ofDigitChars_ten_toDigits, hfits⟩
    have hvalue :
        Numeral.value ⟨false, Nat.toDigits 10 n, none, none⟩ =
          .ok (.integer (n : Int)) :=
      Numeral.value_eq_natural_iff.mpr ⟨rfl, rfl, rfl, hgather⟩
    simp only [number, hread, hvalue]

end Config
end MethodLint
