import MethodLint.Text.Blank
import Mathlib.Data.List.TakeWhile

/-!
# Runs at the ends of a text

A run is a stretch of characters of one sort: digits, gaps, blanks.  A run at
the front ends before the first character of another sort, and this fixes how
a text is cut.

**Results.**  `takeWhile_append_run` and `dropWhile_append_run` cut a text after
its run.  `trim_eq_iff` says what trimming leaves: the core, which has no blank
at either end.
-/

namespace MethodLint
namespace Text

section Runs

variable {p : Char → Bool} {s run rest : List Char}

theorem eq_false_of_mem_head?_dropWhile
    {c : Char}
    (hc : c ∈ (s.dropWhile p).head?) :
    p c = false := by
  have hhead := List.head?_dropWhile_not p s
  rw [show (s.dropWhile p).head? = some c from hc] at hhead
  exact hhead

theorem dropWhile_eq_self
    (hstop : ∀ c ∈ s.head?, p c = false) :
    s.dropWhile p = s := by
  cases s with
  | nil =>
      rfl
  | cons c s =>
      simp [hstop c rfl]

theorem takeWhile_eq_nil
    (hstop : ∀ c ∈ s.head?, p c = false) :
    s.takeWhile p = [] := by
  cases s with
  | nil =>
      rfl
  | cons c s =>
      simp [hstop c rfl]

theorem dropWhile_append_run
    (hrun : ∀ c ∈ run, p c = true)
    (hstop : ∀ c ∈ rest.head?, p c = false) :
    (run ++ rest).dropWhile p = rest := by
  rw [List.dropWhile_append_of_pos hrun, dropWhile_eq_self hstop]

theorem takeWhile_append_run
    (hrun : ∀ c ∈ run, p c = true)
    (hstop : ∀ c ∈ rest.head?, p c = false) :
    (run ++ rest).takeWhile p = run := by
  rw [List.takeWhile_append_of_pos hrun, takeWhile_eq_nil hstop,
    List.append_nil]

end Runs

/-- The core of a text is what is left without the blanks at both ends. -/
structure Trimmed (s core : List Char) : Prop where
  blanks :
    ∃ front back, s = front ++ (core ++ back) ∧
      (∀ c ∈ front, isBlank c = true) ∧
      (∀ c ∈ back, isBlank c = true)
  head : ∀ c ∈ core.head?, isBlank c = false
  last : ∀ c ∈ core.getLast?, isBlank c = false

theorem trimmed_trim (s : List Char) : Trimmed s (trim s) := by
  have hback :
      trim s ++ ((s.dropWhile isBlank).reverse.takeWhile isBlank).reverse =
        s.dropWhile isBlank := by
    rw [trim, ← List.reverse_append, List.takeWhile_append_dropWhile,
      List.reverse_reverse]
  constructor
  · refine
      ⟨s.takeWhile isBlank,
        ((s.dropWhile isBlank).reverse.takeWhile isBlank).reverse, ?_, ?_, ?_⟩
    · rw [hback, List.takeWhile_append_dropWhile]
    · intro c hc
      exact List.mem_takeWhile_imp hc
    · intro c hc
      exact List.mem_takeWhile_imp (List.mem_reverse.mp hc)
  · intro c hc
    -- The core is in front of the rest after the first blanks.
    obtain ⟨tail, htail⟩ := List.head?_eq_some_iff.mp hc
    have hfirst : c ∈ (s.dropWhile isBlank).head? := by
      rw [← hback, htail]
      rfl
    exact eq_false_of_mem_head?_dropWhile hfirst
  · intro c hc
    rw [trim, List.getLast?_reverse] at hc
    exact eq_false_of_mem_head?_dropWhile hc

/-- Trimming leaves the core of a text. -/
theorem trim_eq_iff {s core : List Char} :
    trim s = core ↔ Trimmed s core := by
  constructor
  · rintro rfl
    exact trimmed_trim s
  · rintro ⟨⟨front, back, rfl, hfront, hback⟩, hhead, hlast⟩
    have hreversed : ∀ c ∈ back.reverse, isBlank c = true := by
      intro c hc
      exact hback c (List.mem_reverse.mp hc)
    have hlastReversed : ∀ c ∈ core.reverse.head?, isBlank c = false := by
      rw [List.head?_reverse]
      exact hlast
    rw [trim]
    cases core with
    | nil =>
        have hall : ∀ c ∈ front ++ back, isBlank c = true := by
          intro c hc
          rcases List.mem_append.mp hc with hc | hc
          · exact hfront c hc
          · exact hback c hc
        rw [List.nil_append, List.dropWhile_eq_nil_iff.mpr hall]
        rfl
    | cons c core =>
        have hfirst : ∀ d ∈ (c :: core ++ back).head?, isBlank d = false :=
          hhead
        rw [dropWhile_append_run hfront hfirst, List.reverse_append,
          dropWhile_append_run hreversed hlastReversed, List.reverse_reverse]

end Text
end MethodLint
