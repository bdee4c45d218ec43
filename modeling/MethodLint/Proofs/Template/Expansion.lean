import MethodLint.Diagnostic.Template
import MethodLint.Proofs.Text.Runs
import Mathlib.Data.List.Basic

/-!
# Filling in is expansion

Arguments are filled in one after another over the whole text, so an argument
is searched again for the placeholders of later ones.  On texts whose braces
stand in pairs without nesting, this comes to the same as expanding every
placeholder where it stands.

**Specification.**  A text of `Piece`s is made of stretches without braces and
of groups, which are such stretches between braces.  A group is a placeholder
if its content is the decimal numeral of a number.  `expand arguments first`
replaces each placeholder `k` with `first ≤ k` for which there is an argument
by the expansion of that argument, in which only later placeholders count; it
leaves all else as it is.

**Argument.**  A replacement can hit only a whole group, because a placeholder
begins with a brace and has no other inside.  So one replacement turns pieces
into pieces, and expanding from the next number on the result is expanding
from this number on the pieces before.
-/

namespace MethodLint
namespace Template

/-- A text without braces. -/
structure Plain where
  chars : List Char
  noOpening : '\x7b' ∉ chars
  noClosing : '\x7d' ∉ chars
deriving DecidableEq

/-- A stretch of text without braces, or such a stretch between braces. -/
inductive Piece where
  | chunk (text : Plain)
  | group (content : Plain)
deriving DecidableEq

def Piece.chars : Piece → List Char
  | chunk text => text.chars
  | group content => '\x7b' :: (content.chars ++ ['\x7d'])

/-- The text that is made of the pieces. -/
def written (pieces : List Piece) : List Char :=
  pieces.flatMap Piece.chars

/-- The number of which a text is the decimal numeral, without leading zeros. -/
def numeral? (text : List Char) : Option Nat :=
  if Nat.toDigits 10 (Nat.ofDigitChars 10 text 0) = text then
    some (Nat.ofDigitChars 10 text 0)
  else
    none

theorem numeral?_eq_some_iff {text : List Char} {number : Nat} :
    numeral? text = some number ↔ text = Nat.toDigits 10 number := by
  unfold numeral?
  constructor
  · intro hsome
    split at hsome
    · next hcanonical =>
        rw [← Option.some.inj hsome, hcanonical]
    · cases hsome
  · rintro rfl
    rw [Nat.ofDigitChars_ten_toDigits, if_pos rfl]

/--
The text with its placeholders from `first` on expanded.  What is put in for a
placeholder is expanded from the next number on.
-/
def expand
    (arguments : List (List Piece))
    (first : Nat)
    (pieces : List Piece) : List Char :=
  pieces.flatMap fun
    | .chunk text => text.chars
    | .group content =>
        match numeral? content.chars with
        | none => (Piece.group content).chars
        | some number =>
            if h : first ≤ number ∧ number < arguments.length then
              expand arguments (number + 1) (arguments.get ⟨number, h.2⟩)
            else
              (Piece.group content).chars
termination_by arguments.length - first

/-- Each placeholder for which there is an argument becomes that argument. -/
def substituted (arguments : List Plain) : Piece → List Char
  | .chunk text => text.chars
  | .group content =>
      match (numeral? content.chars).bind (arguments[·]?) with
      | none => (Piece.group content).chars
      | some argument => argument.chars

section Replacement

variable {target filling rest : List Char}

theorem replaceAfter_eq_replace_drop
    (target filling : List Char)
    (skip : Nat)
    (text : List Char) :
    replaceAfter target filling skip text =
      replace target filling (text.drop skip) := by
  induction skip generalizing text with
  | zero =>
      rfl
  | succ skip ih =>
      cases text with
      | nil =>
          rfl
      | cons c rest =>
          exact ih rest

theorem replace_hit
    (htarget : target ≠ [])
    (filling rest : List Char) :
    replace target filling (target ++ rest) =
      filling ++ replace target filling rest := by
  obtain ⟨c, tail, rfl⟩ := List.exists_cons_of_ne_nil htarget
  have hbegins : (c :: tail).isPrefixOf (c :: (tail ++ rest)) = true := by
    simp
  rw [replace, List.cons_append, replaceAfter, if_pos hbegins,
    replaceAfter_eq_replace_drop, List.length_cons, Nat.add_sub_cancel,
    List.drop_left]

theorem replace_miss
    {c : Char}
    (hmiss : ¬ target <+: c :: rest) :
    replace target filling (c :: rest) =
      c :: replace target filling rest := by
  have hbegins : ¬ target.isPrefixOf (c :: rest) = true := by
    rwa [List.isPrefixOf_iff_prefix]
  rw [replace, replaceAfter, if_neg hbegins, replace]

/-- A stretch without the first character of the target is passed over. -/
theorem replace_append_of_notMem
    {mark : Char} {tail text : List Char}
    (hmark : mark ∉ text)
    (filling rest : List Char) :
    replace (mark :: tail) filling (text ++ rest) =
      text ++ replace (mark :: tail) filling rest := by
  induction text with
  | nil =>
      rfl
  | cons c text ih =>
      rw [List.mem_cons, not_or] at hmark
      have hmiss : ¬ mark :: tail <+: c :: (text ++ rest) := by
        intro hbegins
        exact hmark.1 (List.cons_prefix_cons.mp hbegins).1
      rw [List.cons_append, replace_miss hmiss, ih hmark.2, List.cons_append]

end Replacement

section Placeholders

variable {index : Nat}

theorem closing_notMem_toDigits (index : Nat) :
    '\x7d' ∉ Nat.toDigits 10 index := by
  intro hmem
  have hdigit := Nat.isDigit_of_mem_toDigits (by decide) (by decide) hmem
  exact absurd hdigit (by decide)

/-- What stands before the first closing brace. -/
theorem takeWhile_before_closing
    {run : List Char}
    (hrun : '\x7d' ∉ run)
    (rest : List Char) :
    (run ++ '\x7d' :: rest).takeWhile (fun c => c ≠ '\x7d') = run := by
  apply Text.takeWhile_append_run
  · intro c hc
    rw [decide_eq_true_eq]
    rintro rfl
    exact hrun hc
  · simp

/-- Of all groups a placeholder begins only the one that it is. -/
theorem eq_toDigits_of_begins
    {content : Plain} {rest : List Char}
    (hbegins : placeholder index <+: (Piece.group content).chars ++ rest) :
    content.chars = Nat.toDigits 10 index := by
  obtain ⟨more, hmore⟩ := hbegins
  have hsame :
      Nat.toDigits 10 index ++ '\x7d' :: more =
        content.chars ++ '\x7d' :: rest := by
    simpa [placeholder, Piece.chars] using hmore
  rw [← takeWhile_before_closing content.noClosing rest, ← hsame,
    takeWhile_before_closing (closing_notMem_toDigits index)]

/-- The piece with a filling in its place, if it is the given placeholder. -/
def fillPiece (index : Nat) (filling : List Piece) : Piece → List Piece
  | .chunk text => [.chunk text]
  | .group content =>
      if content.chars = Nat.toDigits 10 index then
        filling
      else
        [.group content]

/-- A replacement looks at one piece after the other. -/
theorem replace_placeholder_piece
    (index : Nat)
    (filling : List Piece)
    (piece : Piece)
    (rest : List Char) :
    replace (placeholder index) (written filling) (piece.chars ++ rest) =
      written (fillPiece index filling piece) ++
        replace (placeholder index) (written filling) rest := by
  cases piece with
  | chunk text =>
      have hwritten : written [Piece.chunk text] = text.chars := by
        simp [written, Piece.chars]
      rw [fillPiece, hwritten]
      exact replace_append_of_notMem text.noOpening _ _
  | group content =>
      rw [fillPiece]
      split
      · next hcontent =>
          have hgroup : (Piece.group content).chars = placeholder index := by
            rw [Piece.chars, hcontent, placeholder]
          rw [hgroup]
          exact replace_hit (List.cons_ne_nil _ _) _ _
      · next hcontent =>
          have hwritten :
              written [Piece.group content] = (Piece.group content).chars := by
            simp [written]
          have hmiss :
              ¬ placeholder index <+: (Piece.group content).chars ++ rest :=
            fun hbegins => hcontent (eq_toDigits_of_begins hbegins)
          -- After its opening brace the group holds no other one.
          have hinside : '\x7b' ∉ content.chars ++ ['\x7d'] := by
            simpa using content.noOpening
          rw [hwritten]
          rw [Piece.chars, List.cons_append] at hmiss ⊢
          rw [replace_miss hmiss, List.cons_append]
          congr 1
          exact replace_append_of_notMem hinside _ _

/-- Replacing a placeholder in a text of pieces gives a text of pieces. -/
theorem replace_placeholder_written
    (index : Nat)
    (filling pieces : List Piece) :
    replace (placeholder index) (written filling) (written pieces) =
      written (pieces.flatMap (fillPiece index filling)) := by
  induction pieces with
  | nil =>
      rfl
  | cons piece rest ih =>
      have hwritten : written (piece :: rest) = piece.chars ++ written rest := by
        simp [written]
      rw [hwritten, replace_placeholder_piece, ih]
      simp [written]

end Placeholders

section Expansion

variable {arguments : List (List Piece)} {first number : Nat} {content : Plain}

theorem expand_append
    (arguments : List (List Piece))
    (first : Nat)
    (pieces more : List Piece) :
    expand arguments first (pieces ++ more) =
      expand arguments first pieces ++ expand arguments first more := by
  rw [expand, List.flatMap_append, ← expand, ← expand]

theorem expand_chunk
    (arguments : List (List Piece))
    (first : Nat)
    (text : Plain) :
    expand arguments first [.chunk text] = text.chars := by
  rw [expand, List.flatMap_singleton]

theorem expand_placeholder
    {argument : List Piece}
    (hnumber : numeral? content.chars = some number)
    (hfirst : first ≤ number)
    (hargument : arguments[number]? = some argument) :
    expand arguments first [.group content] =
      expand arguments (number + 1) argument := by
  obtain ⟨hlt, hget⟩ := List.getElem?_eq_some_iff.mp hargument
  rw [expand]
  simp [hnumber, hfirst, hlt, hget]

theorem expand_other_group
    (hother :
      ∀ number, numeral? content.chars = some number →
        first ≤ number → arguments.length ≤ number) :
    expand arguments first [.group content] =
      (Piece.group content).chars := by
  rw [expand]
  cases hnumber : numeral? content.chars with
  | none =>
      simp [hnumber]
  | some number =>
      have hrange : ¬ (first ≤ number ∧ number < arguments.length) := by
        rintro ⟨hfirst, hlt⟩
        exact absurd hlt (Nat.not_lt.mpr (hother number hnumber hfirst))
      simp [hnumber, hrange]

/-- Expanding from a number on fills in its argument and goes on behind it. -/
theorem expand_fillPiece
    {index : Nat} {filling : List Piece}
    (hfilling : arguments[index]? = some filling)
    (piece : Piece) :
    expand arguments index [piece] =
      expand arguments (index + 1) (fillPiece index filling piece) := by
  cases piece with
  | chunk text =>
      rw [fillPiece, expand_chunk, expand_chunk]
  | group content =>
      rw [fillPiece]
      split
      · next hcontent =>
          exact
            expand_placeholder (numeral?_eq_some_iff.mpr hcontent)
              (Nat.le_refl index) hfilling
      · next hcontent =>
          by_cases hcounts :
              ∃ number, numeral? content.chars = some number ∧
                index ≤ number ∧ number < arguments.length
          · obtain ⟨number, hnumber, hfirst, hlt⟩ := hcounts
            have hne : number ≠ index := by
              rintro rfl
              exact hcontent (numeral?_eq_some_iff.mp hnumber)
            have hargument := List.getElem?_eq_getElem hlt
            rw [expand_placeholder hnumber hfirst hargument,
              expand_placeholder hnumber (by omega) hargument]
          · rw [expand_other_group, expand_other_group]
            all_goals
              intro number hnumber hfirst
              by_contra hlt
              exact hcounts ⟨number, hnumber, by omega, by omega⟩

theorem expand_flatMap_fillPiece
    {index : Nat} {filling : List Piece}
    (hfilling : arguments[index]? = some filling)
    (pieces : List Piece) :
    expand arguments index pieces =
      expand arguments (index + 1)
        (pieces.flatMap (fillPiece index filling)) := by
  induction pieces with
  | nil =>
      rw [expand, List.flatMap_nil, List.flatMap_nil, expand,
        List.flatMap_nil]
  | cons piece rest ih =>
      rw [← List.singleton_append, expand_append, expand_fillPiece hfilling,
        ih, List.flatMap_append, List.flatMap_singleton, expand_append]

/-- Behind the last argument nothing is a placeholder any more. -/
theorem expand_of_length_le
    (hlength : arguments.length ≤ first)
    (pieces : List Piece) :
    expand arguments first pieces = written pieces := by
  induction pieces with
  | nil =>
      rw [expand]
      rfl
  | cons piece rest ih =>
      have hpiece : expand arguments first [piece] = piece.chars := by
        cases piece with
        | chunk text =>
            exact expand_chunk arguments first text
        | group content =>
            exact
              expand_other_group fun number _ hfirst =>
                Nat.le_trans hlength hfirst
      rw [← List.singleton_append, expand_append, hpiece, ih]
      simp [written]

/-- Filling in the arguments that are left expands from their number on. -/
theorem fillFrom_eq_expand
    (past rest : List (List Piece))
    (pieces : List Piece) :
    fillFrom past.length (rest.map written) (written pieces) =
      expand (past ++ rest) past.length pieces := by
  induction rest generalizing past pieces with
  | nil =>
      rw [List.map_nil, fillFrom, List.append_nil,
        expand_of_length_le (Nat.le_refl _)]
  | cons argument rest ih =>
      have hargument :
          (past ++ argument :: rest)[past.length]? = some argument := by
        simp
      have hnext :=
        ih (past ++ [argument])
          (pieces.flatMap (fillPiece past.length argument))
      rw [List.length_append, List.length_singleton, List.append_assoc,
        List.singleton_append] at hnext
      rw [List.map_cons, fillFrom, replace_placeholder_written, hnext,
        ← expand_flatMap_fillPiece hargument]

/-- Arguments without braces bring in nothing to expand. -/
theorem expand_plain
    (arguments : List Plain)
    (pieces : List Piece) :
    expand (arguments.map fun argument => [.chunk argument]) 0 pieces =
      pieces.flatMap (substituted arguments) := by
  induction pieces with
  | nil =>
      rw [expand]
      rfl
  | cons piece rest ih =>
      rw [← List.singleton_append, expand_append, ih, List.flatMap_append,
        List.flatMap_singleton]
      congr 1
      cases piece with
      | chunk text =>
          exact expand_chunk _ 0 text
      | group content =>
          rw [substituted]
          split
          · next hnone =>
              apply expand_other_group
              intro number hnumber _
              rw [hnumber, Option.bind_some, List.getElem?_eq_none_iff] at hnone
              rwa [List.length_map]
          · next argument hsome =>
              obtain ⟨number, hnumber, hargument⟩ :=
                Option.bind_eq_some_iff.mp hsome
              have hchunk :
                  (arguments.map fun argument => [Piece.chunk argument])[number]? =
                    some [.chunk argument] := by
                rw [List.getElem?_map, hargument, Option.map_some]
              rw [expand_placeholder hnumber (Nat.zero_le number) hchunk,
                expand_chunk]

end Expansion

/-- The pieces as a text. -/
def textOf (pieces : List Piece) : String :=
  String.ofList (written pieces)

/--
**Filling in is expansion.**  Whatever template and arguments are made of
pieces, filling in the arguments one after another gives the expansion of the
template.  Where the arguments have no braces, each placeholder for which
there is an argument becomes that argument, and nothing else changes.
-/
theorem fill_eq_expand (template : List Piece) :
    (∀ arguments : List (List Piece),
      fill (textOf template) (arguments.map textOf) =
        String.ofList (expand arguments 0 template)) ∧
    (∀ arguments : List Plain,
      fill (textOf template)
          (arguments.map fun argument => String.ofList argument.chars) =
        String.ofList (template.flatMap (substituted arguments))) := by
  have hfill (arguments : List (List Piece)) :
      fill (textOf template) (arguments.map textOf) =
        String.ofList (expand arguments 0 template) := by
    have hchars : (arguments.map textOf).map String.toList =
        arguments.map written := by
      simp [textOf]
    rw [fill, hchars, textOf, String.toList_ofList]
    exact congrArg String.ofList (fillFrom_eq_expand [] arguments template)
  refine ⟨hfill, ?_⟩
  intro arguments
  have htexts :
      (arguments.map fun argument => String.ofList argument.chars) =
        (arguments.map fun argument => [Piece.chunk argument]).map textOf := by
    simp [textOf, written, Piece.chars]
  rw [htexts, hfill, expand_plain]

-- An argument is searched for later placeholders, and never for earlier ones.
example :
    fill "\x7b0\x7d, \x7b00\x7d, \x7b2\x7d" ["\x7b1\x7d\x7b0\x7d", "b"] =
      "b\x7b0\x7d, \x7b00\x7d, \x7b2\x7d" := by
  decide +kernel

end Template
end MethodLint
