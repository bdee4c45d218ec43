import MethodLint.Proofs.LineTable.Order

/-!
# Line tables of concatenated texts

A text that is put together from two has a table that can be read off the
tables of its parts.  The seam may fall anywhere: inside a line, just behind a
line feed, between a carriage return and its line feed, or beside an empty part.

**Argument.**  A position is a matter of the bytes before its offset only: its
line is the number of line feeds among them, and its column is
`Text.tailLength`, the number of bytes behind the last of these.  Before the
seam these bytes are the same in the whole text as in the first part.  Behind
it they are all of the first part and some of the second; line feeds are then
added up, and the tail goes back across the seam exactly if no line feed of the
second part stops it.
-/

namespace MethodLint

namespace Text

theorem bytes_append (first second : String) :
    bytes (first ++ second) = bytes first ++ bytes second := by
  simp [bytes]

section Tails

variable {bs : List UInt8} {b : UInt8}

theorem tailLength_append_lineFeed (bs : List UInt8) :
    tailLength (bs ++ [lineFeed]) = 0 := by
  simp [tailLength]

theorem tailLength_append_of_ne
    (hb : b ≠ lineFeed)
    (bs : List UInt8) :
    tailLength (bs ++ [b]) = tailLength bs + 1 := by
  simp [tailLength, hb]

theorem tailLength_le_length (bs : List UInt8) :
    tailLength bs ≤ bs.length := by
  calc
    tailLength bs ≤ bs.reverse.length := (List.takeWhile_sublist _).length_le
    _ = bs.length := List.length_reverse

/-- The last line of a text is its tail. -/
theorem lineStart_length_sub_tailLength (bs : List UInt8) :
    LineStart bs (bs.length - tailLength bs) := by
  induction bs using List.reverseRecOn with
  | nil =>
      exact lineStart_nil
  | append_singleton bs b ih =>
      rw [List.length_append, List.length_singleton]
      by_cases hb : b = lineFeed
      · subst hb
        rw [tailLength_append_lineFeed, Nat.sub_zero]
        exact lineStart_append_lineFeed bs
      · rw [tailLength_append_of_ne hb, Nat.add_sub_add_right]
        exact ih.append hb

/-- A tail ends at the last line feed of the second text, if it has one. -/
theorem tailLength_append (bs more : List UInt8) :
    tailLength (bs ++ more) =
      if lineFeeds more = 0 then
        tailLength bs + tailLength more
      else
        tailLength more := by
  -- A tail is measured from the end, so the second text grows there.
  induction more using List.reverseRecOn with
  | nil =>
      rw [List.append_nil]
      rfl
  | append_singleton more b ih =>
      rw [← List.append_assoc, lineFeeds_append]
      by_cases hb : b = lineFeed
      · subst hb
        have hfeed : lineFeeds more + lineFeeds [lineFeed] ≠ 0 :=
          Nat.succ_ne_zero _
        rw [if_neg hfeed, tailLength_append_lineFeed,
          tailLength_append_lineFeed]
      · have hnone : lineFeeds [b] = 0 :=
          lineFeeds_eq_zero_iff.mpr (by simpa using Ne.symm hb)
        have hfeeds : lineFeeds more + lineFeeds [b] = lineFeeds more := by
          rw [hnone, Nat.add_zero]
        rw [tailLength_append_of_ne hb, tailLength_append_of_ne hb, hfeeds, ih]
        by_cases hmore : lineFeeds more = 0
        · rw [if_pos hmore, if_pos hmore, Nat.add_assoc]
        · rw [if_neg hmore, if_neg hmore]

end Tails

end Text

namespace LineTable

section Seam

variable {bs more : List UInt8} {offset : UInt32}

/-- The column of an offset is the length of the tail before it. -/
theorem toNat_character_position
    (hfits : bs.length < UInt32.size)
    (offset : UInt32) :
    ((ofBytes bs).position offset).character.toNat =
      Text.tailLength (bs.take (min offset.toNat bs.length)) := by
  obtain ⟨start, hstart, hcharacter⟩ :=
    exists_toNat_character_position hfits offset
  have hvalue :=
    hstart.unique (Text.lineStart_length_sub_tailLength _)
  have htail :=
    Text.tailLength_le_length (bs.take (min offset.toNat bs.length))
  rw [List.length_take] at hvalue htail
  omega

theorem take_end
    (hfits : bs.length < UInt32.size) :
    bs.take (min bs.length.toUInt32.toNat bs.length) = bs := by
  have hend : bs.length.toUInt32.toNat = bs.length :=
    UInt32.toNat_ofNat_of_lt' hfits
  rw [hend, Nat.min_self, List.take_length]

/-- The end of a text is on the line behind all its line feeds. -/
theorem line_position_end
    (hfits : bs.length < UInt32.size) :
    ((ofBytes bs).position bs.length.toUInt32).line.toNat =
      Text.lineFeeds bs := by
  rw [toNat_line_position hfits, take_end hfits]

theorem character_position_end
    (hfits : bs.length < UInt32.size) :
    ((ofBytes bs).position bs.length.toUInt32).character.toNat =
      Text.tailLength bs := by
  rw [toNat_character_position hfits, take_end hfits]

theorem lengths_lt_of_append
    (hfits : (bs ++ more).length < UInt32.size) :
    bs.length < UInt32.size ∧ more.length < UInt32.size := by
  rw [List.length_append] at hfits
  constructor <;> omega

theorem lineCount_append (bs more : List UInt8) :
    (ofBytes (bs ++ more)).lineCount + 1 =
      (ofBytes bs).lineCount + (ofBytes more).lineCount := by
  rw [lineCount_ofBytes, lineCount_ofBytes, lineCount_ofBytes,
    Text.lineFeeds_append]
  omega

/-- A text has the same positions whatever is put behind it. -/
theorem position_append_left
    (hfits : (bs ++ more).length < UInt32.size)
    (hwithin : offset.toNat ≤ bs.length) :
    (ofBytes (bs ++ more)).position offset = (ofBytes bs).position offset := by
  have hfirst := (lengths_lt_of_append hfits).1
  have hbefore :
      (bs ++ more).take (min offset.toNat (bs ++ more).length) =
        bs.take (min offset.toNat bs.length) := by
    rw [List.length_append, Nat.min_eq_left (by omega), Nat.min_eq_left hwithin,
      List.take_append_of_le_length hwithin]
  apply Position.ext_toNat
  · rw [toNat_line_position hfits, toNat_line_position hfirst, hbefore]
  · rw [toNat_character_position hfits, toNat_character_position hfirst, hbefore]

/-- An offset of the second text, counted from the start of the first one. -/
theorem toNat_seam_add
    (hfits : (bs ++ more).length < UInt32.size)
    (hwithin : offset.toNat ≤ more.length) :
    (bs.length.toUInt32 + offset).toNat = bs.length + offset.toNat := by
  have hseam : bs.length.toUInt32.toNat = bs.length :=
    UInt32.toNat_ofNat_of_lt' (lengths_lt_of_append hfits).1
  rw [UInt32.toNat_add, hseam]
  rw [List.length_append] at hfits
  exact Nat.mod_eq_of_lt (Nat.lt_of_le_of_lt (by omega) hfits)

/-- Before an offset of the second text stand the first one and a part of it. -/
theorem take_seam_add
    (hfits : (bs ++ more).length < UInt32.size)
    (hwithin : offset.toNat ≤ more.length) :
    (bs ++ more).take
        (min (bs.length.toUInt32 + offset).toNat (bs ++ more).length) =
      bs ++ more.take (min offset.toNat more.length) := by
  rw [toNat_seam_add hfits hwithin, List.length_append,
    Nat.min_eq_left (by omega), Nat.min_eq_left hwithin,
    List.take_length_add_append]

/-- Behind the seam the lines of both parts are added up. -/
theorem line_position_append_right
    (hfits : (bs ++ more).length < UInt32.size)
    (hwithin : offset.toNat ≤ more.length) :
    ((ofBytes (bs ++ more)).position
        (bs.length.toUInt32 + offset)).line.toNat =
      ((ofBytes bs).position bs.length.toUInt32).line.toNat +
        ((ofBytes more).position offset).line.toNat := by
  obtain ⟨hfirst, hsecond⟩ := lengths_lt_of_append hfits
  rw [toNat_line_position hfits, take_seam_add hfits hwithin,
    Text.lineFeeds_append, line_position_end hfirst,
    toNat_line_position hsecond]

/-- Only a column of the line that crosses the seam is moved. -/
theorem character_position_append_right
    (hfits : (bs ++ more).length < UInt32.size)
    (hwithin : offset.toNat ≤ more.length) :
    ((ofBytes (bs ++ more)).position
        (bs.length.toUInt32 + offset)).character.toNat =
      if ((ofBytes more).position offset).line = 0 then
        ((ofBytes bs).position bs.length.toUInt32).character.toNat +
          ((ofBytes more).position offset).character.toNat
      else
        ((ofBytes more).position offset).character.toNat := by
  obtain ⟨hfirst, hsecond⟩ := lengths_lt_of_append hfits
  have hcrosses :
      ((ofBytes more).position offset).line = 0 ↔
        Text.lineFeeds (more.take (min offset.toNat more.length)) = 0 := by
    rw [← UInt32.toNat_inj, toNat_line_position hsecond]
    rfl
  rw [toNat_character_position hfits, take_seam_add hfits hwithin,
    Text.tailLength_append, character_position_end hfirst,
    toNat_character_position hsecond]
  simp only [hcrosses]

/--
**Tables compose.**  Let two texts be put together whose joint length is below
the greatest word.  The seam stands behind all line feeds of the first text, as
far from the last of them as its tail is long.  The line at the seam is shared,
so the whole has one line less than its parts.  Up to the seam, every offset has
the position that it has in the first text.  Behind it, the line of an offset is
the line of the seam and its line in the second text together; on the line that
crosses the seam the column of the seam is added to its column, and on every
later line its column stays as it is.  No sum exceeds a word.
-/
theorem ofText_append_composes
    (first second : String)
    (hfits : (Text.bytes (first ++ second)).length < UInt32.size - 1) :
    let whole := ofText (first ++ second)
    let length := (Text.bytes first).length
    let seam := (ofText first).position length.toUInt32
    seam.line.toNat = Text.lineFeeds (Text.bytes first) ∧
    seam.character.toNat = Text.tailLength (Text.bytes first) ∧
    whole.lineCount + 1 =
      (ofText first).lineCount + (ofText second).lineCount ∧
    (∀ offset : UInt32, offset.toNat ≤ length →
      whole.position offset = (ofText first).position offset) ∧
    (∀ offset : UInt32, offset.toNat ≤ (Text.bytes second).length →
      let place := (ofText second).position offset
      let joined := whole.position (length.toUInt32 + offset)
      (length.toUInt32 + offset).toNat = length + offset.toNat ∧
      joined.line.toNat = seam.line.toNat + place.line.toNat ∧
      joined.character.toNat =
        if place.line = 0 then
          seam.character.toNat + place.character.toNat
        else
          place.character.toNat) := by
  intro whole length seam
  have hwhole : whole = ofBytes (Text.bytes first ++ Text.bytes second) :=
    congrArg ofBytes (Text.bytes_append first second)
  have hword :
      (Text.bytes first ++ Text.bytes second).length < UInt32.size := by
    rw [← Text.bytes_append]
    exact Nat.lt_of_lt_pred hfits
  have hfirst := (lengths_lt_of_append hword).1
  rw [hwhole]
  refine
    ⟨line_position_end hfirst, character_position_end hfirst,
      lineCount_append _ _, ?_, ?_⟩
  · intro offset hwithin
    exact position_append_left hword hwithin
  · intro offset hwithin
    exact
      ⟨toNat_seam_add hword hwithin,
        line_position_append_right hword hwithin,
        character_position_append_right hword hwithin⟩

/--
The seam falls between a carriage return and its line feed, behind a character
of two bytes.  The line feed stands on the second line, where the first text
ends, and the last byte of the whole on a third one.
-/
theorem ofText_append_composes_split_ending :
    let first := "é\n;\r"
    let second := "\nb"
    let whole := ofText (first ++ second)
    (Text.bytes (first ++ second)).length < UInt32.size - 1 ∧
    whole.lineCount = 3 ∧
    whole.position 3 = ⟨1, 0⟩ ∧
    whole.position 5 = ⟨1, 2⟩ ∧
    whole.position 6 = ⟨2, 0⟩ := by
  intro first second whole
  have hfirst : Text.bytes first = [0xC3, 0xA9, 10, 59, 13] := by
    decide +kernel
  have hsecond : Text.bytes second = [10, 98] := by
    decide +kernel
  have hfits : (Text.bytes (first ++ second)).length < UInt32.size - 1 := by
    rw [Text.bytes_append, hfirst, hsecond]
    decide
  obtain ⟨-, -, hcount, hbefore, hbehind⟩ :=
    ofText_append_composes first second hfits
  have hone : ofText first = ofBytes [0xC3, 0xA9, 10, 59, 13] :=
    congrArg ofBytes hfirst
  have htwo : ofText second = ofBytes [10, 98] :=
    congrArg ofBytes hsecond
  rw [hone, htwo] at hcount
  rw [hone, hfirst] at hbefore
  rw [hone, htwo, hfirst, hsecond] at hbehind
  obtain ⟨-, hsame, hmoved⟩ := hbehind 0 (by decide)
  obtain ⟨-, hnext, hkept⟩ := hbehind 1 (by decide)
  exact
    ⟨hfits, Nat.succ.inj hcount, hbefore 3 (by decide),
      Position.ext_toNat hsame hmoved, Position.ext_toNat hnext hkept⟩

end Seam

end LineTable

end MethodLint
