import MethodLint.Proofs.LineTable.Positions

/-!
# Offsets and positions are in the same order

Within a text, offsets and positions correspond one to one, and the
correspondence keeps the order: bytes are ordered by their offsets, positions
by line and then by column.

**Specification.**  `Position.Before` is the order of reading.  `Text.lines`
cuts a text into lines, each with the line feed that ends it; a line without
one can only be the last.

**Argument.**  Between two offsets there is a line feed, which puts the second
on a later line, or there is none, and then both are columns of one line.  For
the other direction a line and a column in it are turned into an offset: the
length of the lines before, and then the column.
-/

namespace MethodLint

/-- The order of reading: by line, and within a line by column. -/
def Position.Before (first second : Position) : Prop :=
  Prod.Lex (· < ·) (· < ·)
    (first.line, first.character) (second.line, second.character)

theorem Position.before_iff {first second : Position} :
    first.Before second ↔
      first.line.toNat < second.line.toNat ∨
        first.line.toNat = second.line.toNat ∧
          first.character.toNat < second.character.toNat := by
  simp only [Position.Before, Prod.lex_def, UInt32.lt_iff_toNat_lt,
    UInt32.toNat_inj]

theorem Position.not_before_self (place : Position) : ¬ place.Before place := by
  rw [Position.before_iff]
  omega

namespace Text

/-- The lines of a text, each with its line feed; the last one has none. -/
def lines : List UInt8 → List (List UInt8)
  | [] => [[]]
  | b :: rest =>
      if b = lineFeed then
        [b] :: lines rest
      else
        (lines rest).modifyHead (b :: ·)

section Lines

variable {bs more line : List UInt8} {before after : List (List UInt8)}

/-- The line has a line feed at its end and no other. -/
def Ended (line : List UInt8) : Prop :=
  ∃ body, lineFeed ∉ body ∧ line = body ++ [lineFeed]

theorem LineStart.append_of_notMem
    {start : Nat}
    (hstart : LineStart bs start)
    (hmore : lineFeed ∉ more) :
    LineStart (bs ++ more) start := by
  induction more generalizing bs with
  | nil =>
      rwa [List.append_nil]
  | cons b more ih =>
      rw [List.mem_cons, not_or] at hmore
      rw [List.append_cons]
      exact ih (hstart.append (Ne.symm hmore.1)) hmore.2

theorem lineFeeds_append (bs more : List UInt8) :
    lineFeeds (bs ++ more) = lineFeeds bs + lineFeeds more :=
  List.count_append

theorem lineFeeds_eq_zero_iff : lineFeeds bs = 0 ↔ lineFeed ∉ bs :=
  List.count_eq_zero

/-- A text is some lines that end with a line feed, and a last one without. -/
theorem exists_lines_eq (bs : List UInt8) :
    ∃ ended last,
      lines bs = ended ++ [last] ∧
      (∀ line ∈ ended, Ended line) ∧
      lineFeed ∉ last := by
  induction bs with
  | nil =>
      exact ⟨[], [], rfl, by simp, by simp⟩
  | cons b rest ih =>
      obtain ⟨ended, last, hlines, hended, hlast⟩ := ih
      by_cases hb : b = lineFeed
      · subst hb
        refine ⟨[lineFeed] :: ended, last, ?_, ?_, hlast⟩
        · rw [lines, if_pos rfl, hlines, List.cons_append]
        · rw [List.forall_mem_cons]
          exact ⟨⟨[], by simp, rfl⟩, hended⟩
      · rw [lines, if_neg hb, hlines]
        cases ended with
        | nil =>
            refine ⟨[], b :: last, rfl, by simp, ?_⟩
            rw [List.mem_cons, not_or]
            exact ⟨Ne.symm hb, hlast⟩
        | cons first ended =>
            rw [List.forall_mem_cons] at hended
            obtain ⟨⟨body, hbody, rfl⟩, hothers⟩ := hended
            refine ⟨(b :: body ++ [lineFeed]) :: ended, last, rfl, ?_, hlast⟩
            rw [List.forall_mem_cons]
            refine ⟨⟨b :: body, ?_, rfl⟩, hothers⟩
            rw [List.mem_cons, not_or]
            exact ⟨Ne.symm hb, hbody⟩

theorem lines_ne_nil (bs : List UInt8) : lines bs ≠ [] := by
  obtain ⟨ended, last, hlines, -⟩ := exists_lines_eq bs
  rw [hlines]
  exact List.append_ne_nil_of_right_ne_nil _ (List.cons_ne_nil _ _)

theorem flatten_lines (bs : List UInt8) : (lines bs).flatten = bs := by
  induction bs with
  | nil =>
      rfl
  | cons b rest ih =>
      by_cases hb : b = lineFeed
      · rw [lines, if_pos hb, List.flatten_cons, ih, List.singleton_append]
      · obtain ⟨first, others, hlines⟩ :=
          List.exists_cons_of_ne_nil (lines_ne_nil rest)
        rw [hlines] at ih
        rw [lines, if_neg hb, hlines, List.modifyHead_cons, List.flatten_cons,
          List.cons_append, ← List.flatten_cons, ih]

theorem length_lines (bs : List UInt8) :
    (lines bs).length = 1 + lineFeeds bs := by
  induction bs with
  | nil =>
      rfl
  | cons b rest ih =>
      by_cases hb : b = lineFeed
      · subst hb
        rw [lines, if_pos rfl, List.length_cons, ih, lineFeeds, lineFeeds,
          List.count_cons_self, Nat.add_assoc]
      · rw [lines, if_neg hb, List.length_modifyHead, ih, lineFeeds, lineFeeds,
          List.count_cons_of_ne hb]

/-- Every line but the last ends with its line feed. -/
theorem ended_of_lines_eq
    (hlines : lines bs = before ++ after)
    (hafter : after ≠ []) :
    ∀ line ∈ before, Ended line := by
  obtain ⟨ended, last, hcut, hended, -⟩ := exists_lines_eq bs
  rw [hcut, ← List.dropLast_concat_getLast hafter, ← List.append_assoc] at hlines
  obtain ⟨rfl, -⟩ := List.append_inj' hlines rfl
  intro line hline
  exact hended line (List.mem_append_left _ hline)

theorem notMem_of_lines_eq
    (hlines : lines bs = before ++ [line]) :
    lineFeed ∉ line := by
  obtain ⟨ended, last, hcut, -, hlast⟩ := exists_lines_eq bs
  rw [hcut] at hlines
  obtain ⟨-, hline⟩ := List.append_inj' hlines rfl
  rw [← List.singleton_inj.mp hline]
  exact hlast

/-- Lines that end with a line feed have one each, and the next one starts there. -/
theorem lineFeeds_flatten
    (hended : ∀ line ∈ before, Ended line) :
    lineFeeds before.flatten = before.length ∧
      LineStart before.flatten before.flatten.length := by
  induction before using List.reverseRecOn with
  | nil =>
      exact ⟨rfl, lineStart_nil⟩
  | append_singleton before line ih =>
      rw [List.forall_mem_append, List.forall_mem_singleton] at hended
      obtain ⟨hothers, body, hbody, rfl⟩ := hended
      have hbodyFeeds := lineFeeds_eq_zero_iff.mpr hbody
      rw [List.flatten_append, List.flatten_singleton, ← List.append_assoc]
      constructor
      · rw [lineFeeds_append, lineFeeds_append, (ih hothers).1, hbodyFeeds,
          List.length_append]
        rfl
      · rw [List.length_append, List.length_singleton]
        exact lineStart_append_lineFeed (before.flatten ++ body)

/--
The column is one of the line: a byte of it stands there, the line feed
included, or it is the end of the last line.
-/
def HasColumn (line : List UInt8) (after : List (List UInt8)) (column : Nat) : Prop :=
  column < line.length ∨ after = [] ∧ column ≤ line.length

theorem HasColumn.le {column : Nat}
    (hcolumn : HasColumn line after column) :
    column ≤ line.length := by
  rcases hcolumn with hlt | ⟨-, hle⟩
  · exact Nat.le_of_lt hlt
  · exact hle

theorem eq_append_of_lines_eq
    (hlines : lines bs = before ++ line :: after) :
    bs = before.flatten ++ (line ++ after.flatten) := by
  rw [← flatten_lines bs, hlines, List.flatten_append, List.flatten_cons]

/-- A column of a line stands at an offset within the text. -/
theorem offset_le_of_lines_eq
    {column : Nat}
    (hlines : lines bs = before ++ line :: after)
    (hcolumn : HasColumn line after column) :
    before.flatten.length + column ≤ bs.length := by
  have hle := hcolumn.le
  rw [eq_append_of_lines_eq hlines, List.length_append, List.length_append]
  omega

/-- No line feed stands before a column of a line. -/
theorem notMem_take_of_hasColumn
    {column : Nat}
    (hlines : lines bs = before ++ line :: after)
    (hcolumn : HasColumn line after column) :
    lineFeed ∉ line.take column := by
  by_cases hafter : after = []
  · subst hafter
    intro hmem
    exact notMem_of_lines_eq hlines (List.mem_of_mem_take hmem)
  · have hshort : column < line.length :=
      hcolumn.resolve_right fun hlast => hafter hlast.1
    rw [List.append_cons] at hlines
    obtain ⟨body, hbody, rfl⟩ :=
      ended_of_lines_eq hlines hafter line (by simp)
    rw [List.length_append, List.length_singleton] at hshort
    rw [List.take_append_of_le_length (by omega)]
    intro hmem
    exact hbody (List.mem_of_mem_take hmem)

/-- Up to a column of a line, the text is the lines before and what is before it. -/
theorem take_of_lines_eq
    {column : Nat}
    (hlines : lines bs = before ++ line :: after)
    (hcolumn : HasColumn line after column) :
    bs.take (before.flatten.length + column) =
      before.flatten ++ line.take column := by
  rw [eq_append_of_lines_eq hlines, List.take_length_add_append,
    List.take_append_of_le_length hcolumn.le]

/-- A line with what stands before and behind it, by the number of the line. -/
theorem exists_cut_iff
    {lines : List (List UInt8)} {number column : Nat} :
    (∃ before line after,
      lines = before ++ line :: after ∧
      number = before.length ∧
      HasColumn line after column) ↔
      ∃ line,
        lines[number]? = some line ∧
        (column < line.length ∨
          number + 1 = lines.length ∧ column ≤ line.length) := by
  constructor
  · rintro ⟨before, line, after, rfl, rfl, hcolumn⟩
    refine ⟨line, by simp, hcolumn.imp_right ?_⟩
    rintro ⟨rfl, hle⟩
    exact ⟨by simp, hle⟩
  · rintro ⟨line, hline, hcolumn⟩
    obtain ⟨hnumber, rfl⟩ := List.getElem?_eq_some_iff.mp hline
    refine
      ⟨lines.take number, lines[number], lines.drop (number + 1), ?_, ?_,
        hcolumn.imp_right ?_⟩
    · rw [List.getElem_cons_drop, List.take_append_drop]
    · rw [List.length_take, Nat.min_eq_left (Nat.le_of_lt hnumber)]
    · rintro ⟨hlast, hle⟩
      exact ⟨List.drop_eq_nil_of_le (Nat.le_of_eq hlast.symm), hle⟩

/-- Every offset within the text is a column of one of the lines. -/
theorem exists_hasColumn
    {lines : List (List UInt8)}
    (hlines : lines ≠ [])
    (offset : Nat)
    (hoffset : offset ≤ lines.flatten.length) :
    ∃ before line after column,
      lines = before ++ line :: after ∧
      offset = before.flatten.length + column ∧
      HasColumn line after column := by
  induction lines generalizing offset with
  | nil =>
      exact absurd rfl hlines
  | cons line after ih =>
      rw [List.flatten_cons, List.length_append] at hoffset
      by_cases hshort : offset < line.length
      · exact ⟨[], line, after, offset, rfl, by simp, .inl hshort⟩
      · by_cases hafter : after = []
        · subst hafter
          have hlast : offset ≤ line.length := by
            simpa using hoffset
          exact ⟨[], line, [], offset, rfl, by simp, .inr ⟨rfl, hlast⟩⟩
        · obtain ⟨before, next, rest, column, hsplit, hnext, hcolumn⟩ :=
            ih hafter (offset - line.length) (by omega)
          refine ⟨line :: before, next, rest, column, ?_, ?_, hcolumn⟩
          · rw [hsplit, List.cons_append]
          · rw [List.flatten_cons, List.length_append]
            omega

end Lines

end Text

namespace LineTable

section Order

variable {bs : List UInt8} {first second : UInt32}

/-- An earlier offset has a position that is read earlier. -/
theorem position_before_of_lt
    (hfits : bs.length < UInt32.size)
    (hlt : first < second)
    (hwithin : second.toNat ≤ bs.length) :
    ((ofBytes bs).position first).Before ((ofBytes bs).position second) := by
  rw [UInt32.lt_iff_toNat_lt] at hlt
  have hfirst : min first.toNat bs.length = first.toNat := by
    omega
  have hsecond : min second.toNat bs.length = second.toNat :=
    Nat.min_eq_left hwithin
  obtain ⟨start, hstart, hcharacter⟩ :=
    exists_toNat_character_position hfits first
  obtain ⟨other, hother, hcharacter'⟩ :=
    exists_toNat_character_position hfits second
  -- The second offset is reached from the first one over the bytes between.
  have hbetween :
      bs.take second.toNat =
        bs.take first.toNat ++
          (bs.take second.toNat).drop first.toNat := by
    conv_lhs => rw [← List.take_append_drop first.toNat (bs.take second.toNat)]
    rw [List.take_take, Nat.min_eq_left (Nat.le_of_lt hlt)]
  have hfeeds := congrArg Text.lineFeeds hbetween
  rw [Text.lineFeeds_append] at hfeeds
  rw [Position.before_iff, toNat_line_position hfits, toNat_line_position hfits,
    hcharacter, hcharacter', hfirst, hsecond]
  rw [hfirst] at hstart
  rw [hsecond] at hother
  by_cases hsame :
      Text.lineFeeds ((bs.take second.toNat).drop first.toNat) = 0
  · right
    have hcontinued :=
      hstart.append_of_notMem (Text.lineFeeds_eq_zero_iff.mp hsame)
    rw [← hbetween] at hcontinued
    obtain rfl := hcontinued.unique hother
    have hle := hstart.le
    rw [List.length_take] at hle
    omega
  · left
    omega

theorem lt_iff_position_before
    (hfits : bs.length < UInt32.size)
    (hfirst : first.toNat ≤ bs.length)
    (hsecond : second.toNat ≤ bs.length) :
    first < second ↔
      ((ofBytes bs).position first).Before ((ofBytes bs).position second) := by
  constructor
  · intro hlt
    exact position_before_of_lt hfits hlt hsecond
  · intro hbefore
    rcases Nat.lt_trichotomy first.toNat second.toNat with hlt | heq | hgt
    · exact hlt
    · obtain rfl := UInt32.toNat_inj.mp heq
      exact absurd hbefore (Position.not_before_self _)
    · have hafter := position_before_of_lt hfits hgt hfirst
      rw [Position.before_iff] at hbefore hafter
      omega

theorem eq_of_position_eq
    (hfits : bs.length < UInt32.size)
    (hfirst : first.toNat ≤ bs.length)
    (hsecond : second.toNat ≤ bs.length)
    (hsame : (ofBytes bs).position first = (ofBytes bs).position second) :
    first = second := by
  have hnotBefore : ¬ first < second := by
    rw [lt_iff_position_before hfits hfirst hsecond, hsame]
    exact Position.not_before_self _
  have hnotAfter : ¬ second < first := by
    rw [lt_iff_position_before hfits hsecond hfirst, hsame]
    exact Position.not_before_self _
  rw [UInt32.lt_iff_toNat_lt] at hnotBefore hnotAfter
  exact UInt32.toNat_inj.mp (by omega)

/-- A column of a line is the position of the offset that it stands at. -/
theorem position_of_lines_eq
    {line : List UInt8} {before after : List (List UInt8)} {column : Nat}
    {offset : UInt32}
    (hfits : bs.length < UInt32.size)
    (hlines : Text.lines bs = before ++ line :: after)
    (hcolumn : Text.HasColumn line after column)
    (hoffset : offset.toNat = before.flatten.length + column) :
    ((ofBytes bs).position offset).line.toNat = before.length ∧
      ((ofBytes bs).position offset).character.toNat = column := by
  have htake := Text.take_of_lines_eq hlines hcolumn
  have hnone := Text.notMem_take_of_hasColumn hlines hcolumn
  obtain ⟨hfeeds, hstart⟩ :=
    Text.lineFeeds_flatten
      (Text.ended_of_lines_eq hlines (List.cons_ne_nil line after))
  have hwithin : min offset.toNat bs.length = before.flatten.length + column := by
    rw [hoffset]
    exact Nat.min_eq_left (Text.offset_le_of_lines_eq hlines hcolumn)
  constructor
  · rw [toNat_line_position hfits, hwithin, htake, Text.lineFeeds_append, hfeeds,
      Text.lineFeeds_eq_zero_iff.mpr hnone, Nat.add_zero]
  · obtain ⟨start, hother, hcharacter⟩ :=
      exists_toNat_character_position hfits offset
    rw [hwithin, htake] at hother
    obtain rfl := hother.unique (hstart.append_of_notMem hnone)
    rw [hcharacter, hwithin, Nat.add_sub_cancel_left]

/-- The positions of a text are the columns of its lines. -/
theorem exists_position_eq_iff
    (hfits : bs.length < UInt32.size)
    (place : Position) :
    (∃ offset : UInt32,
      offset.toNat ≤ bs.length ∧ (ofBytes bs).position offset = place) ↔
      ∃ before line after,
        Text.lines bs = before ++ line :: after ∧
        place.line.toNat = before.length ∧
        Text.HasColumn line after place.character.toNat := by
  constructor
  · rintro ⟨offset, hwithin, rfl⟩
    obtain ⟨before, line, after, column, hlines, hoffset, hcolumn⟩ :=
      Text.exists_hasColumn (Text.lines_ne_nil bs) offset.toNat
        (by rwa [Text.flatten_lines])
    obtain ⟨hline, hcharacter⟩ :=
      position_of_lines_eq hfits hlines hcolumn hoffset
    exact ⟨before, line, after, hlines, hline, by rwa [hcharacter]⟩
  · rintro ⟨before, line, after, hlines, hline, hcolumn⟩
    have hle := Text.offset_le_of_lines_eq hlines hcolumn
    have hvalue :
        (before.flatten.length + place.character.toNat).toUInt32.toNat =
          before.flatten.length + place.character.toNat :=
      UInt32.toNat_ofNat_of_lt' (by omega)
    obtain ⟨hline', hcharacter⟩ :=
      position_of_lines_eq hfits hlines hcolumn hvalue
    exact
      ⟨_, hvalue.symm ▸ hle,
        Position.ext_toNat (hline'.trans hline.symm) hcharacter⟩

/-- An offset beyond the end counts as the end. -/
theorem position_of_length_le
    {offset : UInt32}
    (hfits : bs.length < UInt32.size)
    (hbeyond : bs.length ≤ offset.toNat) :
    (ofBytes bs).position offset =
      (ofBytes bs).position bs.length.toUInt32 := by
  have hvalue : bs.length.toUInt32.toNat = bs.length :=
    UInt32.toNat_ofNat_of_lt' hfits
  have hend :
      min offset (ofBytes bs).length =
        min bs.length.toUInt32 (ofBytes bs).length := by
    rw [← UInt32.toNat_inj, toNat_within_ofBytes hfits,
      toNat_within_ofBytes hfits, hvalue]
    omega
  rw [position, position, hend]

/--
**Offsets and positions correspond in order.**  In a text whose length is below
the greatest word, one offset comes before another exactly if its position is
read before the other's, so no two share a position.  The positions that occur
are the columns of the lines: of each line but the last, those of its bytes, the
line feed included; of the last line also the end.  All offsets beyond the end
have the position of the end.
-/
theorem position_ordered_onto_lines
    (text : String)
    (hfits : (Text.bytes text).length < UInt32.size - 1) :
    let bs := Text.bytes text
    let table := ofText text
    (∀ first second : UInt32,
      first.toNat ≤ bs.length → second.toNat ≤ bs.length →
        (first < second ↔
          (table.position first).Before (table.position second))) ∧
    (∀ first second : UInt32,
      first.toNat ≤ bs.length → second.toNat ≤ bs.length →
        table.position first = table.position second → first = second) ∧
    (∀ place : Position,
      (∃ offset : UInt32,
        offset.toNat ≤ bs.length ∧ table.position offset = place) ↔
        place.line.toNat < table.lineCount ∧
        ∃ line,
          (Text.lines bs)[place.line.toNat]? = some line ∧
          (place.character.toNat < line.length ∨
            place.line.toNat + 1 = table.lineCount ∧
              place.character.toNat ≤ line.length)) ∧
    (∀ offset : UInt32,
      bs.length ≤ offset.toNat →
        table.position offset = table.position bs.length.toUInt32) := by
  intro bs table
  have hword : bs.length < UInt32.size := Nat.lt_of_lt_pred hfits
  refine ⟨?_, ?_, ?_, ?_⟩
  · intro first second hfirst hsecond
    exact lt_iff_position_before hword hfirst hsecond
  · intro first second hfirst hsecond hsame
    exact eq_of_position_eq hword hfirst hsecond hsame
  · intro place
    have hcount : (Text.lines bs).length = table.lineCount := by
      rw [Text.length_lines]
      exact (lineCount_ofBytes bs).symm
    rw [← hcount]
    refine (exists_position_eq_iff hword place).trans ?_
    rw [Text.exists_cut_iff]
    constructor
    · rintro ⟨line, hline, hcolumn⟩
      exact ⟨(List.getElem?_eq_some_iff.mp hline).1, line, hline, hcolumn⟩
    · rintro ⟨-, hcolumn⟩
      exact hcolumn
  · intro offset hbeyond
    exact position_of_length_le hword hbeyond

/--
The first line takes three bytes with its line feed and the second is empty but
for its own.  The end of the text is a column of the last line; the first line
has no fourth column, since behind its line feed the second one starts.
-/
theorem position_ordered_onto_lines_empty_line :
    let text := "é\n\nb"
    let table := ofText text
    (Text.bytes text).length < UInt32.size - 1 ∧
    (table.position 2).Before (table.position 3) ∧
    (∃ offset : UInt32,
      offset.toNat ≤ (Text.bytes text).length ∧
        table.position offset = ⟨2, 1⟩) ∧
    ¬ (∃ offset : UInt32,
      offset.toNat ≤ (Text.bytes text).length ∧
        table.position offset = ⟨0, 3⟩) ∧
    table.position 100 = table.position 5 := by
  intro text table
  have hbytes : Text.bytes text = [0xC3, 0xA9, 10, 10, 98] := by
    decide +kernel
  have hfits : (Text.bytes text).length < UInt32.size - 1 := by
    rw [hbytes]
    decide
  obtain ⟨horder, -, honto, hbeyond⟩ := position_ordered_onto_lines text hfits
  have hcount : table.lineCount = 3 := by
    change (ofBytes (Text.bytes text)).lineCount = 3
    rw [hbytes]
    decide
  refine ⟨hfits, ?_, ?_, ?_, ?_⟩
  · exact (horder 2 3 (by rw [hbytes]; decide) (by rw [hbytes]; decide)).mp (by decide)
  · rw [honto, hcount, hbytes]
    exact ⟨by decide, [98], by decide, .inr ⟨by decide, by decide⟩⟩
  · rw [honto, hcount, hbytes]
    rintro ⟨-, line, hline, hcolumn⟩
    obtain rfl : [0xC3, 0xA9, 10] = line := Option.some.inj hline
    revert hcolumn
    decide
  · have hend := hbeyond 100 (by rw [hbytes]; decide)
    rw [hbytes] at hend
    exact hend

end Order

end LineTable

end MethodLint
