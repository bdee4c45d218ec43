import MethodLint.Diagnostic.Basic
import Mathlib.Data.List.Induction

/-!
# Positions are exact

A line table keeps the starts of lines as words and finds the line of an
offset among them.  Here its answers are compared with the text itself.

**Specification.**  The line of an offset is the number of line feeds before
it.  `Text.LineStart` says where that line starts: just after the last line
feed, or at the beginning if there is none.

**Argument.**  A text is cut at the offset.  The lines of the first part start
at or before the offset and those of the second part behind it, so the starts
of a text are cut at the same point, and the last start of the first part is
the one that counts.  As long as the length of the text fits in a word, the
starts increase strictly; `LineTable.SearchEnds` therefore leaves a search
among them one place to end, whichever way it goes.
-/

namespace MethodLint

theorem Position.ext_toNat
    {first second : Position}
    (hline : first.line.toNat = second.line.toNat)
    (hcharacter : first.character.toNat = second.character.toNat) :
    first = second := by
  rcases first with ⟨line, character⟩
  rcases second with ⟨line', character'⟩
  exact
    congrArg₂ Position.mk
      (UInt32.toNat_inj.mp hline) (UInt32.toNat_inj.mp hcharacter)

namespace Text

/-- The last line of a text starts at `start`. -/
structure LineStart (bs : List UInt8) (start : Nat) : Prop where
  le : start ≤ bs.length
  afterFeed : start ≠ 0 → bs[start - 1]? = some lineFeed
  noFeed : ∀ b ∈ bs.drop start, b ≠ lineFeed

theorem lineStart_nil : LineStart [] 0 where
  le := Nat.le_refl 0
  afterFeed := fun hpos => absurd rfl hpos
  noFeed := by simp

/-- A line feed opens a new line, which is empty so far. -/
theorem lineStart_append_lineFeed (bs : List UInt8) :
    LineStart (bs ++ [lineFeed]) (bs.length + 1) where
  le := by simp
  afterFeed := by simp
  noFeed := by simp

/-- Any other byte goes on with the line. -/
theorem LineStart.append
    {bs : List UInt8} {start : Nat} {b : UInt8}
    (hstart : LineStart bs start)
    (hb : b ≠ lineFeed) :
    LineStart (bs ++ [b]) start where
  le := by
    rw [List.length_append]
    exact Nat.le_add_right_of_le hstart.le
  afterFeed := by
    intro hpos
    have hle := hstart.le
    rw [List.getElem?_append_left (by omega)]
    exact hstart.afterFeed hpos
  noFeed := by
    rw [List.drop_append_of_le_length hstart.le]
    intro other hother
    rcases List.mem_append.mp hother with hold | hnew
    · exact hstart.noFeed other hold
    · rw [List.mem_singleton.mp hnew]
      exact hb

theorem LineStart.le_of_lineStart
    {bs : List UInt8} {start other : Nat}
    (hstart : LineStart bs start)
    (hother : LineStart bs other) :
    start ≤ other := by
  by_contra hgt
  have hfeed := hstart.afterFeed (by omega)
  have hinside : lineFeed ∈ bs.drop other := by
    apply List.mem_of_getElem? (i := start - 1 - other)
    rw [List.getElem?_drop, show other + (start - 1 - other) = start - 1 by omega]
    exact hfeed
  exact hother.noFeed lineFeed hinside rfl

/-- There is one place where the last line of a text starts. -/
theorem LineStart.unique
    {bs : List UInt8} {start other : Nat}
    (hstart : LineStart bs start)
    (hother : LineStart bs other) :
    start = other :=
  Nat.le_antisymm
    (hstart.le_of_lineStart hother) (hother.le_of_lineStart hstart)

theorem lineFeeds_le_length (bs : List UInt8) : lineFeeds bs ≤ bs.length :=
  List.count_le_length

end Text

namespace LineTable

section Starts

variable {offset : Nat} {bs : List UInt8} {start : UInt32}

theorem startsAfter_lineFeed (offset : Nat) (rest : List UInt8) :
    startsAfter offset (Text.lineFeed :: rest) =
      (offset + 1).toUInt32 :: startsAfter (offset + 1) rest :=
  if_pos rfl

theorem startsAfter_of_ne
    {b : UInt8}
    (hb : b ≠ Text.lineFeed)
    (offset : Nat)
    (rest : List UInt8) :
    startsAfter offset (b :: rest) = startsAfter (offset + 1) rest :=
  if_neg hb

theorem startsAfter_append (offset : Nat) (xs ys : List UInt8) :
    startsAfter offset (xs ++ ys) =
      startsAfter offset xs ++ startsAfter (offset + xs.length) ys := by
  induction xs generalizing offset with
  | nil =>
      rfl
  | cons b rest ih =>
      have hrest := ih (offset + 1)
      rw [Nat.add_right_comm, Nat.add_assoc] at hrest
      rw [List.length_cons, List.cons_append]
      by_cases hb : b = Text.lineFeed
      · subst hb
        rw [startsAfter_lineFeed, startsAfter_lineFeed, hrest,
          List.cons_append]
      · rw [startsAfter_of_ne hb, startsAfter_of_ne hb, hrest]

theorem length_startsAfter (offset : Nat) (bs : List UInt8) :
    (startsAfter offset bs).length = Text.lineFeeds bs := by
  induction bs generalizing offset with
  | nil =>
      rfl
  | cons b rest ih =>
      by_cases hb : b = Text.lineFeed
      · subst hb
        rw [startsAfter_lineFeed, List.length_cons, ih, Text.lineFeeds,
          Text.lineFeeds, List.count_cons_self]
      · rw [startsAfter_of_ne hb, ih, Text.lineFeeds, Text.lineFeeds,
          List.count_cons_of_ne hb]

/-- Lines start behind the first byte and not behind the end. -/
theorem bounds_of_mem_startsAfter
    (hfits : offset + bs.length < UInt32.size)
    (hstart : start ∈ startsAfter offset bs) :
    offset < start.toNat ∧ start.toNat ≤ offset + bs.length := by
  induction bs generalizing offset with
  | nil =>
      cases hstart
  | cons b rest ih =>
      rw [List.length_cons] at hfits ⊢
      have hrest :
          start ∈ startsAfter (offset + 1) rest →
            offset < start.toNat ∧
              start.toNat ≤ offset + (rest.length + 1) := by
        intro hmem
        have hbounds := ih (by omega) hmem
        omega
      by_cases hb : b = Text.lineFeed
      · subst hb
        rw [startsAfter_lineFeed, List.mem_cons] at hstart
        rcases hstart with rfl | hmem
        · have hvalue : (offset + 1).toUInt32.toNat = offset + 1 :=
            UInt32.toNat_ofNat_of_lt' (by omega)
          omega
        · exact hrest hmem
      · rw [startsAfter_of_ne hb] at hstart
        exact hrest hstart

theorem pairwise_startsAfter
    (hfits : offset + bs.length < UInt32.size) :
    (startsAfter offset bs).Pairwise (· < ·) := by
  induction bs generalizing offset with
  | nil =>
      exact List.Pairwise.nil
  | cons b rest ih =>
      rw [List.length_cons] at hfits
      have hrest : (startsAfter (offset + 1) rest).Pairwise (· < ·) :=
        ih (by omega)
      by_cases hb : b = Text.lineFeed
      · subst hb
        rw [startsAfter_lineFeed, List.pairwise_cons]
        refine ⟨?_, hrest⟩
        intro later hlater
        have hbounds := bounds_of_mem_startsAfter (by omega) hlater
        have hvalue : (offset + 1).toUInt32.toNat = offset + 1 :=
          UInt32.toNat_ofNat_of_lt' (by omega)
        rw [UInt32.lt_iff_toNat_lt]
        omega
      · rw [startsAfter_of_ne hb]
        exact hrest

/-- The start that a table has last is the start of the last line. -/
theorem lineStart_getLast?
    (hfits : bs.length < UInt32.size) :
    ∃ start : UInt32,
      (0 :: startsAfter 0 bs).getLast? = some start ∧
      Text.LineStart bs start.toNat := by
  induction bs using List.reverseRecOn with
  | nil =>
      exact ⟨0, rfl, Text.lineStart_nil⟩
  | append_singleton bs b ih =>
      rw [List.length_append, List.length_singleton] at hfits
      obtain ⟨start, hlast, hstart⟩ := ih (by omega)
      rw [startsAfter_append, Nat.zero_add, ← List.cons_append]
      by_cases hb : b = Text.lineFeed
      · subst hb
        have hvalue : (bs.length + 1).toUInt32.toNat = bs.length + 1 :=
          UInt32.toNat_ofNat_of_lt' hfits
        refine ⟨(bs.length + 1).toUInt32, ?_, ?_⟩
        · rw [startsAfter_lineFeed]
          exact List.getLast?_concat
        · rw [hvalue]
          exact Text.lineStart_append_lineFeed bs
      · refine ⟨start, ?_, hstart.append hb⟩
        rw [startsAfter_of_ne hb]
        exact (congrArg List.getLast? (List.append_nil _)).trans hlast

end Starts

section Search

variable {starts before behind : List UInt32} {offset : UInt32} {line : Nat}

/--
The lines at which a search for an offset among the starts may end: the one
that starts there, or the one before the place where it would be put in.
-/
inductive SearchEnds (starts : List UInt32) (offset : UInt32) : Nat → Prop
  | found
      (place : Nat)
      (hhit : starts[place]? = some offset) :
      SearchEnds starts offset place
  | missing
      (place : Nat)
      (hplace : place ≤ starts.length)
      (hbefore : ∀ start ∈ starts.take place, start < offset)
      (hbehind : ∀ start ∈ starts.drop place, offset < start) :
      SearchEnds starts offset (place - 1)

/-- Counting the starts up to an offset finds where they are cut by it. -/
theorem countP_append_of_cut
    (hbefore : ∀ start ∈ before, start ≤ offset)
    (hbehind : ∀ start ∈ behind, offset < start) :
    ((before ++ behind).countP fun start => start ≤ offset) =
      before.length := by
  have hall : (before.countP fun start => start ≤ offset) = before.length := by
    rw [List.countP_eq_length]
    intro start hstart
    exact decide_eq_true (hbefore start hstart)
  have hnone : (behind.countP fun start => start ≤ offset) = 0 := by
    rw [List.countP_eq_zero]
    intro start hstart
    simpa using hbehind start hstart
  rw [List.countP_append, hall, hnone, Nat.add_zero]

/-- Among increasing starts a search can end only where counting does. -/
theorem SearchEnds.eq_countP
    (hends : SearchEnds starts offset line)
    (hsorted : starts.Pairwise (· < ·)) :
    line = (starts.countP fun start => start ≤ offset) - 1 := by
  cases hends with
  | found _ hhit =>
      obtain ⟨hline, hvalue⟩ := List.getElem?_eq_some_iff.mp hhit
      have hlast : starts.take (line + 1) = starts.take line ++ [offset] := by
        rw [List.take_succ_eq_append_getElem hline, hvalue]
      rw [← List.take_append_drop (line + 1) starts, hlast,
        List.pairwise_append, List.pairwise_append] at hsorted
      obtain ⟨⟨-, -, hbefore⟩, -, hbehind⟩ := hsorted
      have hle : ∀ start ∈ starts.take line ++ [offset], start ≤ offset := by
        intro start hstart
        rcases List.mem_append.mp hstart with hstart | hstart
        · exact
            UInt32.le_of_lt
              (hbefore start hstart offset (List.mem_singleton_self offset))
        · rw [List.mem_singleton.mp hstart]
          exact UInt32.le_refl offset
      have hlt : ∀ start ∈ starts.drop (line + 1), offset < start := by
        intro start hstart
        exact hbehind offset (by simp) start hstart
      have hcount := countP_append_of_cut hle hlt
      rw [← hlast, List.take_append_drop, List.length_take] at hcount
      omega
  | missing place hplace hbefore hbehind =>
      have hcount :=
        countP_append_of_cut
          (fun start hstart => UInt32.le_of_lt (hbefore start hstart)) hbehind
      rw [List.take_append_drop, List.length_take] at hcount
      rw [hcount, Nat.min_eq_left hplace]

end Search

section Tables

variable {bs : List UInt8} {offset : UInt32}

theorem toNat_min (first second : UInt32) :
    (min first second).toNat = min first.toNat second.toNat := by
  change (if first ≤ second then first else second).toNat = _
  split
  · next hle =>
      exact (Nat.min_eq_left hle).symm
  · next hgt =>
      exact (Nat.min_eq_right (Nat.le_of_not_le hgt)).symm

theorem pairwise_starts_ofBytes
    (hfits : bs.length < UInt32.size) :
    (ofBytes bs).starts.Pairwise (· < ·) := by
  rw [ofBytes, List.pairwise_cons]
  refine ⟨?_, pairwise_startsAfter (by omega)⟩
  intro start hstart
  have hbounds := bounds_of_mem_startsAfter (by omega) hstart
  rw [UInt32.lt_iff_toNat_lt]
  exact hbounds.1

/-- The starts of a text, cut at an offset within it. -/
theorem starts_ofBytes_cut
    (hwithin : offset.toNat ≤ bs.length) :
    (ofBytes bs).starts =
      0 :: startsAfter 0 (bs.take offset.toNat) ++
        startsAfter offset.toNat (bs.drop offset.toNat) := by
  have hcut :=
    startsAfter_append 0 (bs.take offset.toNat) (bs.drop offset.toNat)
  rw [List.take_append_drop, List.length_take, Nat.min_eq_left hwithin,
    Nat.zero_add] at hcut
  rw [ofBytes, hcut, List.cons_append]

theorem starts_le_of_cut
    (hfits : bs.length < UInt32.size)
    (hwithin : offset.toNat ≤ bs.length) :
    ∀ start ∈ 0 :: startsAfter 0 (bs.take offset.toNat), start ≤ offset := by
  intro start hstart
  rw [UInt32.le_iff_toNat_le]
  rcases List.mem_cons.mp hstart with rfl | hstart
  · exact Nat.zero_le _
  · have hlength : (bs.take offset.toNat).length = offset.toNat := by
      rw [List.length_take, Nat.min_eq_left hwithin]
    have hbounds := bounds_of_mem_startsAfter (by omega) hstart
    omega

theorem lt_starts_of_cut
    (hfits : bs.length < UInt32.size)
    (hwithin : offset.toNat ≤ bs.length) :
    ∀ start ∈ startsAfter offset.toNat (bs.drop offset.toNat),
      offset < start := by
  intro start hstart
  rw [UInt32.lt_iff_toNat_lt]
  have hlength : offset.toNat + (bs.drop offset.toNat).length = bs.length := by
    rw [List.length_drop]
    omega
  exact (bounds_of_mem_startsAfter (by omega) hstart).1

/-- The line of an offset is the number of line feeds before it. -/
theorem lineAt_ofBytes
    (hfits : bs.length < UInt32.size)
    (hwithin : offset.toNat ≤ bs.length) :
    (ofBytes bs).lineAt offset = Text.lineFeeds (bs.take offset.toNat) := by
  rw [lineAt, starts_ofBytes_cut hwithin,
    countP_append_of_cut (starts_le_of_cut hfits hwithin)
      (lt_starts_of_cut hfits hwithin),
    List.length_cons, length_startsAfter, Nat.add_sub_cancel]

/-- The table keeps, at the line of an offset, where that line starts. -/
theorem exists_start_at_line
    (hfits : bs.length < UInt32.size)
    (hwithin : offset.toNat ≤ bs.length) :
    ∃ start : UInt32,
      (ofBytes bs).starts[Text.lineFeeds (bs.take offset.toNat)]? =
        some start ∧
      Text.LineStart (bs.take offset.toNat) start.toNat := by
  have hshort : (bs.take offset.toNat).length < UInt32.size := by
    rw [List.length_take]
    omega
  obtain ⟨start, hlast, hstart⟩ := lineStart_getLast? hshort
  refine ⟨start, ?_, hstart⟩
  rw [starts_ofBytes_cut hwithin, ← length_startsAfter 0,
    List.getElem?_append_left (by simp), ← hlast, List.getLast?_eq_getElem?,
    List.length_cons, Nat.add_sub_cancel]

/-- A search among the starts of a text can end at the line and only there. -/
theorem searchEnds_ofBytes_iff
    (hfits : bs.length < UInt32.size)
    (hwithin : offset.toNat ≤ bs.length)
    (line : Nat) :
    SearchEnds (ofBytes bs).starts offset line ↔
      line = (ofBytes bs).lineAt offset := by
  have hsorted := pairwise_starts_ofBytes hfits
  constructor
  · intro hends
    exact hends.eq_countP hsorted
  · rintro rfl
    by_cases hhit : offset ∈ (ofBytes bs).starts
    · obtain ⟨place, hplace⟩ := List.getElem?_of_mem hhit
      have hends := SearchEnds.found place hplace
      rw [lineAt, ← hends.eq_countP hsorted]
      exact hends
    · let before := 0 :: startsAfter 0 (bs.take offset.toNat)
      have hline : (ofBytes bs).lineAt offset = before.length - 1 := by
        rw [lineAt_ofBytes hfits hwithin, List.length_cons,
          length_startsAfter, Nat.add_sub_cancel]
      rw [hline]
      rw [starts_ofBytes_cut hwithin] at hhit ⊢
      apply SearchEnds.missing before.length
      · rw [List.length_append]
        exact Nat.le_add_right _ _
      · rw [List.take_left]
        intro start hstart
        apply UInt32.lt_of_le_of_ne (starts_le_of_cut hfits hwithin start hstart)
        rintro rfl
        exact hhit (List.mem_append_left _ hstart)
      · rw [List.drop_left]
        exact lt_starts_of_cut hfits hwithin

/-- The offset that a table looks up, as a number of bytes of the text. -/
theorem toNat_within_ofBytes
    (hfits : bs.length < UInt32.size)
    (offset : UInt32) :
    (min offset (ofBytes bs).length).toNat =
      min offset.toNat bs.length := by
  have hlength : (ofBytes bs).length.toNat = bs.length :=
    UInt32.toNat_ofNat_of_lt' hfits
  rw [toNat_min, hlength]

theorem toNat_line_position
    (hfits : bs.length < UInt32.size)
    (offset : UInt32) :
    ((ofBytes bs).position offset).line.toNat =
      Text.lineFeeds (bs.take (min offset.toNat bs.length)) := by
  have hvalue := toNat_within_ofBytes hfits offset
  have hwithin : (min offset (ofBytes bs).length).toNat ≤ bs.length := by
    omega
  have hline := lineAt_ofBytes hfits hwithin
  rw [hvalue] at hline
  have hfew := Text.lineFeeds_le_length (bs.take (min offset.toNat bs.length))
  rw [List.length_take] at hfew
  change ((ofBytes bs).lineAt _).toUInt32.toNat = _
  rw [hline]
  exact UInt32.toNat_ofNat_of_lt' (by omega)

theorem exists_toNat_character_position
    (hfits : bs.length < UInt32.size)
    (offset : UInt32) :
    ∃ start,
      Text.LineStart (bs.take (min offset.toNat bs.length)) start ∧
      ((ofBytes bs).position offset).character.toNat =
        min offset.toNat bs.length - start := by
  have hvalue := toNat_within_ofBytes hfits offset
  have hwithin : (min offset (ofBytes bs).length).toNat ≤ bs.length := by
    omega
  obtain ⟨start, hkept, hstart⟩ := exists_start_at_line hfits hwithin
  refine ⟨start.toNat, hvalue ▸ hstart, ?_⟩
  have hle : start ≤ min offset (ofBytes bs).length := by
    have hle := hstart.le
    rw [List.length_take, Nat.min_eq_left hwithin] at hle
    exact hle
  have hcharacter :
      ((ofBytes bs).position offset).character =
        min offset (ofBytes bs).length - start := by
    rw [position, lineAt_ofBytes hfits hwithin, hkept]
    rfl
  rw [hcharacter, UInt32.toNat_sub_of_le _ _ hle, hvalue]

theorem lineCount_ofBytes (bs : List UInt8) :
    (ofBytes bs).lineCount = 1 + Text.lineFeeds bs := by
  rw [lineCount, ofBytes, List.length_cons, length_startsAfter, Nat.add_comm]

theorem line_lt_lineCount
    (hfits : bs.length < UInt32.size)
    (offset : UInt32) :
    ((ofBytes bs).position offset).line.toNat < (ofBytes bs).lineCount := by
  rw [toNat_line_position hfits, lineCount_ofBytes]
  have hfeeds :
      Text.lineFeeds (bs.take (min offset.toNat bs.length)) ≤
        Text.lineFeeds bs :=
    (List.take_sublist _ bs).count_le Text.lineFeed
  omega

theorem searchEnds_position_iff
    (hfits : bs.length < UInt32.size)
    (offset : UInt32)
    (line : Nat) :
    SearchEnds (ofBytes bs).starts (min offset (ofBytes bs).length) line ↔
      line = ((ofBytes bs).position offset).line.toNat := by
  have hvalue := toNat_within_ofBytes hfits offset
  have hwithin : (min offset (ofBytes bs).length).toNat ≤ bs.length := by
    omega
  rw [searchEnds_ofBytes_iff hfits hwithin, lineAt_ofBytes hfits hwithin,
    toNat_line_position hfits, hvalue]

/-- A number below the greatest word is followed by its successor. -/
theorem toNat_add_one
    {word : UInt32}
    (hbelow : word.toNat < UInt32.size - 1) :
    (word + 1).toNat = word.toNat + 1 := by
  rw [UInt32.toNat_add, UInt32.toNat_one, Nat.mod_eq_of_lt]
  exact Nat.add_lt_of_lt_sub hbelow

theorem line_position_lt
    (hfits : bs.length < UInt32.size - 1)
    (offset : UInt32) :
    ((ofBytes bs).position offset).line.toNat < UInt32.size - 1 := by
  have hbelow := line_lt_lineCount (Nat.lt_of_lt_pred hfits) offset
  have hfew := Text.lineFeeds_le_length bs
  rw [lineCount_ofBytes] at hbelow
  omega

theorem character_position_lt
    (hfits : bs.length < UInt32.size - 1)
    (offset : UInt32) :
    ((ofBytes bs).position offset).character.toNat < UInt32.size - 1 := by
  obtain ⟨start, -, hvalue⟩ :=
    exists_toNat_character_position (Nat.lt_of_lt_pred hfits) offset
  omega

/-- Lines and columns counted from one still fit in a word. -/
theorem render_ofBytes
    (hfits : bs.length < UInt32.size - 1)
    (d : Diagnostic) :
    d.render (ofBytes bs) =
      d.file ++ ":" ++
        Nat.repr (((ofBytes bs).position d.start).line.toNat + 1) ++ ":" ++
        Nat.repr (((ofBytes bs).position d.start).character.toNat + 1) ++
        " - " ++ d.category.word ++ " IML" ++ Nat.repr d.code.toNat ++
        ": " ++ d.text := by
  rw [Diagnostic.render, toNat_add_one (line_position_lt hfits d.start),
    toNat_add_one (character_position_lt hfits d.start)]

/--
**Positions are exact.**  In a text whose length is below the greatest word,
every offset, beyond the end counted as the end, has as its line the number of
line feeds before it and as its column its distance from the start of that
line.  The line is one of the table, which has one more than there are line
feeds; a search among the starts ends there, whichever way it goes; and a
diagnostic at that offset is rendered with line and column counted from one.
-/
theorem position_ofText
    (text : String)
    (hfits : (Text.bytes text).length < UInt32.size - 1)
    (offset : UInt32) :
    let bs := Text.bytes text
    let table := ofText text
    let within := min offset.toNat bs.length
    let place := table.position offset
    ∃ start,
      Text.LineStart (bs.take within) start ∧
      place.line.toNat = Text.lineFeeds (bs.take within) ∧
      place.character.toNat = within - start ∧
      place.line.toNat < table.lineCount ∧
      table.lineCount = 1 + Text.lineFeeds bs ∧
      (∀ line,
        SearchEnds table.starts (min offset table.length) line ↔
          line = place.line.toNat) ∧
      (∀ d : Diagnostic, d.start = offset →
        d.render table =
          d.file ++ ":" ++
            Nat.repr (Text.lineFeeds (bs.take within) + 1) ++ ":" ++
            Nat.repr (within - start + 1) ++ " - " ++ d.category.word ++
            " IML" ++ Nat.repr d.code.toNat ++ ": " ++ d.text) := by
  intro bs table within place
  have hword : bs.length < UInt32.size := Nat.lt_of_lt_pred hfits
  have hline : place.line.toNat = Text.lineFeeds (bs.take within) :=
    toNat_line_position hword offset
  obtain ⟨start, hstart, hcharacter⟩ :=
    exists_toNat_character_position hword offset
  refine
    ⟨start, hstart, hline, hcharacter, line_lt_lineCount hword offset,
      lineCount_ofBytes bs, searchEnds_position_iff hword offset, ?_⟩
  rintro d hplace
  have hrender := render_ofBytes hfits d
  rw [hplace, toNat_line_position hword, hcharacter] at hrender
  exact hrender

/--
The text ends with a line feed, and its first character takes two bytes.  The
line feed after the carriage return is still on the first line; an offset
beyond the end is on the empty third line.
-/
theorem position_ofText_beyond_end :
    let text := "é;\r\nb\n"
    (Text.bytes text).length < UInt32.size - 1 ∧
    ((ofText text).position 4).line.toNat = 0 ∧
    (ofText text).lineCount = 3 ∧
    (Diagnostic.of .warning "a.js" 100 1 "m" 9001).render (ofText text) =
      "a.js:3:1 - warning IML9001: m" := by
  intro text
  have hbytes : Text.bytes text = [0xC3, 0xA9, 59, 13, 10, 98, 10] := by
    decide +kernel
  have hfits : (Text.bytes text).length < UInt32.size - 1 := by
    rw [hbytes]
    decide
  obtain ⟨-, -, hfeed, -⟩ := position_ofText text hfits 4
  obtain ⟨start, hstart, -, -, -, hcount, -, hrender⟩ :=
    position_ofText text hfits 100
  rw [hbytes] at hfeed hstart hcount
  have hend : start = 7 :=
    hstart.unique
      (Text.lineStart_append_lineFeed [0xC3, 0xA9, 59, 13, 10, 98])
  refine ⟨hfits, hfeed, hcount, ?_⟩
  rw [hrender _ rfl, hend, hbytes]
  decide +kernel

end Tables

end LineTable

end MethodLint
