import MethodLint.Proofs.LineTable.Positions

/-!
# Words never overflow below the bound

Line tables, positions and rendered lines are computed in 32-bit words, which
wrap around.  Here every such step is taken a second time by an operation that
gives nothing where a word would wrap, and the two computations are compared.

**Specification.**  `Word.ofNat?`, `Word.sub?` and `Word.succ?` are the steps that
can go wrong: a number is put in a word, a word is subtracted, and one is added
to a word.  `LineTable.ofText?`, `LineTable.position?` and `Diagnostic.render?`
take these steps where the wrapping functions take theirs.

**Results.**  In a text of at most `2 ^ 32 - 2` bytes no step fails, so nothing
wraps, and the same holds of the empty table.  One byte more is too much, though
its length still fits: in a text of one line the last column has no successor,
and in a text of line feeds the last line has none.
-/

namespace MethodLint

namespace Word

/-- The word for a number, if it fits. -/
def ofNat? (n : Nat) : Option UInt32 :=
  if n < UInt32.size then some n.toUInt32 else none

/-- The difference of two words, if it is not negative. -/
def sub? (first second : UInt32) : Option UInt32 :=
  if second ≤ first then some (first - second) else none

/-- The next word, if there is one. -/
def succ? (word : UInt32) : Option UInt32 :=
  if word.toNat + 1 < UInt32.size then some (word + 1) else none

section Exact

variable {n : Nat} {first second word : UInt32}

theorem ofNat?_eq_some_iff : ofNat? n = some word ↔ word.toNat = n := by
  rw [ofNat?]
  split
  · next hfits =>
      rw [Option.some.injEq, ← UInt32.toNat_inj]
      change (UInt32.ofNat n).toNat = _ ↔ _
      rw [UInt32.toNat_ofNat_of_lt' hfits, eq_comm]
  · next hlarge =>
      have hword := word.toNat_lt_size
      simp only [reduceCtorEq, false_iff]
      omega

theorem sub?_eq_some_iff :
    sub? first second = some word ↔
      word.toNat + second.toNat = first.toNat := by
  rw [sub?]
  split
  · next hle =>
      rw [Option.some.injEq, ← UInt32.toNat_inj,
        UInt32.toNat_sub_of_le _ _ hle]
      rw [UInt32.le_iff_toNat_le] at hle
      omega
  · next hgt =>
      rw [UInt32.le_iff_toNat_le] at hgt
      simp only [reduceCtorEq, false_iff]
      omega

theorem succ?_eq_some_iff :
    succ? first = some word ↔ word.toNat = first.toNat + 1 := by
  rw [succ?]
  split
  · next hfits =>
      rw [Option.some.injEq, ← UInt32.toNat_inj,
        LineTable.toNat_add_one (by omega), eq_comm]
  · next hlast =>
      have hword := word.toNat_lt_size
      simp only [reduceCtorEq, false_iff]
      omega

theorem ofNat?_of_lt (hfits : n < UInt32.size) :
    ofNat? n = some n.toUInt32 :=
  ofNat?_eq_some_iff.mpr (UInt32.toNat_ofNat_of_lt' hfits)

theorem sub?_of_le (hle : second ≤ first) :
    sub? first second = some (first - second) := by
  rw [sub?_eq_some_iff, UInt32.toNat_sub_of_le _ _ hle]
  exact Nat.sub_add_cancel (UInt32.le_iff_toNat_le.mp hle)

theorem succ?_of_lt (hbelow : word.toNat < UInt32.size - 1) :
    succ? word = some (word + 1) :=
  succ?_eq_some_iff.mpr (LineTable.toNat_add_one hbelow)

end Exact

end Word

namespace LineTable

/-- The starts of lines, as long as each of them fits in a word. -/
def startsAfter? : Nat → List UInt8 → Option (List UInt32)
  | _, [] => some []
  | offset, b :: rest =>
      if b = Text.lineFeed then do
        let start ← Word.ofNat? (offset + 1)
        let later ← startsAfter? (offset + 1) rest
        return start :: later
      else
        startsAfter? (offset + 1) rest

def ofBytes? (bs : List UInt8) : Option LineTable := do
  let later ← startsAfter? 0 bs
  let length ← Word.ofNat? bs.length
  return ⟨0 :: later, length⟩

def ofText? (text : String) : Option LineTable :=
  ofBytes? (Text.bytes text)

def position? (table : LineTable) (offset : UInt32) : Option Position := do
  let within := min offset table.length
  let line := table.lineAt within
  let start := (table.starts[line]?).getD 0
  let word ← Word.ofNat? line
  let character ← Word.sub? within start
  return ⟨word, character⟩

end LineTable

namespace Diagnostic

/-- The finding on one line, with a line and a column that are given. -/
def written (d : Diagnostic) (line column : UInt32) : String :=
  d.file ++ ":" ++ Nat.repr line.toNat ++
    ":" ++ Nat.repr column.toNat ++
    " - " ++ d.category.word ++
    " IML" ++ Nat.repr d.code.toNat ++
    ": " ++ d.text

def render? (d : Diagnostic) (table : LineTable) : Option String := do
  let place ← table.position? d.start
  let line ← Word.succ? place.line
  let column ← Word.succ? place.character
  return d.written line column

end Diagnostic

namespace LineTable

section Checked

variable {bs : List UInt8} {offset : Nat}

theorem startsAfter?_eq_some
    (hfits : offset + bs.length < UInt32.size) :
    startsAfter? offset bs = some (startsAfter offset bs) := by
  induction bs generalizing offset with
  | nil =>
      rfl
  | cons b rest ih =>
      rw [List.length_cons] at hfits
      have hrest :
          startsAfter? (offset + 1) rest = some (startsAfter (offset + 1) rest) :=
        ih (by omega)
      by_cases hb : b = Text.lineFeed
      · subst hb
        rw [startsAfter?, if_pos rfl, startsAfter_lineFeed,
          Word.ofNat?_of_lt (by omega), hrest]
        rfl
      · rw [startsAfter?, if_neg hb, startsAfter_of_ne hb, hrest]

theorem ofBytes?_eq_some
    (hfits : bs.length < UInt32.size) :
    ofBytes? bs = some (ofBytes bs) := by
  rw [ofBytes?, startsAfter?_eq_some (by omega), Word.ofNat?_of_lt hfits]
  rfl

/-- The two steps to a position succeed if the line fits and starts in time. -/
theorem position?_of_le
    {table : LineTable} {offset : UInt32}
    (hline : table.lineAt (min offset table.length) < UInt32.size)
    (hstart :
      (table.starts[table.lineAt (min offset table.length)]?).getD 0 ≤
        min offset table.length) :
    table.position? offset = some (table.position offset) := by
  rw [position?, Word.ofNat?_of_lt hline, Word.sub?_of_le hstart]
  rfl

theorem position?_ofBytes
    (hfits : bs.length < UInt32.size)
    (offset : UInt32) :
    (ofBytes bs).position? offset = some ((ofBytes bs).position offset) := by
  have hvalue := toNat_within_ofBytes hfits offset
  have hwithin : (min offset (ofBytes bs).length).toNat ≤ bs.length := by
    omega
  have hline := lineAt_ofBytes hfits hwithin
  apply position?_of_le
  · have hfew :=
      Text.lineFeeds_le_length
        (bs.take (min offset (ofBytes bs).length).toNat)
    rw [List.length_take] at hfew
    omega
  · obtain ⟨start, hkept, hstart⟩ := exists_start_at_line hfits hwithin
    have hle := hstart.le
    rw [List.length_take, Nat.min_eq_left hwithin] at hle
    rw [hline, hkept]
    exact hle

/-- In the empty table every offset counts as zero. -/
theorem position_empty (offset : UInt32) : empty.position offset = ⟨0, 0⟩ := by
  have hwithin : min offset empty.length = 0 := by
    rw [← UInt32.toNat_inj, toNat_min]
    exact Nat.min_zero _
  rw [position, hwithin]
  rfl

theorem position?_empty (offset : UInt32) :
    empty.position? offset = some (empty.position offset) := by
  apply position?_of_le
  · exact Nat.lt_of_le_of_lt (Nat.zero_le 0) (by decide)
  · exact UInt32.le_iff_toNat_le.mpr (Nat.zero_le _)

/-- A line is rendered without overflow if its place is not at the last word. -/
theorem render?_of_lt
    {table : LineTable} {d : Diagnostic}
    (hplace : table.position? d.start = some (table.position d.start))
    (hline : (table.position d.start).line.toNat < UInt32.size - 1)
    (hcharacter : (table.position d.start).character.toNat < UInt32.size - 1) :
    d.render? table = some (d.render table) := by
  rw [Diagnostic.render?, hplace, Option.bind_eq_bind, Option.bind_some,
    Word.succ?_of_lt hline, Option.bind_eq_bind, Option.bind_some,
    Word.succ?_of_lt hcharacter]
  rfl

/-- No line is rendered if the place has no next line or no next column. -/
theorem render?_eq_none
    {table : LineTable} {d : Diagnostic}
    (hplace : table.position? d.start = some (table.position d.start))
    (hlast :
      UInt32.size ≤ (table.position d.start).line.toNat + 1 ∨
        UInt32.size ≤ (table.position d.start).character.toNat + 1) :
    d.render? table = none := by
  rw [Diagnostic.render?, hplace, Option.bind_eq_bind, Option.bind_some]
  rcases hlast with hline | hcharacter
  · have hnone : Word.succ? (table.position d.start).line = none :=
      if_neg (Nat.not_lt.mpr hline)
    rw [hnone]
    rfl
  · have hnone : Word.succ? (table.position d.start).character = none :=
      if_neg (Nat.not_lt.mpr hcharacter)
    rw [hnone]
    cases Word.succ? (table.position d.start).line <;> rfl

end Checked

section Tight

variable {n : Nat}

/-- A character of one byte, repeated, is that byte as many times. -/
theorem bytes_replicate
    {c : Char} {b : UInt8}
    (hbyte : String.utf8EncodeChar c = [b])
    (n : Nat) :
    Text.bytes (String.ofList (List.replicate n c)) = List.replicate n b := by
  rw [Text.bytes, String.toByteArray_ofList, List.utf8Encode,
    List.data_toByteArray, List.flatMap_replicate, hbyte,
    List.flatten_replicate_singleton]

/-- A text of one repeated byte has a table and positions if its length fits. -/
theorem ofText?_replicate
    (c : Char)
    (b : UInt8)
    (hbyte : String.utf8EncodeChar c = [b])
    (hfits : n < UInt32.size) :
    let text := String.ofList (List.replicate n c)
    (Text.bytes text).length = n ∧
    ofText text = ofBytes (List.replicate n b) ∧
    ofText? text = some (ofText text) ∧
    (∀ start : UInt32,
      (ofText text).position? start = some ((ofText text).position start)) := by
  intro text
  have hbytes := bytes_replicate hbyte n
  have hlength : (Text.bytes text).length = n := by
    rw [hbytes, List.length_replicate]
  have hword : (Text.bytes text).length < UInt32.size := by
    rwa [hlength]
  exact
    ⟨hlength, congrArg ofBytes hbytes, ofBytes?_eq_some hword,
      position?_ofBytes hword⟩

/-- At the end of a text of one line, the column is the length of the text. -/
theorem character_position_replicate
    (b : UInt8)
    (hb : b ≠ Text.lineFeed)
    (hfits : n < UInt32.size) :
    ((ofBytes (List.replicate n b)).position n.toUInt32).character.toNat = n := by
  have hlength : (List.replicate n b).length < UInt32.size := by
    rwa [List.length_replicate]
  have hvalue : n.toUInt32.toNat = n := UInt32.toNat_ofNat_of_lt' hfits
  have hzero : Text.LineStart (List.replicate n b) 0 := by
    refine ⟨Nat.zero_le _, fun hpos => absurd rfl hpos, ?_⟩
    intro other hother
    rwa [List.eq_of_mem_replicate (List.mem_of_mem_drop hother)]
  obtain ⟨start, hstart, hcharacter⟩ :=
    exists_toNat_character_position hlength n.toUInt32
  rw [hvalue, List.length_replicate, Nat.min_self, List.take_replicate,
    Nat.min_self] at hstart
  obtain rfl := hstart.unique hzero
  rw [hcharacter, hvalue, List.length_replicate, Nat.min_self, Nat.sub_zero]

/-- At the end of a text of line feeds, the line is the length of the text. -/
theorem line_position_replicate
    (hfits : n < UInt32.size) :
    ((ofBytes (List.replicate n Text.lineFeed)).position
      n.toUInt32).line.toNat = n := by
  have hlength : (List.replicate n Text.lineFeed).length < UInt32.size := by
    rwa [List.length_replicate]
  have hvalue : n.toUInt32.toNat = n := UInt32.toNat_ofNat_of_lt' hfits
  rw [toNat_line_position hlength, hvalue, List.length_replicate, Nat.min_self,
    List.take_replicate, Nat.min_self, Text.lineFeeds, List.count_replicate_self]

/--
**Words are exact up to a tight bound.**  In a text of at most `2 ^ 32 - 2` bytes,
no word wraps: building the table, finding the position of any offset and
rendering any diagnostic give the same whether or not each step is checked.  The
same holds of the empty table.  A text of `2 ^ 32 - 1` bytes still has a table
and positions, but in one such text there is a column, and in another a line,
whose successor exceeds the greatest word, so that no diagnostic there can be
rendered.
-/
theorem words_exact_up_to_bound :
    (∀ text : String, (Text.bytes text).length ≤ UInt32.size - 2 →
      ofText? text = some (ofText text) ∧
      (∀ start : UInt32,
        (ofText text).position? start = some ((ofText text).position start)) ∧
      (∀ d : Diagnostic,
        d.render? (ofText text) = some (d.render (ofText text)))) ∧
    (∀ start : UInt32, empty.position? start = some (empty.position start)) ∧
    (∀ d : Diagnostic, d.render? empty = some (d.render empty)) ∧
    (∃ (text : String) (start : UInt32) (place : Position),
      (Text.bytes text).length = UInt32.size - 1 ∧
      ofText? text = some (ofText text) ∧
      (ofText text).position? start = some place ∧
      UInt32.size ≤ place.character.toNat + 1 ∧
      (∀ d : Diagnostic, d.start = start → d.render? (ofText text) = none)) ∧
    (∃ (text : String) (start : UInt32) (place : Position),
      (Text.bytes text).length = UInt32.size - 1 ∧
      ofText? text = some (ofText text) ∧
      (ofText text).position? start = some place ∧
      UInt32.size ≤ place.line.toNat + 1 ∧
      (∀ d : Diagnostic, d.start = start → d.render? (ofText text) = none)) := by
  have hgreatest : UInt32.size - 1 < UInt32.size := by
    decide
  refine ⟨?_, position?_empty, ?_, ?_, ?_⟩
  · intro text hlength
    have hfits : (Text.bytes text).length < UInt32.size - 1 :=
      Nat.lt_of_le_of_lt hlength (by decide)
    have hword : (Text.bytes text).length < UInt32.size :=
      Nat.lt_of_lt_pred hfits
    refine ⟨ofBytes?_eq_some hword, position?_ofBytes hword, ?_⟩
    intro d
    exact
      render?_of_lt (position?_ofBytes hword d.start)
        (line_position_lt hfits d.start) (character_position_lt hfits d.start)
  · intro d
    apply render?_of_lt (position?_empty d.start)
    all_goals
      rw [position_empty]
      decide
  · obtain ⟨hlength, htable, hbuilt, hplaces⟩ :=
      ofText?_replicate 'a' 97 rfl hgreatest
    have hlast := character_position_replicate 97 (by decide) hgreatest
    rw [← htable] at hlast
    refine
      ⟨_, (UInt32.size - 1).toUInt32, _, hlength, hbuilt, hplaces _, by omega, ?_⟩
    rintro d hd
    exact render?_eq_none (hplaces _) (.inr (by rw [hd]; omega))
  · obtain ⟨hlength, htable, hbuilt, hplaces⟩ :=
      ofText?_replicate '\n' Text.lineFeed rfl hgreatest
    have hlast := line_position_replicate hgreatest
    rw [← htable] at hlast
    refine
      ⟨_, (UInt32.size - 1).toUInt32, _, hlength, hbuilt, hplaces _, by omega, ?_⟩
    rintro d hd
    exact render?_eq_none (hplaces _) (.inl (by rw [hd]; omega))

/-- The end of a text is on the line behind its last line feed. -/
theorem words_exact_up_to_bound_behind_line_feed :
    let text := "é\n"
    (Text.bytes text).length ≤ UInt32.size - 2 ∧
    (Diagnostic.of .warning "a.js" 3 1 "m" 9001).render? (ofText text) =
      some "a.js:2:1 - warning IML9001: m" := by
  intro text
  have hbytes : Text.bytes text = [0xC3, 0xA9, 10] := by
    decide +kernel
  have hlength : (Text.bytes text).length ≤ UInt32.size - 2 := by
    rw [hbytes]
    decide
  obtain ⟨-, -, hrender⟩ := words_exact_up_to_bound.1 text hlength
  refine ⟨hlength, ?_⟩
  rw [hrender]
  decide +kernel

end Tight

end LineTable

end MethodLint
