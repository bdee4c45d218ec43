import MethodLint.Text.Bytes

/-!
# Line tables

A line table turns byte offsets of one text into lines and columns, both
counted from zero and in 32-bit words.

**Input.**  The offsets at which lines start, in increasing order, and the
length of the text.

**Algorithm.**  An offset beyond the end counts as the end.  Its line is the
last one that starts at or before it, found by counting the starts that do.  The
empty table, which belongs to no text, places every offset at the origin.
-/

namespace MethodLint

/-- A line and a column, both counted from zero. -/
structure Position where
  line : UInt32
  character : UInt32
deriving DecidableEq

/-- The starts of the lines of a text, and its length. -/
structure LineTable where
  starts : List UInt32
  length : UInt32
deriving DecidableEq

namespace LineTable

def empty : LineTable :=
  ⟨[], 0⟩

/-- The offsets just after each line feed; the first byte has offset `offset`. -/
def startsAfter : Nat → List UInt8 → List UInt32
  | _, [] => []
  | offset, b :: rest =>
      if b = Text.lineFeed then
        (offset + 1).toUInt32 :: startsAfter (offset + 1) rest
      else
        startsAfter (offset + 1) rest

def ofBytes (bs : List UInt8) : LineTable where
  starts := 0 :: startsAfter 0 bs
  length := bs.length.toUInt32

def ofText (text : String) : LineTable :=
  ofBytes (Text.bytes text)

def lineCount (table : LineTable) : Nat :=
  table.starts.length

/-- The number of the line in which an offset within the text falls. -/
def lineAt (table : LineTable) (offset : UInt32) : Nat :=
  (table.starts.countP fun start => start ≤ offset) - 1

def position (table : LineTable) (offset : UInt32) : Position :=
  let within := min offset table.length
  let line := table.lineAt within
  let start := (table.starts[line]?).getD 0
  ⟨line.toUInt32, within - start⟩

end LineTable

end MethodLint
