import MethodLint.Diagnostic.Message
import MethodLint.LineTable

/-!
# Diagnostics

A diagnostic is a finding at a range of bytes in one file.  It may point to
further places by notes, and may suggest in words what to do.
-/

namespace MethodLint

/-- A further place that explains a diagnostic. -/
structure Note where
  file : String
  start : UInt32
  length : UInt32
  text : String
deriving DecidableEq

structure Diagnostic where
  file : String
  start : UInt32
  length : UInt32
  text : String
  category : Category
  code : UInt32
  notes : List Note
  suggestions : List String
deriving DecidableEq

namespace Diagnostic

/-- A finding without notes and suggestions. -/
def of
    (category : Category)
    (file : String)
    (start length : UInt32)
    (text : String)
    (code : UInt32) : Diagnostic :=
  ⟨file, start, length, text, category, code, [], []⟩

def addNote (d : Diagnostic) (note : Note) : Diagnostic :=
  { d with notes := d.notes ++ [note] }

def suggest (d : Diagnostic) (suggestion : String) : Diagnostic :=
  { d with suggestions := d.suggestions ++ [suggestion] }

/--
The finding on one line: file, line and column counted from one, category,
code and text.
-/
def render (d : Diagnostic) (table : LineTable) : String :=
  let place := table.position d.start
  d.file ++ ":" ++ Nat.repr (place.line + 1).toNat ++
    ":" ++ Nat.repr (place.character + 1).toNat ++
    " - " ++ d.category.word ++
    " IML" ++ Nat.repr d.code.toNat ++
    ": " ++ d.text

end Diagnostic

end MethodLint
