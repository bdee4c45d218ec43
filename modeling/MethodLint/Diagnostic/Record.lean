import MethodLint.Diagnostic.Basic

/-!
# Diagnostics as records

Findings are handed to other tools as records with named fields.  A list of
notes or suggestions that is empty has no field.
-/

namespace MethodLint

/-- A value with named fields, as other tools read it. -/
inductive Datum where
  | text (value : String)
  | number (value : Nat)
  | list (items : List Datum)
  | record (fields : List (String × Datum))

namespace Datum

/-- A field that is left out when the list is empty. -/
def fieldUnlessEmpty (name : String) (items : List Datum) :
    List (String × Datum) :=
  if items.isEmpty then [] else [(name, list items)]

/-- The fields shared by findings and notes. -/
def place
    (file : String)
    (start length : UInt32)
    (text : String)
    (category : Category)
    (code : UInt32) :
    List (String × Datum) :=
  [("file", .text file),
    ("start", .number start.toNat),
    ("length", .number length.toNat),
    ("message_text", .text text),
    ("category", .text category.label),
    ("code", .number code.toNat)]

end Datum

namespace Note

/-- The note as a record; it has the category of a message and the code zero. -/
def record (note : Note) : Datum :=
  .record (Datum.place note.file note.start note.length note.text .message 0)

end Note

namespace Diagnostic

def record (d : Diagnostic) : Datum :=
  .record
    (Datum.place d.file d.start d.length d.text d.category d.code ++
      Datum.fieldUnlessEmpty "related_information" (d.notes.map Note.record) ++
      Datum.fieldUnlessEmpty "suggestions" (d.suggestions.map Datum.text))

end Diagnostic

end MethodLint
