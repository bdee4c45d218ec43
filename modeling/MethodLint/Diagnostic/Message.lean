/-!
# Message catalogue

Every message of the lint has a code, a category and a template with numbered
placeholders.
-/

namespace MethodLint

/-- How grave a finding is. -/
inductive Category where
  | warning
  | error
  | suggestion
  | message
deriving DecidableEq

namespace Category

/-- The category as it stands in a rendered line. -/
def word : Category → String
  | warning => "warning"
  | error => "error"
  | suggestion => "suggestion"
  | message => "message"

/-- The category as it stands in a serialized record. -/
def label : Category → String
  | warning => "Warning"
  | error => "Error"
  | suggestion => "Suggestion"
  | message => "Message"

def ofLabel? (text : String) : Option Category :=
  [warning, error, suggestion, message].find? fun category =>
    category.label == text

@[simp] theorem ofLabel?_label (category : Category) :
    ofLabel? category.label = some category := by
  cases category <;> decide +kernel

end Category

structure Message where
  code : UInt32
  category : Category
  template : String
deriving DecidableEq

namespace Message

/-- A method is called by a name that is only the key of its property. -/
def undefinedMethodName : Message where
  code := 9001
  category := .warning
  template :=
    "\"\x7b0\x7d\" has no defined method name. " ++
      "Use syntax - foo: function foo() \x7b..\x7d."

/-- What to do about such a call. -/
def nameTheFunction : Message where
  code := 9002
  category := .suggestion
  template :=
    "Name the function expression: \x7b0\x7d: function \x7b0\x7d() \x7b..\x7d"

def catalogue : List Message :=
  [undefinedMethodName, nameTheFunction]

def find? (code : UInt32) : Option Message :=
  catalogue.find? fun entry => entry.code == code

end Message

end MethodLint
