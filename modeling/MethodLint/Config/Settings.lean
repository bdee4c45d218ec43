import MethodLint.Diagnostic.Message
import MethodLint.Text.Blank

/-!
# Settings of the rule

The rule can be switched off, and has a severity, which decides the category
of its findings.
-/

namespace MethodLint

/-- The level at which the rule reports. -/
inductive Severity where
  | off
  | warn
  | error
  | suggestion
deriving DecidableEq

namespace Severity

def spellings : List (String × Severity) :=
  [("off", off), ("0", off),
    ("warn", warn), ("warning", warn), ("1", warn),
    ("error", error), ("2", error),
    ("suggestion", suggestion), ("hint", suggestion)]

/-- The text without outer blanks and with ASCII letters in lower case. -/
def normalize (text : String) : String :=
  String.ofList ((Text.trim text.toList).map Char.toLower)

/-- The severity that a text spells, whatever its case and outer blanks. -/
def ofText? (text : String) : Option Severity :=
  spellings.lookup (normalize text)

/-- The category of what is reported at this level; nothing is, at `off`. -/
def category? : Severity → Option Category
  | off => none
  | warn => some .warning
  | error => some .error
  | suggestion => some .suggestion

end Severity

structure Settings where
  enabled : Bool
  severity : Severity
deriving DecidableEq

namespace Settings

/-- The settings of a run that says nothing about them. -/
def standard : Settings :=
  ⟨true, .warn⟩

/-- The category of the findings; none if the rule does not run. -/
def category? (settings : Settings) : Option Category :=
  if settings.enabled then settings.severity.category? else none

end Settings

end MethodLint
