import MethodLint.Config.Value
import MethodLint.Text.Bytes

/-!
# Faults of a settings text

A fault has a cause and a place.  While a text is being read, the place is
kept as the number of bytes not yet read; once the whole text is at hand, it
becomes a line and a column.
-/

namespace MethodLint
namespace Config

/-- The settings that a text can give. -/
inductive Field where
  | enabled
  | severity
deriving DecidableEq

namespace Field

def key : Field → String
  | enabled => "enabled"
  | severity => "severity"

def ofKey? (text : String) : Option Field :=
  [enabled, severity].find? fun field => field.key == text

end Field

/-- Why a settings text is refused. -/
inductive Cause where
  | endInValue
  | endInObject
  | endInList
  | endInText
  | colonExpected
  | commaOrBraceExpected
  | commaOrBracketExpected
  | wordMisspelled
  | valueExpected
  | keyExpected
  | numberMalformed
  | numberTooLarge
  | escapeUnknown
  | surrogateAlone
  | surrogateCutOff
  | controlCharacter
  | commaTrailing
  | textTrailing
  | nestingTooDeep
  | wrongType (found : Value) (expected : String)
  | unknownKey (key : String)
  | repeatedKey (field : Field)
  | severityUnusable
  | severityUnknown (text : String)

namespace Cause

def message : Cause → String
  | endInValue => "EOF while parsing a value"
  | endInObject => "EOF while parsing an object"
  | endInList => "EOF while parsing a list"
  | endInText => "EOF while parsing a string"
  | colonExpected => "expected `:`"
  | commaOrBraceExpected => "expected `,` or `\x7d`"
  | commaOrBracketExpected => "expected `,` or `]`"
  | wordMisspelled => "expected ident"
  | valueExpected => "expected value"
  | keyExpected => "key must be a string"
  | numberMalformed => "invalid number"
  | numberTooLarge => "number out of range"
  | escapeUnknown => "invalid escape"
  | surrogateAlone => "lone leading surrogate in hex escape"
  | surrogateCutOff => "unexpected end of hex escape"
  | controlCharacter =>
      "control character (\\u0000-\\u001F) found while parsing a string"
  | commaTrailing => "trailing comma"
  | textTrailing => "trailing characters"
  | nestingTooDeep => "recursion limit exceeded"
  | wrongType found expected =>
      "invalid type: " ++ found.description ++ ", expected " ++ expected
  | unknownKey key =>
      "unknown field `" ++ key ++ "`, expected `enabled` or `severity`"
  | repeatedKey field => "duplicate field `" ++ field.key ++ "`"
  | severityUnusable =>
      "data did not match any variant of untagged enum NumberOrString"
  | severityUnknown text =>
      "invalid severity: '" ++ text ++
        "'. Expected off, warn, error, suggestion, 0, 1, or 2"

end Cause

/-- A cause, and the number of bytes that were unread when it was found. -/
structure Fault where
  cause : Cause
  unread : Nat

namespace Fault

/-- The fault lies between what was read and the rest. -/
def here (cause : Cause) (rest : List Char) : Fault :=
  ⟨cause, Text.byteLength rest⟩

/-- The fault lies one byte into the rest, or at its end if it is empty. -/
def ahead (cause : Cause) (rest : List Char) : Fault :=
  ⟨cause, Text.byteLength rest - 1⟩

end Fault

end Config

/-- Why a settings text is refused, and where; lines count from one. -/
structure SettingsError where
  cause : Config.Cause
  line : Nat
  column : Nat

namespace SettingsError

/-- The fault as an error of the whole text. -/
def ofFault (text : String) (fault : Config.Fault) : SettingsError :=
  let bs := Text.bytes text
  let before := bs.take (bs.length - fault.unread)
  ⟨fault.cause, 1 + Text.lineFeeds before, Text.tailLength before⟩

def message (e : SettingsError) : String :=
  "invalid rule configuration: " ++ e.cause.message ++
    " at line " ++ Nat.repr e.line ++ " column " ++ Nat.repr e.column

end SettingsError

end MethodLint
