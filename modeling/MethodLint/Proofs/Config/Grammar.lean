import MethodLint.Config.Reader
import MethodLint.Proofs.Text.Runs

/-!
# How settings are written

A grammar for settings, on characters.  Nothing in it mentions how a text is
read: a text is put together from its parts by joining them.

**Gaps.**  Spaces, tabs, line feeds and returns may stand around every part.

**Quoted texts.**  `Letter` says how one character may be written between
quotes: as itself, by a short escape, by the number of its code point, or by
the numbers of a surrogate pair.

**Severities.**  `Level` is one of three digits, or a quoted text that spells a
severity in any case and with blanks around it.

**Settings.**  `Body` is an object whose keys are known and distinct, or a list
of at most two values.  `Document` is a body with gaps around it, and the
settings that hold what the body gives.
-/

namespace MethodLint

namespace Severity

/-- The words for a severity. -/
def words : Severity → List String
  | off => ["off", "0"]
  | warn => ["warn", "warning", "1"]
  | error => ["error", "2"]
  | suggestion => ["suggestion", "hint"]

end Severity

namespace Config
namespace Grammar

/-- What may stand around the parts of a text. -/
def Gap (s : List Char) : Prop :=
  ∀ c ∈ s, c ∈ [' ', '\t', '\n', '\r']

def hexDigits : List Char :=
  ['0', '1', '2', '3', '4', '5', '6', '7', '8', '9',
    'a', 'b', 'c', 'd', 'e', 'f']

/-- The character is a hexadecimal digit of the given value, in either case. -/
def HexDigit (c : Char) (n : Nat) : Prop :=
  hexDigits[n]? = some c ∨ (hexDigits.map Char.toUpper)[n]? = some c

instance (c : Char) (n : Nat) : Decidable (HexDigit c n) :=
  inferInstanceAs (Decidable (_ ∨ _))

/-- Four hexadecimal digits, and the number they write. -/
inductive HexQuad : List Char → Nat → Prop
  | digits {a b c d : Char} {i j k l : Nat} :
      HexDigit a i → HexDigit b j → HexDigit c k → HexDigit d l →
      HexQuad [a, b, c, d] (i * 4096 + j * 256 + k * 16 + l)

/-- The letters that can follow a backslash, and what they stand for. -/
def shortEscapes : List (Char × Char) :=
  [('"', '"'), ('\\', '\\'), ('/', '/'), ('b', '\x08'), ('f', '\x0c'),
    ('n', '\n'), ('r', '\r'), ('t', '\t')]

/--
One character between quotes, as it is written.  The code point of a character
is never a surrogate, so a single number cannot be one.
-/
inductive Letter : List Char → Char → Prop
  | plain {c : Char} :
      c ≠ '"' → c ≠ '\\' → 0x20 ≤ c.toNat → Letter [c] c
  | short {mark c : Char} :
      (mark, c) ∈ shortEscapes → Letter ['\\', mark] c
  | number {quad : List Char} {c : Char} :
      HexQuad quad c.toNat → Letter ('\\' :: 'u' :: quad) c
  | pair {first second : List Char} {high low : Nat} {c : Char} :
      HexQuad first high → 0xD800 ≤ high → high ≤ 0xDBFF →
      HexQuad second low → 0xDC00 ≤ low → low ≤ 0xDFFF →
      c.toNat = 0x10000 + (high - 0xD800) * 0x400 + (low - 0xDC00) →
      Letter ('\\' :: 'u' :: (first ++ '\\' :: 'u' :: second)) c

/-- The characters between quotes, as they are written. -/
inductive Letters : List Char → List Char → Prop
  | nil : Letters [] []
  | cons {s rest cs : List Char} {c : Char} :
      Letter s c → Letters rest cs → Letters (s ++ rest) (c :: cs)

inductive Quoted : List Char → String → Prop
  | quotes {s cs : List Char} :
      Letters s cs → Quoted ('"' :: (s ++ ['"'])) (String.ofList cs)

inductive Truth : List Char → Bool → Prop
  | yes : Truth ['t', 'r', 'u', 'e'] true
  | no : Truth ['f', 'a', 'l', 's', 'e'] false

/-- The text spells the severity, whatever its case and outer blanks. -/
def Spells (text : String) (level : Severity) : Prop :=
  ∃ core, Text.Trimmed text.toList core ∧
    String.ofList (core.map Char.toLower) ∈ level.words

/-- A severity as it is written. -/
inductive Level : List Char → Severity → Prop
  | off : Level ['0'] .off
  | warn : Level ['1'] .warn
  | error : Level ['2'] .error
  | text {s : List Char} {text : String} {level : Severity} :
      Quoted s text → Spells text level → Level s level

/-- A setting that a text gives. -/
inductive Setting where
  | enabled (value : Bool)
  | severity (level : Severity)
deriving DecidableEq

def Setting.field : Setting → Field
  | enabled _ => .enabled
  | severity _ => .severity

/-- The value of a setting, as it is written. -/
inductive Given : List Char → Setting → Prop
  | enabled {s : List Char} {value : Bool} :
      Truth s value → Given s (.enabled value)
  | severity {s : List Char} {level : Severity} :
      Level s level → Given s (.severity level)

/-- A key, a colon and a value, without the gaps around the whole. -/
inductive Pair : List Char → Setting → Prop
  | parts {key before after value : List Char} {setting : Setting} :
      Quoted key setting.field.key → Gap before → Gap after →
      Given value setting →
      Pair (key ++ (before ++ ':' :: (after ++ value))) setting

/-- Pairs with a comma between each two, and gaps around each. -/
inductive Members : List Char → List Setting → Prop
  | last {before pair after : List Char} {setting : Setting} :
      Gap before → Pair pair setting → Gap after →
      Members (before ++ (pair ++ after)) [setting]
  | more {before pair after rest : List Char} {setting : Setting}
      {given : List Setting} :
      Gap before → Pair pair setting → Gap after → Members rest given →
      Members (before ++ (pair ++ (after ++ ',' :: rest))) (setting :: given)

/-- An object or a list, and the settings it gives. -/
inductive Body : List Char → List Setting → Prop
  | emptyObject {gap : List Char} :
      Gap gap → Body ('\x7b' :: (gap ++ ['\x7d'])) []
  | object {s : List Char} {given : List Setting} :
      Members s given → (given.map Setting.field).Nodup →
      Body ('\x7b' :: (s ++ ['\x7d'])) given
  | emptyList {gap : List Char} :
      Gap gap → Body ('[' :: (gap ++ [']'])) []
  | oneElement {before s after : List Char} {value : Bool} :
      Gap before → Truth s value → Gap after →
      Body ('[' :: (before ++ (s ++ (after ++ [']'])))) [.enabled value]
  | twoElements {before s between behind t after : List Char}
      {value : Bool} {level : Severity} :
      Gap before → Truth s value → Gap between →
      Gap behind → Level t level → Gap after →
      Body
        ('[' :: (before ++ (s ++ (between ++ ',' ::
          (behind ++ (t ++ (after ++ [']'])))))))
        [.enabled value, .severity level]

/--
The settings are the given ones; what is not given is enabled, and a warning.
-/
structure Holds (given : List Setting) (settings : Settings) : Prop where
  enabled : ∀ value, .enabled value ∈ given → settings.enabled = value
  severity : ∀ level, .severity level ∈ given → settings.severity = level
  enabledMissing : (∀ value, .enabled value ∉ given) → settings.enabled = true
  severityMissing : (∀ level, .severity level ∉ given) → settings.severity = .warn

/-- A whole text, and the settings it means. -/
inductive Document : List Char → Settings → Prop
  | body {before s after : List Char} {given : List Setting}
      {settings : Settings} :
      Gap before → Body s given → Gap after → Holds given settings →
      Document (before ++ (s ++ after)) settings

end Grammar
end Config
end MethodLint
