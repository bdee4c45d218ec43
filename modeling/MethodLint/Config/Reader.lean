import MethodLint.Config.Nested
import MethodLint.Config.Settings

/-!
# Reading settings

Settings are written as an object with the keys `enabled` and `severity`, or
as a list that gives the two in that order.  What is left out keeps its
standard value.

**Algorithm.**  A setting that is refused for what it *means*, not for how it
is written, has no place of its own: it is reported at the end of the
surrounding object or list, as far as that end can be read.  The fault of the
setting wins over any fault of the end.

**Results.**  `Settings.ofJson` is total: every text gives settings or one
error.
-/

namespace MethodLint
namespace Config

/-- A fault with a place, or a cause that waits for the end of its container. -/
inductive Refusal where
  | placed (fault : Fault)
  | pending (cause : Cause) (rest : List Char)

/-- A reader whose refusals may still wait for their place. -/
abbrev BodyReader (α : Type) : Type :=
  List Char → Except Refusal (α × List Char)

def severityLevels : Nat :=
  126

/-- The word `true` or `false`; any other value is of the wrong type. -/
def boolean (s : List Char) : Except Fault (Bool × List Char) :=
  match skipGap s with
  | [] => .error (.here .endInValue [])
  | c :: rest =>
      if c = 't' then
        (word ['r', 'u', 'e'] rest).map fun s => (true, s)
      else if c = 'f' then
        (word ['a', 'l', 's', 'e'] rest).map fun s => (false, s)
      else if c = '[' then
        .error (.here (.wrongType .list "a boolean") (c :: rest))
      else if c = '\x7b' then
        .error (.here (.wrongType .object "a boolean") (c :: rest))
      else
        match scalar (c :: rest) with
        | .error fault => .error fault
        | .ok (value, rest) =>
            .error (.here (.wrongType value "a boolean") rest)

/-- The severity that a value means. -/
def Value.severity (value : Value) : Except Cause Severity :=
  match value.spelling? with
  | none => .error .severityUnusable
  | some spelled =>
      match Severity.ofText? spelled with
      | none => .error (.severityUnknown spelled)
      | some meant => .ok meant

/-- A severity: any value is read whole, and then judged. -/
def severity : BodyReader Severity := fun s =>
  match value severityLevels s with
  | .error fault => .error (.placed fault)
  | .ok (value, rest) =>
      match value.severity with
      | .error cause => .error (.pending cause rest)
      | .ok severity => .ok (severity, rest)

structure Draft where
  enabled : Option Bool
  severity : Option Severity
deriving DecidableEq

namespace Draft

def blank : Draft :=
  ⟨none, none⟩

def missing (draft : Draft) : Nat :=
  (if draft.enabled.isNone then 1 else 0) +
    (if draft.severity.isNone then 1 else 0)

/-- The settings, with standard values for what has not been read. -/
def settings (draft : Draft) : Settings where
  enabled := draft.enabled.getD Settings.standard.enabled
  severity := draft.severity.getD Settings.standard.severity

end Draft

/-- The settings of an object, read after its opening brace. -/
def objectBody (first : Bool) (draft : Draft) (s : List Char) :
    Except Refusal (Draft × List Char) :=
  match nextKey first s with
  | .error fault => .error (.placed fault)
  | .ok (none, rest) => .ok (draft, rest)
  | .ok (some text, rest) =>
      match Field.ofKey? text with
      | none => .error (.pending (.unknownKey text) rest)
      | some .enabled =>
          match _h : draft.enabled with
          | some _ => .error (.pending (.repeatedKey .enabled) rest)
          | none =>
              match colon rest with
              | .error fault => .error (.placed fault)
              | .ok rest =>
                  match boolean rest with
                  | .error fault => .error (.placed fault)
                  | .ok (given, rest) =>
                      objectBody false { draft with enabled := some given } rest
      | some .severity =>
          match _h : draft.severity with
          | some _ => .error (.pending (.repeatedKey .severity) rest)
          | none =>
              match colon rest with
              | .error fault => .error (.placed fault)
              | .ok rest =>
                  match severity rest with
                  | .error refusal => .error refusal
                  | .ok (given, rest) =>
                      objectBody false { draft with severity := some given } rest
termination_by draft.missing
decreasing_by
  · simp [Draft.missing, _h]
  · simp [Draft.missing, _h]

/-- The second element of a list, if there is one, after the first. -/
def listTail (given : Bool) : BodyReader Draft := fun s =>
  match nextElement false s with
  | .error fault => .error (.placed fault)
  | .ok (false, rest) => .ok (⟨some given, none⟩, rest)
  | .ok (true, rest) =>
      match severity rest with
      | .error refusal => .error refusal
      | .ok (level, rest) => .ok (⟨some given, some level⟩, rest)

/-- The settings of a list, read after its opening bracket. -/
def listBody : BodyReader Draft := fun s =>
  match nextElement true s with
  | .error fault => .error (.placed fault)
  | .ok (false, rest) => .ok (.blank, rest)
  | .ok (true, rest) =>
      match boolean rest with
      | .error fault => .error (.placed fault)
      | .ok (given, rest) => listTail given rest

/--
The end of a container after its body.  A pending cause gets its place where
reading the end comes to a stop, whether or not the end is there.
-/
def settle {α : Type} (closing : Closing) :
    Except Refusal (α × List Char) → Except Fault (α × List Char)
  | .error (.placed fault) => .error fault
  | .error (.pending cause rest) => .error (.here cause (closing rest).2)
  | .ok (body, rest) => (close closing rest).map fun s => (body, s)

def container (s : List Char) : Except Fault (Draft × List Char) :=
  match skipGap s with
  | [] => .error (.here .endInValue [])
  | c :: rest =>
      if c = '\x7b' then
        settle closeObject (objectBody true .blank rest)
      else if c = '[' then
        settle closeList (listBody rest)
      else
        match scalar (c :: rest) with
        | .error fault => .error fault
        | .ok (value, rest) =>
            .error (.here (.wrongType value "struct RuleConfig") rest)

/-- The settings that a whole text gives. -/
def document (s : List Char) : Except Fault Settings :=
  match container s with
  | .error fault => .error fault
  | .ok (draft, rest) =>
      match skipGap rest with
      | [] => .ok draft.settings
      | c :: rest => .error (.ahead .textTrailing (c :: rest))

end Config

namespace Settings

def ofJson (text : String) : Except SettingsError Settings :=
  match Config.document text.toList with
  | .ok settings => .ok settings
  | .error fault => .error (.ofFault text fault)

end Settings

end MethodLint
