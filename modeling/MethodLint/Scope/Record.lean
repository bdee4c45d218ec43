import MethodLint.Arena.Basic
import MethodLint.Scope.Basic

/-!
# Recording a scope

A front end tells what its analysis of a program found, one fact at a time.
Facts about one name gather in one variable, and the variables stand in the
order in which their names were first declared.  A fact that makes no sense is
refused.

**Algorithm.**  Beside the variables a recorder keeps an index from names to
their places, so that no fact has to search for its variable.
-/

namespace MethodLint

/-- Why a fact is refused. -/
inductive RecordError where
  | unnamed
  | notIdentifier (node : NodeId)
deriving DecidableEq

namespace RecordError

def message : RecordError → String
  | unnamed => "variable name must not be empty"
  | notIdentifier node =>
      "reference node " ++ Nat.repr node.slot ++ " is not an identifier"

end RecordError

/-- One fact about the scope of a program. -/
inductive Fact where
  | declared (name : String) (kind : DefinitionKind) (node : NodeId)
  | declaredGlobal (name : String) (writeable : Bool)
  | usedGlobal (name : String) (node : NodeId)
  | referred (node : NodeId)
deriving DecidableEq

/--
A scope under construction: its variables, the place of each name among them,
and the references that pass through.
-/
structure Recorder where
  bindings : List Variable
  places : List (String × Nat)
  through : List Reference
deriving DecidableEq

namespace Recorder

def empty : Recorder :=
  ⟨[], [], []⟩

def finish (recorder : Recorder) : Scope Variable :=
  ⟨recorder.bindings, recorder.through⟩

/-- Where a scope is asked for, a recorder stands for the one it has recorded. -/
instance : Coe Recorder (Scope Variable) :=
  ⟨finish⟩

/--
Find the place of a name, which must not be empty.  A name without a variable
gets one at the end.  Like every operation below, this gives the recorder that
is left behind, also where it is refused.
-/
def locate (recorder : Recorder) (name : String) :
    Recorder × Except RecordError Nat :=
  if name = "" then
    (recorder, .error .unnamed)
  else
    match recorder.places.lookup name with
    | some place => (recorder, .ok place)
    | none =>
        let place := recorder.bindings.length
        ({ recorder with
            bindings := recorder.bindings ++ [.undefined name]
            places := (name, place) :: recorder.places },
          .ok place)

/-- Change the variable with the given name. -/
def amend
    (recorder : Recorder)
    (name : String)
    (change : Variable → Variable) :
    Recorder × Except RecordError Unit :=
  match recorder.locate name with
  | (left, .error refusal) => (left, .error refusal)
  | (left, .ok place) =>
      ({ left with bindings := left.bindings.modify place change }, .ok ())

/-- Record a declaration written in the program. -/
def declare
    (recorder : Recorder)
    (name : String)
    (kind : DefinitionKind)
    (node : NodeId) :
    Recorder × Except RecordError Unit :=
  recorder.amend name fun v => v.define kind node

/-- Record a global that the configuration or a comment declares. -/
def declareMarked
    (recorder : Recorder)
    (name : String)
    (writeable : Bool) :
    Recorder × Except RecordError Unit :=
  recorder.amend name fun v =>
    (v.define .implicitGlobal .absent).mark writeable

/-- Record a global that exists only because the name was used. -/
def declareUsed
    (recorder : Recorder)
    (name : String)
    (node : NodeId) :
    Recorder × Except RecordError Unit :=
  recorder.amend name fun v => v.define .implicitGlobal node

/-- Record a reference that no inner scope binds. -/
def refer
    (recorder : Recorder)
    (arena : Arena)
    (node : NodeId) :
    Recorder × Except RecordError Unit :=
  match arena.name? node with
  | none => (recorder, .error (.notIdentifier node))
  | some name =>
      ({ recorder with through := recorder.through ++ [⟨node, name⟩] }, .ok ())

/-- Record one fact about a program whose nodes are in the arena. -/
def record (recorder : Recorder) (arena : Arena) :
    Fact → Recorder × Except RecordError Unit
  | .declared name kind node => recorder.declare name kind node
  | .declaredGlobal name writeable => recorder.declareMarked name writeable
  | .usedGlobal name node => recorder.declareUsed name node
  | .referred node => recorder.refer arena node

/-- The recorder after one fact, refused or not. -/
def absorb (recorder : Recorder) (arena : Arena) (fact : Fact) : Recorder :=
  (recorder.record arena fact).1

def replay (recorder : Recorder) (history : List (Arena × Fact)) : Recorder :=
  history.foldl (fun recorder (arena, fact) => recorder.absorb arena fact)
    recorder

end Recorder

namespace Scope

/-- The scope recorded by a history of facts. -/
def ofHistory (history : List (Arena × Fact)) : Scope Variable :=
  Recorder.empty.replay history

end Scope

end MethodLint
