import MethodLint.Arena.Edit
import MethodLint.Scope.Record

/-!
# Programs being recorded

A front end builds the tree and tells about the scope at the same time.  A
`Program` holds both; a reference is looked up in the arena as it is at that
moment.
-/

namespace MethodLint

/-- A tree and a scope under construction. -/
structure Program where
  arena : Arena
  scope : Recorder
deriving DecidableEq

/-- One step of a front end: the tree is changed, or a fact is told. -/
inductive Step where
  | edit (edit : Edit)
  | tell (fact : Fact)
deriving DecidableEq

namespace Program

def empty : Program :=
  ⟨.empty, .empty⟩

/-- Carry out one step; the program that it leaves, and its refusal if any. -/
def perform (program : Program) :
    Step → Program × Except RecordError Unit
  | .edit edit =>
      ({ program with arena := program.arena.edit edit }, .ok ())
  | .tell fact =>
      let (scope, outcome) := program.scope.record program.arena fact
      ({ program with scope }, outcome)

/-- The program after one step, or the refusal of the step. -/
def step (program : Program) (step : Step) : Except RecordError Program :=
  let (next, outcome) := program.perform step
  outcome.map fun _ => next

/-- The program after one step, refused or not. -/
def advance (program : Program) (step : Step) : Program :=
  (program.perform step).1

def replay (program : Program) (history : List Step) : Program :=
  history.foldl advance program

end Program

end MethodLint
