import MethodLint.Rule

/-!
# Sinks

The rule hands its findings to a sink and never looks at it again.  A sink is
known by its state and by what taking in one finding does to that state; what
the state is made of stays its own affair.

**Forms.**  A list takes in a finding at its end.  A function is called with
each finding and may remember something from call to call.  A sink can be lent,
and then what the borrower takes in goes to the owner.
-/

namespace MethodLint

/-- Anything that takes in findings one at a time. -/
structure Sink where
  State : Type
  take : State → Diagnostic → State
  state : State

namespace Sink

def report (sink : Sink) (d : Diagnostic) : Sink :=
  { sink with state := sink.take sink.state d }

def list (held : List Diagnostic) : Sink where
  State := List Diagnostic
  take held d := held ++ [d]
  state := held

/-- A function that is called with each finding, and what it remembers. -/
def calling {κ : Type} (call : κ → Diagnostic → κ) (memory : κ) : Sink where
  State := κ
  take := call
  state := memory

/-- Access to a state that belongs to someone else. -/
structure Loan (σ : Type) where
  owner : σ

/-- The sink while it is lent: whatever the borrower takes in, its owner does. -/
def lent (sink : Sink) : Sink where
  State := Loan sink.State
  take loan d := ⟨sink.take loan.owner d⟩
  state := ⟨sink.state⟩

end Sink

namespace Rule

variable {β : Type} [Binding β]

/-- Hand every finding to a sink, which is given back as it was left. -/
def checkInto
    (settings : Settings)
    (file : String)
    (tree : Tree)
    (scope : Scope β)
    (sink : Sink) : Sink × Nat :=
  let (state, count) := check settings file tree scope sink.take sink.state
  ({ sink with state := state }, count)

end Rule

end MethodLint
