import MethodLint.Arena.Basic

/-!
# Histories of an arena

An `Edit` is one operation on an arena, kept as data, so that a whole history
of operations can be spoken about and replayed.
-/

namespace MethodLint

/-- One operation on an arena. -/
inductive Edit where
  | bare (kind : NodeKind) (span : Span)
  | name (name : String) (span : Span)
  | invocation (callee : NodeId) (arguments : List NodeId) (span : Span)
  | link (child parent : NodeId)
  | linkAll (children : List NodeId) (parent : NodeId)
deriving DecidableEq

namespace Edit

/-- The operation appends a node. -/
def creates : Edit → Bool
  | bare .. | name .. | invocation .. => true
  | link .. | linkAll .. => false

end Edit

namespace Arena

/-- Carry out one operation; one that appends a node answers its number. -/
def perform (arena : Arena) : Edit → Arena × Option NodeId
  | .bare kind span =>
      let (grown, id) := arena.addBare kind span
      (grown, some id)
  | .name name span =>
      let (grown, id) := arena.addName name span
      (grown, some id)
  | .invocation callee arguments span =>
      let (grown, id) := arena.addInvocation callee arguments span
      (grown, some id)
  | .link child parent => (arena.link child parent, none)
  | .linkAll children parent => (arena.linkAll children parent, none)

def edit (arena : Arena) (edit : Edit) : Arena :=
  (arena.perform edit).1

/-- The number of the node that an operation appends. -/
def created? (arena : Arena) (edit : Edit) : Option NodeId :=
  (arena.perform edit).2

def replay (arena : Arena) (history : List Edit) : Arena :=
  history.foldl edit arena

end Arena

end MethodLint
