import MethodLint.Node.Basic

/-!
# Trees seen from below

The lint looks at a tree only upwards from an identifier.  A `Tree` is
therefore four questions about a node: its kind, its parent, its callee and
its span.  Nothing is assumed about the answers: parent links may form a
cycle, stop short, or lead to nodes of which nothing else is known.

**Algorithm.**  `climb` follows a number of parent links.  `ancestor` is the
same walk under a limit, because a walk longer than any real program is deep
can only come from corrupt links.
-/

namespace MethodLint

/-- The questions that a program tree answers about its nodes. -/
structure Tree where
  kind : NodeId → Option NodeKind
  parent : NodeId → Option NodeId
  callee : NodeId → Option NodeId
  span : NodeId → Option Span

namespace Tree

/-- The greatest number of parent links that one walk may follow. -/
def walkLimit : Nat :=
  10000

/--
The number of links from a called identifier up to the block of the method
body that holds the call: call, statement, block.
-/
def bodyDepth : Nat :=
  3

/-- The node reached by following `steps` parent links, if there are so many. -/
def climb (tree : Tree) : Nat → NodeId → Option NodeId
  | 0, node => some node
  | steps + 1, node =>
      match tree.parent node with
      | none => none
      | some up => tree.climb steps up

/-- The ancestor `steps` links up; none beyond the limit of a walk. -/
def ancestor (tree : Tree) (node : NodeId) (steps : Nat) : Option NodeId :=
  if walkLimit < steps then none else tree.climb steps node

@[simp] theorem climb_zero (tree : Tree) (node : NodeId) :
    tree.climb 0 node = some node :=
  rfl

theorem climb_succ (tree : Tree) (steps : Nat) (node : NodeId) :
    tree.climb (steps + 1) node =
      (tree.parent node).bind (tree.climb steps) := by
  cases h : tree.parent node <;> simp [climb, h]

end Tree

end MethodLint
