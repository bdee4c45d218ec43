import MethodLint.Tree

/-!
# The shape of a call

A method written as `foo: function () … ` has no binding `foo` in its body, so
a call of `foo` there falls through to an undeclared global.  Such a call
shows three marks: the name is declared nowhere, the identifier is the callee
of its parent, and the third node above it is a block.

**Algorithm.**  The marks are tested in that order, and the verdict names the
first one that is missing.
-/

namespace MethodLint

/-- The verdict on one reference. -/
inductive CallShape where
  /-- An undeclared name is called right inside a block. -/
  | miswritten
  /-- The name stands for a declared variable. -/
  | declared
  /-- The identifier is not what its parent calls. -/
  | notCallee
  /-- The third node above the identifier is not a block. -/
  | notInBlock
  /-- There are too few nodes above the identifier. -/
  | truncated
deriving DecidableEq

namespace CallShape

/-- The verdict is worth a report. -/
def isMiswritten (shape : CallShape) : Bool :=
  shape == miswritten

end CallShape

namespace Tree

/-- The node is a call of the identifier. -/
def calls (tree : Tree) (node identifier : NodeId) : Bool :=
  tree.kind node == some .callExpression &&
    tree.callee node == some identifier

/-- The verdict on a reference, given whether its name is declared. -/
def shape (tree : Tree) (identifier : NodeId) (declared : Bool) : CallShape :=
  if declared then
    .declared
  else
    match tree.parent identifier with
    | none => .truncated
    | some call =>
        if tree.calls call identifier then
          match tree.ancestor identifier bodyDepth with
          | none => .truncated
          | some body =>
              if tree.kind body = some .blockStatement then
                .miswritten
              else
                .notInBlock
        else
          .notCallee

end Tree

end MethodLint
