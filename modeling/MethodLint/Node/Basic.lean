import MethodLint.Node.Kind

/-!
# Syntax nodes

A node has a span of byte offsets and a content.  Only identifiers and calls
carry more than their kind: an identifier its name, a call its callee and its
arguments.  Nodes are referred to by 32-bit numbers, of which the greatest is
set aside for "no node".
-/

namespace MethodLint

structure NodeId where
  val : UInt32
deriving DecidableEq

namespace NodeId

/-- The number that no node has. -/
def absent : NodeId :=
  ⟨0xFFFFFFFF⟩

/-- The node number as a place in a table. -/
def slot (id : NodeId) : Nat :=
  id.val.toNat

theorem slot_injective : Function.Injective slot := by
  rintro ⟨first⟩ ⟨second⟩ hslot
  rw [mk.injEq]
  exact UInt32.toNat_inj.mp hslot

end NodeId

/-- A range of byte offsets in a source text, `stop` not included. -/
structure Span where
  start : UInt32
  stop : UInt32
deriving DecidableEq

namespace Span

/-- The number of bytes covered; a reversed span covers none. -/
def length (span : Span) : UInt32 :=
  if span.start ≤ span.stop then span.stop - span.start else 0

theorem toNat_length (span : Span) :
    span.length.toNat = span.stop.toNat - span.start.toNat := by
  unfold length
  split
  · next h =>
      exact UInt32.toNat_sub_of_le _ _ h
  · next h =>
      have hlt : span.stop.toNat < span.start.toNat :=
        Nat.lt_of_not_le h
      simp only [UInt32.toNat_zero]
      omega

/-- The span used for a node of which the tree knows no place. -/
def nowhere : Span :=
  ⟨0, 0⟩

end Span

/--
What a node is.  Identifiers and calls are numbered in the order of their
creation, each sort on its own.  A `bare` node carries nothing but its kind,
also when that kind is the one of identifiers or calls.
-/
inductive Content where
  | bare (kind : NodeKind)
  | identifier (serial : UInt32) (name : String)
  | call (serial : UInt32) (callee : NodeId) (arguments : List NodeId)
deriving DecidableEq

namespace Content

def kind : Content → NodeKind
  | bare kind => kind
  | identifier .. => .identifier
  | call .. => .callExpression

/-- The number of an identifier or a call among its like. -/
def serial? : Content → Option UInt32
  | bare _ => none
  | identifier serial _ => some serial
  | call serial .. => some serial

def name? : Content → Option String
  | identifier _ name => some name
  | _ => none

def callee? : Content → Option NodeId
  | call _ callee _ => some callee
  | _ => none

end Content

/-- A node: what it is, and the source it covers. -/
structure Node where
  content : Content
  span : Span
deriving DecidableEq

namespace Node

def kind (node : Node) : NodeKind :=
  node.content.kind

end Node

end MethodLint
