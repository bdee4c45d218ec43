import MethodLint.Tree

/-!
# Arenas

An arena stores the nodes of one program in the order of their creation.  The
number of a node is its place.  Four tables stand side by side: the headers of
the nodes, their parents, and two pools with what only some nodes carry, the
names of identifiers and the callees and arguments of calls.  A header tells
by a number where its node has its share of a pool.

Parents are set afterwards: calls adopt their callee and arguments as they are
created, and any other link is made explicitly.

Links are not checked.  A link from a place that holds no node is dropped,
while a link *to* such a place is kept as it is.
-/

namespace MethodLint

/-- What an arena keeps of every node; `payload` is a place in a pool. -/
structure Header where
  kind : NodeKind
  span : Span
  payload : UInt32
deriving DecidableEq

namespace Header

def noPayload : UInt32 :=
  0xFFFFFFFF

/-- The header of a node that carries nothing but its kind. -/
def bare (kind : NodeKind) (span : Span) : Header :=
  ⟨kind, span, noPayload⟩

end Header

/-- What a call carries. -/
structure Invocation where
  callee : NodeId
  arguments : List NodeId
deriving DecidableEq

/-- The nodes of one program; the parent of a root is `absent`. -/
structure Arena where
  headers : Array Header
  parents : Array NodeId
  names : Array String
  invocations : Array Invocation
deriving DecidableEq

namespace Arena

def empty : Arena :=
  ⟨#[], #[], #[], #[]⟩

def size (arena : Arena) : Nat :=
  arena.headers.size

/-- The number that the next node will have. -/
def next (arena : Arena) : NodeId :=
  ⟨arena.size.toUInt32⟩

/-- Append a root, and tell its number. -/
def push (arena : Arena) (header : Header) : Arena × NodeId :=
  ({ arena with
      headers := arena.headers.push header
      parents := arena.parents.push .absent },
    arena.next)

/-- Make `parent` the parent of `child`, if `child` is a node. -/
def link (arena : Arena) (child parent : NodeId) : Arena :=
  if child = .absent then
    arena
  else
    { arena with parents := arena.parents.setIfInBounds child.slot parent }

/-- Make `parent` the parent of each of `children`, in order. -/
def linkAll (arena : Arena) (children : List NodeId) (parent : NodeId) : Arena :=
  children.foldl (fun arena child => arena.link child parent) arena

/-- Append a node that carries nothing but its kind. -/
def addBare (arena : Arena) (kind : NodeKind) (span : Span) : Arena × NodeId :=
  arena.push (.bare kind span)

def addName (arena : Arena) (name : String) (span : Span) : Arena × NodeId :=
  { arena with names := arena.names.push name }.push
    ⟨.identifier, span, arena.names.size.toUInt32⟩

/-- Append a call, which adopts its callee and then its arguments. -/
def addInvocation
    (arena : Arena)
    (callee : NodeId)
    (arguments : List NodeId)
    (span : Span) : Arena × NodeId :=
  let (grown, call) :=
    { arena with
      invocations := arena.invocations.push ⟨callee, arguments⟩ }.push
      ⟨.callExpression, span, arena.invocations.size.toUInt32⟩
  (grown.linkAll (callee :: arguments) call, call)

def header? (arena : Arena) (id : NodeId) : Option Header :=
  if id = .absent then none else arena.headers[id.slot]?

/-- The parent of a node; a root has none. -/
def parent? (arena : Arena) (id : NodeId) : Option NodeId :=
  if id = .absent then
    none
  else
    arena.parents[id.slot]?.filter fun parent => parent ≠ .absent

/--
What a node with the given header is.  A header whose number is no place in
the pool of its kind has nothing but the kind.
-/
def contentOf (arena : Arena) (header : Header) : Content :=
  if header.payload = Header.noPayload then
    .bare header.kind
  else
    match header.kind with
    | .identifier =>
        match arena.names[header.payload.toNat]? with
        | none => .bare .identifier
        | some name => .identifier header.payload name
    | .callExpression =>
        match arena.invocations[header.payload.toNat]? with
        | none => .bare .callExpression
        | some call => .call header.payload call.callee call.arguments
    | kind => .bare kind

def node? (arena : Arena) (id : NodeId) : Option Node :=
  (arena.header? id).map fun header => ⟨arena.contentOf header, header.span⟩

def content? (arena : Arena) (id : NodeId) : Option Content :=
  (arena.header? id).map arena.contentOf

def name? (arena : Arena) (id : NodeId) : Option String :=
  (arena.content? id).bind Content.name?

def callee? (arena : Arena) (id : NodeId) : Option NodeId :=
  (arena.content? id).bind Content.callee?

def tree (arena : Arena) : Tree where
  kind id := (arena.header? id).map Header.kind
  parent := arena.parent?
  callee := arena.callee?
  span id := (arena.header? id).map Header.span

end Arena

end MethodLint
