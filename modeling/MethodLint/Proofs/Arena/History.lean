import MethodLint.Arena.Edit
import Mathlib.Data.List.Induction

/-!
# What an arena holds

An arena is built by a history of operations.  This module tells from the
history alone what its tables hold.

**Specification.**  `Edit.nodes` are the nodes of a history, in order of
creation, with identifiers and calls numbered apart.  `Edit.writes` are the
links that a history makes, each with the number of nodes at its moment; a
call links its callee and arguments to itself once it is there.  The parent
of a node is the one of the last link that was made while the node was there.

**Invariant.**  `Arena.Reflects` says of each of the four tables what it
holds.  Every operation keeps it as long as the numbers of nodes fit in a
word, and what the queries answer follows from it.
-/

namespace MethodLint

namespace NodeId

@[simp] theorem slot_absent : absent.slot = UInt32.size - 1 := by
  rfl

theorem slot_ofNat {place : Nat} (hplace : place < UInt32.size) :
    (⟨place.toUInt32⟩ : NodeId).slot = place :=
  UInt32.toNat_ofNat_of_lt' hplace

end NodeId

namespace Node

/-- The header of a node that is filed under its own number. -/
def header (node : Node) : Header :=
  ⟨node.kind, node.span, node.content.serial?.getD Header.noPayload⟩

/-- What a node carries besides its kind is in the pools, at its number. -/
def Filed
    (names : List String)
    (calls : List Invocation)
    (node : Node) : Prop :=
  match node.content with
  | .bare _ => True
  | .identifier serial name =>
      serial ≠ Header.noPayload ∧ names[serial.toNat]? = some name
  | .call serial callee arguments =>
      serial ≠ Header.noPayload ∧
        calls[serial.toNat]? = some ⟨callee, arguments⟩

/-- What is filed stays filed when the pools grow at the end. -/
theorem Filed.append
    {names : List String} {calls : List Invocation} {node : Node}
    (hfiled : node.Filed names calls)
    (moreNames : List String)
    (moreCalls : List Invocation) :
    node.Filed (names ++ moreNames) (calls ++ moreCalls) := by
  rcases node with ⟨content, span⟩
  cases content with
  | bare kind =>
      trivial
  | identifier serial name =>
      rcases hfiled with ⟨hserial, hname⟩
      have hplace := (List.getElem?_eq_some_iff.mp hname).1
      exact ⟨hserial, by rw [List.getElem?_append_left hplace, hname]⟩
  | call serial callee arguments =>
      rcases hfiled with ⟨hserial, hcall⟩
      have hplace := (List.getElem?_eq_some_iff.mp hcall).1
      exact ⟨hserial, by rw [List.getElem?_append_left hplace, hcall]⟩

end Node

namespace Header

/-- A number below that of no payload keeps its value in a word. -/
theorem toUInt32_ne_noPayload
    {serial : Nat}
    (hserial : serial < UInt32.size - 1) :
    serial.toUInt32 ≠ noPayload ∧ serial.toUInt32.toNat = serial := by
  have hvalue : serial.toUInt32.toNat = serial :=
    UInt32.toNat_ofNat_of_lt' (Nat.lt_of_lt_of_le hserial (Nat.sub_le _ _))
  refine ⟨?_, hvalue⟩
  intro heq
  have htop : noPayload.toNat = UInt32.size - 1 := by
    rfl
  rw [heq, htop] at hvalue
  omega

end Header

namespace Edit

/-- The name that an operation adds to the pool of names. -/
def name? : Edit → Option String
  | name text _ => some text
  | _ => none

/-- What an operation adds to the pool of calls. -/
def invocation? : Edit → Option Invocation
  | invocation callee arguments _ => some ⟨callee, arguments⟩
  | _ => none

/--
The node that an operation appends, given how many identifiers and how many
calls there are before it.
-/
def node? (identifiers calls : Nat) : Edit → Option Node
  | bare kind span => some ⟨.bare kind, span⟩
  | name text span => some ⟨.identifier identifiers.toUInt32 text, span⟩
  | invocation callee arguments span =>
      some ⟨.call calls.toUInt32 callee arguments, span⟩
  | link .. => none
  | linkAll .. => none

/-- The nodes that a history appends after the operations of the past. -/
def nodesAfter (past : List Edit) : List Edit → List Node
  | [] => []
  | edit :: rest =>
      (edit.node? (past.filterMap name?).length
          (past.filterMap invocation?).length).toList ++
        nodesAfter (past ++ [edit]) rest

def nodes (history : List Edit) : List Node :=
  nodesAfter [] history

/-- A parent given to a child while there are `size` nodes. -/
structure Write where
  size : Nat
  child : NodeId
  parent : NodeId
deriving DecidableEq

/-- The links that an operation makes in an arena of `size` nodes. -/
def writes (size : Nat) : Edit → List Write
  | bare .. => []
  | name .. => []
  | invocation callee arguments _ =>
      (callee :: arguments).map fun child =>
        ⟨size + 1, child, ⟨size.toUInt32⟩⟩
  | link child parent => [⟨size, child, parent⟩]
  | linkAll children parent =>
      children.map fun child => ⟨size, child, parent⟩

/-- The links that a history makes after the operations of the past. -/
def writesAfter (past : List Edit) : List Edit → List Write
  | [] => []
  | edit :: rest =>
      edit.writes (past.countP creates) ++ writesAfter (past ++ [edit]) rest

/--
The parent given last to the node at a place, as far as the node was there.
A node to which none was given has the parent of a root.
-/
def lastParent (written : List Write) (place : Nat) : NodeId :=
  ((written.filter fun write =>
      write.child.slot = place ∧ place < write.size).getLast?.map
    Write.parent).getD .absent

theorem nodesAfter_append (past history : List Edit) (edit : Edit) :
    nodesAfter past (history ++ [edit]) =
      nodesAfter past history ++
        (edit.node? ((past ++ history).filterMap name?).length
          ((past ++ history).filterMap invocation?).length).toList := by
  induction history generalizing past with
  | nil =>
      simp [nodesAfter]
  | cons first rest ih =>
      simp [nodesAfter, ih]

theorem nodes_append (history : List Edit) (edit : Edit) :
    nodes (history ++ [edit]) =
      nodes history ++
        (edit.node? (history.filterMap name?).length
          (history.filterMap invocation?).length).toList :=
  nodesAfter_append [] history edit

/-- A node stays where it was created. -/
theorem getElem?_nodes_append
    {history : List Edit} {place : Nat} {node : Node}
    (hnode : (nodes history)[place]? = some node)
    (edit : Edit) :
    (nodes (history ++ [edit]))[place]? = some node := by
  rw [nodes_append,
    List.getElem?_append_left (List.getElem?_eq_some_iff.mp hnode).1]
  exact hnode

theorem writesAfter_append (past history : List Edit) (edit : Edit) :
    writesAfter past (history ++ [edit]) =
      writesAfter past history ++
        edit.writes ((past ++ history).countP creates) := by
  induction history generalizing past with
  | nil =>
      simp [writesAfter]
  | cons first rest ih =>
      simp [writesAfter, ih]

theorem length_toList_node? (identifiers calls : Nat) (edit : Edit) :
    (edit.node? identifiers calls).toList.length =
      [edit].countP creates := by
  cases edit <;> rfl

theorem length_nodes (history : List Edit) :
    (nodes history).length = history.countP creates := by
  induction history using List.reverseRecOn with
  | nil =>
      rfl
  | append_singleton history edit ih =>
      rw [nodes_append, List.length_append, List.countP_append,
        length_toList_node?, ih]

theorem lastParent_append_singleton
    (written : List Write) (write : Write) (place : Nat) :
    lastParent (written ++ [write]) place =
      if write.child.slot = place ∧ place < write.size then
        write.parent
      else
        lastParent written place := by
  by_cases hhits : write.child.slot = place ∧ place < write.size
  · simp [lastParent, hhits]
  · simp [lastParent, hhits]

theorem length_filterMap_name?_le (history : List Edit) :
    (history.filterMap name?).length ≤ history.countP creates := by
  rw [List.length_filterMap_eq_countP]
  apply List.countP_mono_left
  intro edit _ hsome
  cases edit with
  | name =>
      rfl
  | bare | invocation | link | linkAll =>
      cases hsome

theorem length_filterMap_invocation?_le (history : List Edit) :
    (history.filterMap invocation?).length ≤ history.countP creates := by
  rw [List.length_filterMap_eq_countP]
  apply List.countP_mono_left
  intro edit _ hsome
  cases edit with
  | invocation =>
      rfl
  | bare | name | link | linkAll =>
      cases hsome

theorem filed_of_mem_nodes
    {history : List Edit} {node : Node}
    (hfew : history.countP creates < UInt32.size - 1)
    (hnode : node ∈ nodes history) :
    node.Filed (history.filterMap name?) (history.filterMap invocation?) := by
  induction history using List.reverseRecOn with
  | nil =>
      simp [nodes, nodesAfter] at hnode
  | append_singleton history edit ih =>
      have hpast : history.countP creates < UInt32.size - 1 := by
        rw [List.countP_append] at hfew
        omega
      rw [nodes_append, List.mem_append] at hnode
      rw [List.filterMap_append, List.filterMap_append]
      rcases hnode with hold | hnew
      · exact (ih hpast hold).append _ _
      · -- The serial of the new node is the length of its pool so far.
        have hnames :=
          Header.toUInt32_ne_noPayload
            (Nat.lt_of_le_of_lt (length_filterMap_name?_le history) hpast)
        have hcalls :=
          Header.toUInt32_ne_noPayload
            (Nat.lt_of_le_of_lt (length_filterMap_invocation?_le history)
              hpast)
        cases edit with
        | bare kind span =>
            obtain rfl : node = ⟨.bare kind, span⟩ := by
              simpa [node?] using hnew
            trivial
        | name text span =>
            obtain rfl :
                node =
                  ⟨.identifier (history.filterMap name?).length.toUInt32 text,
                    span⟩ := by
              simpa [node?] using hnew
            refine ⟨hnames.1, ?_⟩
            rw [hnames.2]
            simp [name?]
        | invocation callee arguments span =>
            obtain rfl :
                node =
                  ⟨.call (history.filterMap invocation?).length.toUInt32
                    callee arguments, span⟩ := by
              simpa [node?] using hnew
            refine ⟨hcalls.1, ?_⟩
            rw [hcalls.2]
            simp [invocation?]
        | link | linkAll =>
            simp [node?] at hnew

/-- A link tells of no more nodes than there are in the end. -/
theorem size_le_of_mem_writesAfter
    {history : List Edit} {write : Write}
    (hwrite : write ∈ writesAfter [] history) :
    write.size ≤ history.countP creates := by
  induction history using List.reverseRecOn with
  | nil =>
      simp [writesAfter] at hwrite
  | append_singleton history edit ih =>
      rw [writesAfter_append, List.mem_append, List.nil_append] at hwrite
      rw [List.countP_append]
      rcases hwrite with hold | hnew
      · exact Nat.le_add_right_of_le (ih hold)
      · cases edit with
        | bare | name =>
            simp [writes] at hnew
        | link child parent =>
            simp only [writes, List.mem_singleton] at hnew
            simp [hnew]
        | linkAll children parent =>
            obtain ⟨child, -, rfl⟩ := List.mem_map.mp hnew
            simp
        | invocation callee arguments span =>
            obtain ⟨child, -, rfl⟩ := List.mem_map.mp hnew
            simp [creates]

/-- A node that was never there has been given no parent. -/
theorem lastParent_of_size_le
    {written : List Write} {place : Nat}
    (hsizes : ∀ write ∈ written, write.size ≤ place) :
    lastParent written place = .absent := by
  have hnone :
      (written.filter fun write =>
        write.child.slot = place ∧ place < write.size) = [] := by
    rw [List.filter_eq_nil_iff]
    intro write hwrite hhits
    have hlt : place < write.size := by
      simpa using (decide_eq_true_eq.mp hhits).2
    exact absurd (hsizes write hwrite) (Nat.not_le.mpr hlt)
  rw [lastParent, hnone]
  rfl

end Edit

namespace Arena

section Links

variable {arena : Arena} {written : List Edit.Write}

@[simp] theorem headers_link (arena : Arena) (child parent : NodeId) :
    (arena.link child parent).headers = arena.headers := by
  unfold link
  split <;> rfl

@[simp] theorem names_link (arena : Arena) (child parent : NodeId) :
    (arena.link child parent).names = arena.names := by
  unfold link
  split <;> rfl

@[simp] theorem invocations_link (arena : Arena) (child parent : NodeId) :
    (arena.link child parent).invocations = arena.invocations := by
  unfold link
  split <;> rfl

@[simp] theorem size_parents_link (arena : Arena) (child parent : NodeId) :
    (arena.link child parent).parents.size = arena.parents.size := by
  unfold link
  split
  · rfl
  · exact Array.size_setIfInBounds

theorem headers_push (arena : Arena) (header : Header) :
    (arena.push header).1.headers.toList =
      arena.headers.toList ++ [header] := by
  simp [push]

/-- Links change the table of parents only. -/
theorem tables_linkAll
    (arena : Arena)
    (children : List NodeId)
    (parent : NodeId) :
    (arena.linkAll children parent).headers = arena.headers ∧
    (arena.linkAll children parent).names = arena.names ∧
    (arena.linkAll children parent).invocations = arena.invocations ∧
    (arena.linkAll children parent).parents.size = arena.parents.size := by
  induction children generalizing arena with
  | nil =>
      exact ⟨rfl, rfl, rfl, rfl⟩
  | cons child rest ih =>
      simpa [linkAll] using ih (arena.link child parent)

@[simp] theorem headers_linkAll
    (arena : Arena) (children : List NodeId) (parent : NodeId) :
    (arena.linkAll children parent).headers = arena.headers :=
  (tables_linkAll arena children parent).1

@[simp] theorem names_linkAll
    (arena : Arena) (children : List NodeId) (parent : NodeId) :
    (arena.linkAll children parent).names = arena.names :=
  (tables_linkAll arena children parent).2.1

@[simp] theorem invocations_linkAll
    (arena : Arena) (children : List NodeId) (parent : NodeId) :
    (arena.linkAll children parent).invocations = arena.invocations :=
  (tables_linkAll arena children parent).2.2.1

@[simp] theorem size_parents_linkAll
    (arena : Arena) (children : List NodeId) (parent : NodeId) :
    (arena.linkAll children parent).parents.size = arena.parents.size :=
  (tables_linkAll arena children parent).2.2.2

/-- Each node has the parent that the given links gave it last. -/
def Linked (parents : Array NodeId) (written : List Edit.Write) : Prop :=
  ∀ place < parents.size,
    parents[place]? = some (Edit.lastParent written place)

/-- A link is one more write; the number of no node is not a place. -/
theorem Linked.link
    (hlinked : Linked arena.parents written)
    (hfits : arena.parents.size < UInt32.size)
    (child parent : NodeId) :
    Linked (arena.link child parent).parents
      (written ++ [⟨arena.parents.size, child, parent⟩]) := by
  intro place hplace
  rw [size_parents_link] at hplace
  rw [Edit.lastParent_append_singleton]
  unfold Arena.link
  split
  · next habsent =>
      -- The number of no node lies above every place that can be linked.
      have hmiss : ¬ child.slot = place := by
        rw [habsent, NodeId.slot_absent]
        omega
      simp [hmiss, hlinked place hplace]
  · by_cases heq : child.slot = place
    · simp [heq, hplace]
    · simp [heq, hlinked place hplace]

theorem Linked.linkAll
    (hlinked : Linked arena.parents written)
    (hfits : arena.parents.size < UInt32.size)
    (children : List NodeId)
    (parent : NodeId) :
    Linked (arena.linkAll children parent).parents
      (written ++
        children.map fun child => ⟨arena.parents.size, child, parent⟩) := by
  induction children generalizing arena written with
  | nil =>
      simpa [Arena.linkAll] using hlinked
  | cons child rest ih =>
      have hnext := hlinked.link hfits child parent
      simpa [Arena.linkAll] using ih hnext (by simpa using hfits)

/-- A new node is a root as long as no link to it was made. -/
theorem Linked.push
    {parents : Array NodeId}
    (hlinked : Linked parents written)
    (hsizes : ∀ write ∈ written, write.size ≤ parents.size) :
    Linked (parents.push .absent) written := by
  intro place hplace
  rw [Array.size_push] at hplace
  rw [Array.getElem?_push]
  by_cases heq : place = parents.size
  · -- Links made ahead of the node were dropped.
    subst heq
    simp [Edit.lastParent_of_size_le hsizes]
  · rw [if_neg heq]
    exact hlinked place (by omega)

end Links

section Operations

theorem edit_link (arena : Arena) (child parent : NodeId) :
    arena.edit (.link child parent) = arena.link child parent := by
  rfl

theorem edit_linkAll
    (arena : Arena)
    (children : List NodeId)
    (parent : NodeId) :
    arena.edit (.linkAll children parent) =
      arena.linkAll children parent := by
  rfl

/-! What one operation does to each of the tables. -/

theorem headers_edit (arena : Arena) (edit : Edit) :
    (arena.edit edit).headers.toList =
      arena.headers.toList ++
        ((edit.node? arena.names.size arena.invocations.size).map
          Node.header).toList := by
  cases edit with
  | bare kind span =>
      exact headers_push arena _
  | name text span =>
      exact headers_push _ _
  | invocation callee arguments span =>
      change (linkAll _ _ _).headers.toList = _
      rw [headers_linkAll]
      exact headers_push _ _
  | link child parent =>
      simp [edit_link, Edit.node?]
  | linkAll children parent =>
      simp [edit_linkAll, Edit.node?]

theorem names_edit (arena : Arena) (edit : Edit) :
    (arena.edit edit).names.toList =
      arena.names.toList ++ edit.name?.toList := by
  cases edit with
  | bare kind span =>
      exact (List.append_nil _).symm
  | name text span =>
      exact Array.toList_push
  | invocation callee arguments span =>
      change (linkAll _ _ _).names.toList = _
      rw [names_linkAll]
      exact (List.append_nil _).symm
  | link child parent =>
      simp [edit_link, Edit.name?]
  | linkAll children parent =>
      simp [edit_linkAll, Edit.name?]

theorem invocations_edit (arena : Arena) (edit : Edit) :
    (arena.edit edit).invocations.toList =
      arena.invocations.toList ++ edit.invocation?.toList := by
  cases edit with
  | bare kind span =>
      exact (List.append_nil _).symm
  | name text span =>
      exact (List.append_nil _).symm
  | invocation callee arguments span =>
      change (linkAll _ _ _).invocations.toList = _
      rw [invocations_linkAll]
      exact Array.toList_push
  | link child parent =>
      simp [edit_link, Edit.invocation?]
  | linkAll children parent =>
      simp [edit_linkAll, Edit.invocation?]

theorem size_headers_edit (arena : Arena) (edit : Edit) :
    (arena.edit edit).headers.size =
      arena.headers.size + [edit].countP Edit.creates := by
  rw [← Array.length_toList, headers_edit, List.length_append]
  cases edit <;> rfl

theorem size_parents_edit (arena : Arena) (edit : Edit) :
    (arena.edit edit).parents.size =
      arena.parents.size + [edit].countP Edit.creates := by
  cases edit with
  | bare kind span =>
      exact Array.size_push _
  | name text span =>
      exact Array.size_push _
  | invocation callee arguments span =>
      change (linkAll _ _ _).parents.size = _
      rw [size_parents_linkAll]
      exact Array.size_push _
  | link child parent =>
      exact size_parents_link arena child parent
  | linkAll children parent =>
      exact size_parents_linkAll arena children parent

/-- Each operation makes its links, in the arena as it then is. -/
theorem Linked.edit
    {arena : Arena} {written : List Edit.Write}
    (hlinked : Linked arena.parents written)
    (hsizes : ∀ write ∈ written, write.size ≤ arena.parents.size)
    (hparents : arena.parents.size = arena.headers.size)
    (edit : Edit)
    (hfits : arena.parents.size + [edit].countP Edit.creates < UInt32.size) :
    Linked (arena.edit edit).parents
      (written ++ edit.writes arena.parents.size) := by
  cases edit with
  | bare kind span =>
      rw [Edit.writes, List.append_nil]
      exact hlinked.push hsizes
  | name text span =>
      rw [Edit.writes, List.append_nil]
      exact hlinked.push hsizes
  | invocation callee arguments span =>
      -- The call is there before it adopts, so that it may adopt itself.
      let grown :=
        ({ arena with
            invocations := arena.invocations.push ⟨callee, arguments⟩ }.push
          ⟨.callExpression, span, arena.invocations.size.toUInt32⟩).1
      have hsize : grown.parents.size = arena.parents.size + 1 :=
        Array.size_push _
      have hgrown : Linked grown.parents written :=
        hlinked.push hsizes
      have hadopted :=
        hgrown.linkAll (hsize ▸ hfits) (callee :: arguments) arena.next
      have hnext : arena.next = ⟨arena.parents.size.toUInt32⟩ := by
        rw [next, Arena.size, hparents]
      rw [Edit.writes, ← hnext, ← hsize]
      exact hadopted
  | link child parent =>
      exact hlinked.link hfits child parent
  | linkAll children parent =>
      exact hlinked.linkAll hfits children parent

end Operations

/-- The four tables hold what the history put there. -/
structure Reflects (arena : Arena) (history : List Edit) : Prop where
  headers : arena.headers.toList = (Edit.nodes history).map Node.header
  names : arena.names.toList = history.filterMap Edit.name?
  invocations : arena.invocations.toList = history.filterMap Edit.invocation?
  parents : arena.parents.size = arena.headers.size
  linked : Linked arena.parents (Edit.writesAfter [] history)

theorem empty_reflects : empty.Reflects [] where
  headers := rfl
  names := rfl
  invocations := rfl
  parents := rfl
  linked := by
    intro place hplace
    exact absurd hplace (Nat.not_lt_zero place)

section Steps

variable {arena : Arena} {history : List Edit}

theorem Reflects.size (hreflects : arena.Reflects history) :
    arena.size = history.countP Edit.creates := by
  rw [Arena.size, ← Array.length_toList, hreflects.headers, List.length_map,
    Edit.length_nodes]

/-- Every link so far tells of no more nodes than there are. -/
theorem Reflects.size_le
    (hreflects : arena.Reflects history)
    (write : Edit.Write)
    (hwrite : write ∈ Edit.writesAfter [] history) :
    write.size ≤ arena.parents.size := by
  have hsize := hreflects.size
  rw [Arena.size, ← hreflects.parents] at hsize
  rw [hsize]
  exact Edit.size_le_of_mem_writesAfter hwrite

/-- Every operation is reflected, as long as the nodes can be numbered. -/
theorem Reflects.edit
    (hreflects : arena.Reflects history)
    (edit : Edit)
    (hfew : (history ++ [edit]).countP Edit.creates < UInt32.size) :
    (arena.edit edit).Reflects (history ++ [edit]) := by
  have hsize : arena.parents.size = history.countP Edit.creates := by
    rw [hreflects.parents]
    exact hreflects.size
  have hnames : arena.names.size = (history.filterMap Edit.name?).length := by
    rw [← hreflects.names, Array.length_toList]
  have hcalls :
      arena.invocations.size = (history.filterMap Edit.invocation?).length := by
    rw [← hreflects.invocations, Array.length_toList]
  rw [List.countP_append, ← hsize] at hfew
  refine ⟨?_, ?_, ?_, ?_, ?_⟩
  · rw [headers_edit, hreflects.headers, hnames, hcalls, Edit.nodes_append,
      List.map_append, Option.toList_map]
  · rw [names_edit, hreflects.names, List.filterMap_append]
    cases edit <;> rfl
  · rw [invocations_edit, hreflects.invocations, List.filterMap_append]
    cases edit <;> rfl
  · rw [size_parents_edit, size_headers_edit, hreflects.parents]
  · rw [Edit.writesAfter_append, List.nil_append, ← hsize]
    exact hreflects.linked.edit hreflects.size_le hreflects.parents edit hfew

theorem Reflects.replay
    {past : List Edit}
    (hreflects : arena.Reflects past)
    (history : List Edit)
    (hfew : (past ++ history).countP Edit.creates < UInt32.size) :
    (arena.replay history).Reflects (past ++ history) := by
  induction history generalizing arena past with
  | nil =>
      simpa [Arena.replay] using hreflects
  | cons edit rest ih =>
      have hsplit : past ++ edit :: rest = past ++ [edit] ++ rest := by
        simp
      rw [hsplit] at hfew ⊢
      have hfirst : (past ++ [edit]).countP Edit.creates < UInt32.size := by
        rw [List.countP_append] at hfew
        omega
      exact ih (hreflects.edit edit hfirst) hfew

end Steps

section Queries

variable {arena : Arena} {history : List Edit}

theorem Reflects.header?
    (hreflects : arena.Reflects history)
    (hfew : history.countP Edit.creates < UInt32.size)
    (id : NodeId) :
    arena.header? id = ((Edit.nodes history)[id.slot]?).map Node.header := by
  rw [← List.getElem?_map, ← hreflects.headers, Array.getElem?_toList]
  unfold Arena.header?
  split
  · next habsent =>
      have hsize : arena.headers.size < UInt32.size := by
        have hcount := hreflects.size
        rw [Arena.size] at hcount
        omega
      rw [habsent, NodeId.slot_absent]
      symm
      rw [Array.getElem?_eq_none_iff]
      omega
  · rfl

/-- Whatever a filed node is can be read off its header. -/
theorem contentOf_header
    {arena : Arena} {node : Node}
    (hfiled : node.Filed arena.names.toList arena.invocations.toList) :
    arena.contentOf node.header = node.content := by
  rcases node with ⟨content, span⟩
  cases content with
  | bare kind =>
      simp [contentOf, Node.header, Node.kind, Content.kind, Content.serial?]
  | identifier serial name =>
      rcases hfiled with ⟨hserial, hname⟩
      rw [Array.getElem?_toList] at hname
      simp [contentOf, Node.header, Node.kind, Content.kind,
        Content.serial?, hserial, hname]
  | call serial callee arguments =>
      rcases hfiled with ⟨hserial, hcall⟩
      rw [Array.getElem?_toList] at hcall
      simp [contentOf, Node.header, Node.kind, Content.kind,
        Content.serial?, hserial, hcall]

theorem Reflects.content?
    (hreflects : arena.Reflects history)
    (hfew : history.countP Edit.creates < UInt32.size - 1)
    (id : NodeId) :
    arena.content? id = ((Edit.nodes history)[id.slot]?).map Node.content := by
  rw [Arena.content?, hreflects.header? (by omega) id]
  cases hnode : (Edit.nodes history)[id.slot]? with
  | none =>
      rfl
  | some node =>
      have hfiled :=
        Edit.filed_of_mem_nodes hfew (List.mem_of_getElem? hnode)
      rw [← hreflects.names, ← hreflects.invocations] at hfiled
      exact congrArg some (contentOf_header hfiled)

/-- The parent of a node is the one given last, unless it was taken away. -/
theorem Reflects.parent?
    (hreflects : arena.Reflects history)
    (hfew : history.countP Edit.creates < UInt32.size)
    (id : NodeId) :
    arena.parent? id =
      if Edit.lastParent (Edit.writesAfter [] history) id.slot = .absent then
        none
      else
        some (Edit.lastParent (Edit.writesAfter [] history) id.slot) := by
  have hcount : arena.parents.size = history.countP Edit.creates := by
    rw [hreflects.parents]
    exact hreflects.size
  by_cases hplace : id.slot < arena.parents.size
  · have hpresent : id ≠ .absent := by
      rintro rfl
      rw [NodeId.slot_absent] at hplace
      omega
    simp [Arena.parent?, hpresent, hreflects.linked id.slot hplace,
      Option.filter_some]
  · -- Not a node: every link to it was made ahead of it.
    have hroot :
        Edit.lastParent (Edit.writesAfter [] history) id.slot = .absent := by
      apply Edit.lastParent_of_size_le
      intro write hwrite
      exact Nat.le_trans (hreflects.size_le write hwrite) (Nat.not_lt.mp hplace)
    have hnone : arena.parents[id.slot]? = none := by
      rw [Array.getElem?_eq_none_iff]
      exact Nat.not_lt.mp hplace
    simp [Arena.parent?, hroot, hnone]

end Queries

/-- The numbers that the operations of a history answer. -/
def answers (arena : Arena) : List Edit → List NodeId
  | [] => []
  | edit :: rest =>
      (arena.created? edit).toList ++ (arena.edit edit).answers rest

theorem created?_eq (arena : Arena) (edit : Edit) :
    arena.created? edit = if edit.creates then some arena.next else none := by
  cases edit <;> rfl

theorem map_slot_answers
    (arena : Arena)
    (history : List Edit)
    (hfew : arena.size + history.countP Edit.creates ≤ UInt32.size) :
    (arena.answers history).map NodeId.slot =
      List.range' arena.size (history.countP Edit.creates) := by
  induction history generalizing arena with
  | nil =>
      rfl
  | cons edit rest ih =>
      have hsize := size_headers_edit arena edit
      change (arena.edit edit).size = arena.size + _ at hsize
      have hcount :
          (edit :: rest).countP Edit.creates =
            [edit].countP Edit.creates + rest.countP Edit.creates := by
        rw [← List.countP_append, List.singleton_append]
      rw [hcount] at hfew ⊢
      have hrest := ih (arena.edit edit) (by omega)
      rw [answers, List.map_append, hrest, hsize, created?_eq]
      cases hcreates : edit.creates with
      | false =>
          simp [hcreates]
      | true =>
          have hnext : arena.next.slot = arena.size := by
            apply NodeId.slot_ofNat
            simp [hcreates] at hfew
            omega
          simp [hcreates, hnext, List.range'_succ, Nat.add_comm 1]

/--
**An arena is determined by its history.**  As long as there is a number for
every node: the operations that append a node answer 0, 1, 2 and so on; each
node keeps for ever the header and the content with which it was created;
and its parent is the one given to it last while it was there.
-/
theorem replay_empty_accounted
    (history : List Edit)
    (hfew : history.countP Edit.creates < UInt32.size - 1) :
    let arena := empty.replay history
    (empty.answers history).map NodeId.slot =
      List.range (history.countP Edit.creates) ∧
    arena.size = history.countP Edit.creates ∧
    (∀ id,
      arena.header? id = ((Edit.nodes history)[id.slot]?).map Node.header ∧
      arena.content? id = ((Edit.nodes history)[id.slot]?).map Node.content) ∧
    (∀ id,
      arena.parent? id =
        if Edit.lastParent (Edit.writesAfter [] history) id.slot = .absent then
          none
        else
          some (Edit.lastParent (Edit.writesAfter [] history) id.slot)) := by
  intro arena
  have hreflects : arena.Reflects history :=
    empty_reflects.replay history (by simpa using Nat.lt_of_lt_pred hfew)
  refine ⟨?_, hreflects.size, ?_, ?_⟩
  · rw [map_slot_answers empty history (by simp [empty, Arena.size]; omega),
      List.range_eq_range']
    rfl
  · intro id
    exact ⟨hreflects.header? (by omega) id, hreflects.content? hfew id⟩
  · intro id
    exact hreflects.parent? (by omega) id

/--
A call may adopt itself, a link from a place ahead is dropped, and a node
without a payload stays without one although it has the kind of identifiers.
-/
theorem replay_empty_accounted_self_call :
    let history : List Edit :=
      [.name "f" ⟨0, 1⟩, .link ⟨2⟩ ⟨0⟩, .invocation ⟨0⟩ [⟨1⟩, ⟨7⟩] ⟨0, 3⟩,
        .bare .identifier ⟨4, 5⟩, .link ⟨0⟩ .absent]
    history.countP Edit.creates < UInt32.size - 1 ∧
    (empty.replay history).parent? ⟨0⟩ = none ∧
    (empty.replay history).parent? ⟨1⟩ = some ⟨1⟩ ∧
    (empty.replay history).parent? ⟨2⟩ = none ∧
    (empty.replay history).content? ⟨1⟩ = some (.call 0 ⟨0⟩ [⟨1⟩, ⟨7⟩]) ∧
    (empty.replay history).content? ⟨2⟩ = some (.bare .identifier) := by
  intro history
  have hfew : history.countP Edit.creates < UInt32.size - 1 := by
    decide
  obtain ⟨-, -, hnodes, hparents⟩ := replay_empty_accounted history hfew
  refine ⟨hfew, ?_, ?_, ?_, ?_, ?_⟩
  · rw [hparents]
    decide
  · rw [hparents]
    decide
  · rw [hparents]
    decide
  · rw [(hnodes _).2]
    decide
  · rw [(hnodes _).2]
    decide

end Arena

end MethodLint
