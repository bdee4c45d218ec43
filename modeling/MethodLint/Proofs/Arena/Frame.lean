import MethodLint.Proofs.Arena.History

/-!
# What an arena keeps while it grows

Nodes are never taken back, so whatever an arena tells about a node besides
its parent stays as it is.  A parent changes only through an operation that
lists the node as a child: a link, or a call that adopts its callee and
arguments.
-/

namespace MethodLint

namespace Edit

/-- The nodes to which an operation gives a parent. -/
def children : Edit → List NodeId
  | bare .. => []
  | name .. => []
  | invocation callee arguments _ => callee :: arguments
  | link child _ => [child]
  | linkAll children _ => children

theorem child_mem_children
    {size : Nat} {edit : Edit} {write : Write}
    (hwrite : write ∈ edit.writes size) :
    write.child ∈ edit.children := by
  cases edit with
  | bare | name =>
      cases hwrite
  | link child parent =>
      rw [List.mem_singleton.mp hwrite]
      exact List.mem_singleton_self child
  | linkAll children parent =>
      obtain ⟨child, hchild, rfl⟩ := List.mem_map.mp hwrite
      exact hchild
  | invocation callee arguments span =>
      obtain ⟨child, hchild, rfl⟩ := List.mem_map.mp hwrite
      exact hchild

/-- Links to other nodes do not change the parent given last to a node. -/
theorem lastParent_append_of_ne
    {written more : List Write} {place : Nat}
    (hother : ∀ write ∈ more, write.child.slot ≠ place) :
    lastParent (written ++ more) place = lastParent written place := by
  have hnone :
      (more.filter fun write =>
        write.child.slot = place ∧ place < write.size) = [] := by
    rw [List.filter_eq_nil_iff]
    intro write hwrite hhits
    exact hother write hwrite (of_decide_eq_true hhits).1
  rw [lastParent, List.filter_append, hnone, List.append_nil, lastParent]

end Edit

namespace Arena

variable {arena : Arena} {past : List Edit} {id : NodeId}

/-- An operation changes nothing that is told about a node, but its parent. -/
theorem Reflects.tree_edit
    (hreflects : arena.Reflects past)
    (edit : Edit)
    (hfew : (past ++ [edit]).countP Edit.creates < UInt32.size - 1)
    (hnode : id.slot < arena.size) :
    (arena.edit edit).tree.kind id = arena.tree.kind id ∧
    (arena.edit edit).tree.callee id = arena.tree.callee id ∧
    (arena.edit edit).tree.span id = arena.tree.span id := by
  have hpast : past.countP Edit.creates < UInt32.size - 1 := by
    rw [List.countP_append] at hfew
    omega
  have hnext := hreflects.edit edit (Nat.lt_of_lt_pred hfew)
  have hplace : id.slot < (Edit.nodes past).length := by
    rw [Edit.length_nodes, ← hreflects.size]
    exact hnode
  have hkept :=
    Edit.getElem?_nodes_append (List.getElem?_eq_getElem hplace) edit
  have hheader : (arena.edit edit).header? id = arena.header? id := by
    rw [hnext.header? (Nat.lt_of_lt_pred hfew), hkept,
      hreflects.header? (Nat.lt_of_lt_pred hpast),
      List.getElem?_eq_getElem hplace]
  have hcontent : (arena.edit edit).content? id = arena.content? id := by
    rw [hnext.content? hfew, hkept, hreflects.content? hpast,
      List.getElem?_eq_getElem hplace]
  refine ⟨?_, ?_, ?_⟩
  · simp [Arena.tree, hheader]
  · simp [Arena.tree, Arena.callee?, hcontent]
  · simp [Arena.tree, hheader]

/-- An operation that does not list a node leaves its parent alone. -/
theorem Reflects.parent_edit
    (hreflects : arena.Reflects past)
    (edit : Edit)
    (hfew : (past ++ [edit]).countP Edit.creates < UInt32.size - 1)
    (hother : id ∉ edit.children) :
    (arena.edit edit).tree.parent id = arena.tree.parent id := by
  have hpast : past.countP Edit.creates < UInt32.size := by
    rw [List.countP_append] at hfew
    omega
  have hnext := hreflects.edit edit (Nat.lt_of_lt_pred hfew)
  have hlast :
      Edit.lastParent (Edit.writesAfter [] (past ++ [edit])) id.slot =
        Edit.lastParent (Edit.writesAfter [] past) id.slot := by
    rw [Edit.writesAfter_append]
    apply Edit.lastParent_append_of_ne
    intro write hwrite hslot
    rw [← NodeId.slot_injective hslot] at hother
    exact hother (Edit.child_mem_children hwrite)
  change (arena.edit edit).parent? id = arena.parent? id
  rw [hnext.parent? (Nat.lt_of_lt_pred hfew), hlast, hreflects.parent? hpast]

/--
Whatever is done later, a node keeps what is told about it; and it keeps its
parent, too, if no later operation lists it as a child.
-/
theorem Reflects.tree_replay
    (hreflects : arena.Reflects past)
    (future : List Edit)
    (hfew : (past ++ future).countP Edit.creates < UInt32.size - 1)
    (hnode : id.slot < arena.size) :
    (arena.replay future).tree.kind id = arena.tree.kind id ∧
    (arena.replay future).tree.callee id = arena.tree.callee id ∧
    (arena.replay future).tree.span id = arena.tree.span id ∧
    ((∀ edit ∈ future, id ∉ edit.children) →
      (arena.replay future).tree.parent id = arena.tree.parent id) := by
  induction future generalizing arena past with
  | nil =>
      exact ⟨rfl, rfl, rfl, fun _ => rfl⟩
  | cons edit rest ih =>
      have hsplit : past ++ edit :: rest = past ++ [edit] ++ rest := by
        simp
      rw [hsplit] at hfew
      have hfirst :
          (past ++ [edit]).countP Edit.creates < UInt32.size - 1 := by
        rw [List.countP_append] at hfew
        omega
      have hgrown : id.slot < (arena.edit edit).size := by
        have hsize := size_headers_edit arena edit
        change (arena.edit edit).size = arena.size + _ at hsize
        omega
      obtain ⟨hkind, hcallee, hspan⟩ :=
        hreflects.tree_edit edit hfirst hnode
      obtain ⟨hkindRest, hcalleeRest, hspanRest, hparentRest⟩ :=
        ih (hreflects.edit edit (Nat.lt_of_lt_pred hfirst)) hfew hgrown
      refine
        ⟨hkindRest.trans hkind, hcalleeRest.trans hcallee,
          hspanRest.trans hspan, ?_⟩
      intro hother
      have hparent :=
        hreflects.parent_edit edit hfirst (hother edit List.mem_cons_self)
      have hlater := hparentRest fun later hlater =>
        hother later (List.mem_cons_of_mem edit hlater)
      exact hlater.trans hparent

end Arena

end MethodLint
