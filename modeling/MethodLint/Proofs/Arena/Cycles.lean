import MethodLint.Proofs.Arena.History
import MethodLint.Proofs.Tree.Walks

/-!
# Long walks in an arena

Links are made without a check, so the parents in an arena may form a ring or
lead to places that hold no node.  Still only nodes have parents.  A walk that
is longer than the number of nodes has therefore left some node twice.

**Results.**  A walk in an arena either ends after at most as many steps as
there are nodes, or goes round for ever.  The last step may lead out of the
arena, and from there no further one does.
-/

namespace MethodLint

namespace Arena

/-- Every operation keeps one parent for each node. -/
theorem size_parents_replay
    {arena : Arena}
    (hparents : arena.parents.size = arena.size)
    (history : List Edit) :
    (arena.replay history).parents.size = (arena.replay history).size := by
  induction history generalizing arena with
  | nil =>
      exact hparents
  | cons edit rest ih =>
      have hstep : (arena.edit edit).parents.size = (arena.edit edit).size := by
        rw [size_parents_edit, hparents]
        exact (size_headers_edit arena edit).symm
      exact ih hstep

/-- A number outside the arena has no parent, even if it is one itself. -/
theorem slot_lt_of_isSome_parent
    {arena : Arena} {id : NodeId}
    (hparents : arena.parents.size = arena.size)
    (hsome : (arena.tree.parent id).isSome) :
    id.slot < arena.size := by
  by_contra houtside
  have hnone : arena.parents[id.slot]? = none := by
    rw [Array.getElem?_eq_none_iff]
    omega
  simp [tree, parent?, hnone] at hsome

/--
**Walks end or go round.**  Whatever operations built an arena, a walk longer
than the number of its nodes has met a node twice within that number of steps.
From the first meeting on it repeats itself, and every walk that the limit
allows has an end point.  So where the links above a node form no ring, no
walk from it is longer than the number of nodes.
-/
theorem ancestor_ends_or_repeats (history : List Edit) (node : NodeId) :
    let arena := empty.replay history
    (∀ steps, arena.size < steps → steps ≤ Tree.walkLimit →
      (arena.tree.ancestor node steps).isSome →
      ∃ first second meet,
        first < second ∧ second ≤ arena.size ∧
        arena.tree.ancestor node first = some meet ∧
        arena.tree.ancestor node second = some meet ∧
        arena.tree.ancestor meet (second - first) = some meet ∧
        (∀ later ≤ Tree.walkLimit,
          (arena.tree.ancestor node later).isSome) ∧
        (∀ later, first ≤ later →
          later + (second - first) ≤ Tree.walkLimit →
          arena.tree.ancestor node later =
            arena.tree.ancestor node (later + (second - first)))) ∧
    (arena.tree.Acyclic node →
      ∀ steps, arena.size < steps →
        arena.tree.ancestor node steps = none) := by
  intro arena
  have hparents : ∀ id, (arena.tree.parent id).isSome → id.slot < arena.size :=
    fun id => slot_lt_of_isSome_parent (size_parents_replay rfl history)
  constructor
  · intro steps hlong hlimit hwalk
    rw [Tree.ancestor_of_le hlimit] at hwalk
    obtain ⟨first, second, meet, hlt, hsize, hfirst, hsecond⟩ :=
      Tree.exists_repeat_of_long_walk hparents hlong hwalk
    have hmeet :
        arena.tree.climb first node = arena.tree.climb second node := by
      rw [hfirst, hsecond]
    refine ⟨first, second, meet, hlt, hsize, ?_, ?_, ?_, ?_, ?_⟩
    · rw [Tree.ancestor_of_le (by omega), hfirst]
    · rw [Tree.ancestor_of_le (by omega), hsecond]
    · rw [Tree.ancestor_of_le (by omega)]
      exact Tree.climb_meet_of_repeat hlt hfirst hsecond
    · intro later hlater
      rw [Tree.ancestor_of_le hlater]
      exact Tree.isSome_climb_of_repeat hlt hmeet (by simp [hsecond]) later
    · intro later hfrom hlater
      rw [Tree.ancestor_of_le (by omega), Tree.ancestor_of_le hlater]
      obtain ⟨more, rfl⟩ := Nat.exists_eq_add_of_le hfrom
      have hround : first + more + (second - first) = second + more := by
        omega
      rw [hround]
      exact Tree.climb_add_of_repeat hmeet more
  · intro hacyclic steps hlong
    by_contra hsome
    have hlimit : steps ≤ Tree.walkLimit := by
      by_contra hbeyond
      exact hsome (if_pos (Nat.lt_of_not_le hbeyond))
    rw [Tree.ancestor_of_le hlimit] at hsome
    obtain ⟨first, second, meet, hlt, -, hfirst, hsecond⟩ :=
      Tree.exists_repeat_of_long_walk hparents hlong
        (Option.isSome_iff_ne_none.mpr hsome)
    have hring := Tree.climb_meet_of_repeat hlt hfirst hsecond
    obtain ⟨more, hmore⟩ := Nat.exists_eq_add_of_lt hlt
    apply hacyclic first meet hfirst more
    rw [← hring]
    congr 1
    omega

/--
A ring of two nodes answers a walk of ten thousand links; and a chain of two
nodes that leads out of the arena is walked to its end and not beyond.
-/
theorem ancestor_ends_or_repeats_ring_and_chain :
    let ring : List Edit :=
      [.name "f" ⟨0, 1⟩, .bare .blockStatement ⟨0, 3⟩,
        .link ⟨0⟩ ⟨1⟩, .link ⟨1⟩ ⟨0⟩]
    let chain : List Edit :=
      [.name "f" ⟨0, 1⟩, .bare .blockStatement ⟨0, 3⟩,
        .link ⟨0⟩ ⟨1⟩, .link ⟨1⟩ ⟨7⟩]
    ((empty.replay ring).tree.ancestor ⟨0⟩ 10000).isSome ∧
    (empty.replay chain).tree.Acyclic ⟨0⟩ ∧
    (empty.replay chain).tree.ancestor ⟨0⟩ 2 = some ⟨7⟩ ∧
    (empty.replay chain).tree.ancestor ⟨0⟩ 3 = none := by
  intro ring chain
  have hring :
      ((empty.replay ring).tree.ancestor ⟨0⟩ 3).isSome = true := by
    decide
  obtain ⟨-, -, -, -, -, -, -, -, hround, -⟩ :=
    (ancestor_ends_or_repeats ring ⟨0⟩).1 3 (by decide) (by decide) hring
  have hends : (empty.replay chain).tree.climb 3 ⟨0⟩ = none := by
    decide
  have hchain : (empty.replay chain).tree.Acyclic ⟨0⟩ :=
    Tree.acyclic_of_climb_eq_none hends
  refine ⟨hround 10000 (by decide), hchain, by decide, ?_⟩
  exact (ancestor_ends_or_repeats chain ⟨0⟩).2 hchain 3 (by decide)

end Arena

end MethodLint
