import MethodLint.Arena.Edit
import MethodLint.Proofs.Tree.Walks
import Mathlib.Data.Nat.Find

/-!
# Ancestors under the limit of a walk

A node has no ancestor at some distance for one of two reasons: the links end
before, or the distance is beyond the limit of a walk.  Together they still
make one answer: up to some depth a node has all its ancestors, and from there
on none.

**Cutting.**  Up to the limit, an ancestor is found in one walk or in two, the
second from where the first one ends.  With the parent as the first ancestor
this settles all of them.

**Depth.**  An ancestor that is missing at one distance is missing at every
greater one, by the cut within the limit and by the limit beyond it.  `depth`
is the greatest distance at which there is one.
-/

namespace MethodLint

namespace Tree

section Limit

variable {tree : Tree} {node : NodeId} {first second : Nat}

theorem ancestor_of_limit_lt
    {steps : Nat}
    (hbeyond : walkLimit < steps)
    (tree : Tree)
    (node : NodeId) :
    tree.ancestor node steps = none :=
  if_pos hbeyond

theorem ancestor_zero (tree : Tree) (node : NodeId) :
    tree.ancestor node 0 = some node := by
  rw [ancestor_of_le (Nat.zero_le _), climb_zero]

theorem ancestor_one (tree : Tree) (node : NodeId) :
    tree.ancestor node 1 = tree.parent node := by
  rw [ancestor_of_le (by decide), climb_one]

/-- Up to the limit, a walk may be cut anywhere. -/
theorem ancestor_add
    (hwithin : first + second ≤ walkLimit)
    (tree : Tree)
    (node : NodeId) :
    tree.ancestor node (first + second) =
      (tree.ancestor node first).bind fun up => tree.ancestor up second := by
  rw [ancestor_of_le hwithin, ancestor_of_le (by omega), climb_add]
  congr 1
  funext up
  exact (ancestor_of_le (by omega) tree up).symm

/-- Above a missing ancestor there is none. -/
theorem ancestor_eq_none_of_le
    {short long : Nat}
    (hle : short ≤ long)
    (hnone : tree.ancestor node short = none) :
    tree.ancestor node long = none := by
  by_cases hwithin : long ≤ walkLimit
  · -- The shorter walk is the first part of the longer one.
    obtain ⟨more, rfl⟩ := Nat.exists_eq_add_of_le hle
    rw [ancestor_add hwithin, hnone, Option.bind_none]
  · exact ancestor_of_limit_lt (Nat.lt_of_not_le hwithin) tree node

theorem le_walkLimit_of_isSome_ancestor
    {steps : Nat}
    (hsome : (tree.ancestor node steps).isSome) :
    steps ≤ walkLimit := by
  by_contra hbeyond
  rw [ancestor_of_limit_lt (Nat.lt_of_not_le hbeyond)] at hsome
  cases hsome

/-- The distance of the farthest ancestor that a walk from the node reaches. -/
def depth (tree : Tree) (node : NodeId) : Nat :=
  Nat.findGreatest (fun steps => (tree.ancestor node steps).isSome) walkLimit

theorem depth_le_walkLimit (tree : Tree) (node : NodeId) :
    tree.depth node ≤ walkLimit :=
  Nat.findGreatest_le walkLimit

theorem isSome_ancestor_depth (tree : Tree) (node : NodeId) :
    (tree.ancestor node (tree.depth node)).isSome := by
  have hself : (tree.ancestor node 0).isSome := by
    rw [ancestor_zero, Option.isSome_some]
  exact
    Nat.findGreatest_spec
      (P := fun steps => (tree.ancestor node steps).isSome)
      (Nat.zero_le walkLimit) hself

/-- Up to its depth a node has all its ancestors, and beyond it none. -/
theorem isSome_ancestor_iff_le_depth
    (tree : Tree)
    (node : NodeId)
    (steps : Nat) :
    (tree.ancestor node steps).isSome ↔ steps ≤ tree.depth node := by
  constructor
  · intro hsome
    exact Nat.le_findGreatest (le_walkLimit_of_isSome_ancestor hsome) hsome
  · intro hle
    by_contra hmissing
    rw [Option.not_isSome_iff_eq_none] at hmissing
    have hdepth := isSome_ancestor_depth tree node
    rw [ancestor_eq_none_of_le hle hmissing] at hdepth
    cases hdepth

/--
**Ancestors compose up to the limit.**  Let the links of a tree lead wherever
they may.  A node is its own ancestor at distance zero, and its parent is the
one at distance one.  Up to the limit of a walk, the ancestor at the sum of two
distances is found from the ancestor at the first of them, and is missing if
either walk finds none; beyond the limit there is no ancestor.  A missing
ancestor leaves all farther ones missing, so those that a node has are the ones
up to some depth within the limit.
-/
theorem ancestor_composes (tree : Tree) (node : NodeId) :
    tree.ancestor node 0 = some node ∧
    tree.ancestor node 1 = tree.parent node ∧
    (∀ first second, first + second ≤ walkLimit →
      tree.ancestor node (first + second) =
        (tree.ancestor node first).bind fun up => tree.ancestor up second) ∧
    (∀ first second, walkLimit < first + second →
      tree.ancestor node (first + second) = none) ∧
    (∀ short long, short ≤ long →
      tree.ancestor node short = none → tree.ancestor node long = none) ∧
    (∃ depth ≤ walkLimit,
      ∀ steps, (tree.ancestor node steps).isSome ↔ steps ≤ depth) := by
  refine
    ⟨ancestor_zero tree node, ancestor_one tree node, ?_, ?_, ?_,
      tree.depth node, depth_le_walkLimit tree node,
      isSome_ancestor_iff_le_depth tree node⟩
  · intro first second hwithin
    exact ancestor_add hwithin tree node
  · intro first second hbeyond
    exact ancestor_of_limit_lt hbeyond tree node
  · intro short long hle hnone
    exact ancestor_eq_none_of_le hle hnone

/--
Two nodes form a ring, and a third one leads out of the arena.  In the ring a
walk of as many links as the limit allows ends where it began, and one link
more is refused.  The third node has one ancestor and no other.
-/
theorem ancestor_composes_ring_and_way_out :
    let links : List Edit :=
      [.name "f" ⟨0, 1⟩, .bare .blockStatement ⟨0, 3⟩,
        .bare .blockStatement ⟨4, 6⟩,
        .link ⟨0⟩ ⟨1⟩, .link ⟨1⟩ ⟨0⟩, .link ⟨2⟩ ⟨7⟩]
    let tree := (Arena.empty.replay links).tree
    tree.ancestor ⟨0⟩ 10000 = some ⟨0⟩ ∧
    tree.ancestor ⟨0⟩ 10001 = none ∧
    tree.ancestor ⟨2⟩ 1 = some ⟨7⟩ ∧
    tree.ancestor ⟨2⟩ 2 = none ∧
    tree.ancestor ⟨2⟩ 10000 = none := by
  intro links tree
  obtain ⟨hself, -, hcut, hbeyond, -, -⟩ := ancestor_composes tree ⟨0⟩
  obtain ⟨-, -, -, -, hmissing, -⟩ := ancestor_composes tree ⟨2⟩
  -- Two links at a time: no walk over all ten thousand is evaluated.
  have hround :
      ∀ rounds, 2 * rounds ≤ walkLimit →
        tree.ancestor ⟨0⟩ (2 * rounds) = some ⟨0⟩ := by
    intro rounds
    induction rounds with
    | zero =>
        intro _
        exact hself
    | succ rounds ih =>
        intro hwithin
        rw [Nat.mul_succ, hcut (2 * rounds) 2 hwithin, ih (by omega)]
        decide
  have hends : tree.ancestor ⟨2⟩ 2 = none := by
    decide
  exact
    ⟨hround 5000 (by decide), hbeyond 10000 1 (by decide), by decide, hends,
      hmissing 2 10000 (by decide) hends⟩

end Limit

end Tree

end MethodLint
