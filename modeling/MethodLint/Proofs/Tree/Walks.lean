import MethodLint.Tree
import Mathlib.Data.Finset.Card

/-!
# Walks along parent links

A walk follows parent links for a number of steps.  Nothing is known about
where the links of a tree lead, so a walk may end, or come back to a node and
then go round for ever.

**Cutting.**  A walk is the walk over its first steps followed by the walk over
the others.  All else follows from that.

**Repetition.**  A walk that comes to the same node twice is periodic from the
first visit on, and never ends.  Where only the numbers below some bound have
parents, every walk that is longer than the bound does so.
-/

namespace MethodLint

namespace Tree

/-- The second part of a walk starts where the first one ends. -/
theorem climb_add (tree : Tree) (first second : Nat) (node : NodeId) :
    tree.climb (first + second) node =
      (tree.climb first node).bind (tree.climb second) := by
  induction first generalizing node with
  | zero =>
      rw [Nat.zero_add, climb_zero, Option.bind_some]
  | succ first ih =>
      rw [Nat.add_right_comm, climb_succ, climb_succ]
      cases tree.parent node with
      | none =>
          rfl
      | some up =>
          exact ih up

theorem climb_one (tree : Tree) (node : NodeId) :
    tree.climb 1 node = tree.parent node := by
  rw [climb_succ]
  cases tree.parent node <;> rfl

/-- A walk can be cut before its last link. -/
theorem climb_succ_last (tree : Tree) (steps : Nat) (node : NodeId) :
    tree.climb (steps + 1) node =
      (tree.climb steps node).bind tree.parent := by
  rw [climb_add]
  congr 1
  funext up
  exact climb_one tree up

theorem ancestor_of_le
    {steps : Nat}
    (hsteps : steps ≤ walkLimit)
    (tree : Tree)
    (node : NodeId) :
    tree.ancestor node steps = tree.climb steps node := by
  rw [ancestor, if_neg (Nat.not_lt.mpr hsteps)]

/-- No node that a walk from the given one meets is above itself. -/
def Acyclic (tree : Tree) (node : NodeId) : Prop :=
  ∀ steps up, tree.climb steps node = some up →
    ∀ more, tree.climb (more + 1) up ≠ some up

section Repetition

variable {tree : Tree} {node meet : NodeId} {first second : Nat}

/-- A walk passes through a node after each number of steps up to its own. -/
theorem isSome_climb_of_le
    {short long : Nat}
    (hle : short ≤ long)
    (hlong : (tree.climb long node).isSome) :
    (tree.climb short node).isSome := by
  obtain ⟨more, rfl⟩ := Nat.exists_eq_add_of_le hle
  rw [climb_add] at hlong
  exact Option.isSome_of_isSome_bind hlong

/-- Only a node with a parent is left behind on a walk. -/
theorem exists_parent_of_climb
    {steps : Nat}
    (hwalk : (tree.climb (steps + 1) node).isSome) :
    ∃ below, tree.climb steps node = some below ∧
      (tree.parent below).isSome := by
  rw [climb_succ_last] at hwalk
  cases hbelow : tree.climb steps node with
  | none =>
      simp [hbelow] at hwalk
  | some below =>
      exact ⟨below, rfl, by simpa [hbelow] using hwalk⟩

/-- After two visits of one node a walk goes on in the same way. -/
theorem climb_add_of_repeat
    (hmeet : tree.climb first node = tree.climb second node)
    (more : Nat) :
    tree.climb (first + more) node = tree.climb (second + more) node := by
  rw [climb_add, climb_add, hmeet]

/-- A node that is visited twice is reached again from itself. -/
theorem climb_meet_of_repeat
    (hlt : first < second)
    (hfirst : tree.climb first node = some meet)
    (hsecond : tree.climb second node = some meet) :
    tree.climb (second - first) meet = some meet := by
  have hcut := climb_add tree first (second - first) node
  rw [Nat.add_sub_cancel' (Nat.le_of_lt hlt), hfirst, hsecond,
    Option.bind_some] at hcut
  exact hcut.symm

/-- A walk that visits a node twice never ends. -/
theorem isSome_climb_of_repeat
    (hlt : first < second)
    (hmeet : tree.climb first node = tree.climb second node)
    (hsecond : (tree.climb second node).isSome)
    (steps : Nat) :
    (tree.climb steps node).isSome := by
  induction steps using Nat.strong_induction_on with
  | h steps ih =>
      by_cases hwithin : steps ≤ second
      · exact isSome_climb_of_le hwithin hsecond
      · -- One round less leads to the same node.
        obtain ⟨more, rfl⟩ :=
          Nat.exists_eq_add_of_le (Nat.le_of_not_le hwithin)
        rw [← climb_add_of_repeat hmeet]
        exact ih (first + more) (by omega)

/-- Above a node from which a walk ends there is no ring. -/
theorem acyclic_of_climb_eq_none
    {steps : Nat}
    (hends : tree.climb steps node = none) :
    tree.Acyclic node := by
  intro before up hup more hring
  have hmeet :
      tree.climb before node = tree.climb (before + (more + 1)) node := by
    rw [climb_add, hup, Option.bind_some, hring]
  have hsome :=
    isSome_climb_of_repeat (by omega) hmeet (by simp [← hmeet, hup]) steps
  simp [hends] at hsome

/--
Where only the numbers below `size` have parents, a walk over more than `size`
links visits a node twice, and both visits fall within the first `size` steps.
-/
theorem exists_repeat_of_long_walk
    {size steps : Nat}
    (hparents : ∀ id, (tree.parent id).isSome → id.slot < size)
    (hlong : size < steps)
    (hwalk : (tree.climb steps node).isSome) :
    ∃ first second meet,
      first < second ∧ second ≤ size ∧
      tree.climb first node = some meet ∧
      tree.climb second node = some meet := by
  have hvisit :
      ∀ step ∈ Finset.range (size + 1),
        ∃ below, tree.climb step node = some below ∧ below.slot < size := by
    intro step hstep
    have hstep : step + 1 ≤ steps := by
      rw [Finset.mem_range] at hstep
      omega
    obtain ⟨below, hbelow, hparent⟩ :=
      exists_parent_of_climb (isSome_climb_of_le hstep hwalk)
    exact ⟨below, hbelow, hparents below hparent⟩
  -- The visits during steps `0, …, size` share `size` places.
  let place (step : Nat) : Nat :=
    ((tree.climb step node).map NodeId.slot).getD 0
  have hplace :
      ∀ step ∈ Finset.range (size + 1), place step ∈ Finset.range size := by
    intro step hstep
    obtain ⟨below, hbelow, hslot⟩ := hvisit step hstep
    simpa [place, hbelow] using hslot
  obtain ⟨one, hone, other, hother, hne, hsame⟩ :=
    Finset.exists_ne_map_eq_of_card_lt_of_maps_to
      (by simp : (Finset.range size).card < (Finset.range (size + 1)).card)
      hplace
  have hmeet : tree.climb one node = tree.climb other node := by
    obtain ⟨below, hbelow, -⟩ := hvisit one hone
    obtain ⟨again, hagain, -⟩ := hvisit other hother
    simp only [place, hbelow, hagain, Option.map_some, Option.getD_some]
      at hsame
    rw [hbelow, hagain, NodeId.slot_injective hsame]
  obtain ⟨meet, hfound, -⟩ := hvisit one hone
  rw [Finset.mem_range] at hone hother
  rcases Nat.lt_or_gt_of_ne hne with hlt | hlt
  · exact
      ⟨one, other, meet, hlt, by omega, hfound, hmeet ▸ hfound⟩
  · exact
      ⟨other, one, meet, hlt, by omega, hmeet ▸ hfound, hfound⟩

end Repetition

end Tree

end MethodLint
