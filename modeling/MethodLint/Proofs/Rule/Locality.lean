import MethodLint.Proofs.Arena.Frame
import MethodLint.Proofs.Rule.Findings
import MethodLint.Proofs.Tree.Walks

/-!
# The rule looks at three links

A verdict asks for the three nodes above an identifier and for nothing else.
So a tree may change anywhere else, even above the third node, and every
verdict stays.

**Argument.**  Two trees that agree along the first links of a walk take the
same walk.  In an arena, the nodes of that walk keep what is told about them
for ever, and their parents as long as nobody lists them as children.
-/

namespace MethodLint

namespace Tree

section Agreement

variable {tree other : Tree} {identifier : NodeId}

/-- Trees with the same links along a walk take the same walk. -/
theorem climb_congr
    {steps : Nat}
    (hlinks :
      ∀ below < steps, ∀ node ∈ tree.climb below identifier,
        other.parent node = tree.parent node) :
    other.climb steps identifier = tree.climb steps identifier := by
  induction steps with
  | zero =>
      rfl
  | succ steps ih =>
      have hsame := ih fun below hbelow =>
        hlinks below (Nat.lt_succ_of_lt hbelow)
      rw [climb_succ_last, climb_succ_last, hsame]
      exact Option.bind_congr (hlinks steps (Nat.lt_succ_self steps))

theorem ancestor_congr
    {steps : Nat}
    (hsteps : steps ≤ walkLimit)
    (hlinks :
      ∀ below < steps, ∀ node ∈ tree.ancestor identifier below,
        other.parent node = tree.parent node) :
    other.ancestor identifier steps = tree.ancestor identifier steps := by
  rw [ancestor_of_le hsteps, ancestor_of_le hsteps]
  apply climb_congr
  intro below hbelow node hnode
  apply hlinks below hbelow node
  rw [ancestor_of_le (by omega)]
  exact hnode

/--
Trees that agree on the links up to the body of a method, and on what they
tell about the nodes met on the way, give the same verdict.
-/
theorem shape_congr
    (hlinks :
      ∀ steps < bodyDepth, ∀ node ∈ tree.ancestor identifier steps,
        other.parent node = tree.parent node)
    (hnodes :
      ∀ steps ≤ bodyDepth, ∀ node ∈ tree.ancestor identifier steps,
        other.kind node = tree.kind node ∧
        other.callee node = tree.callee node)
    (declared : Bool) :
    other.shape identifier declared = tree.shape identifier declared := by
  have hparent : other.parent identifier = tree.parent identifier :=
    hlinks 0 (by decide) identifier rfl
  have hbody :
      other.ancestor identifier bodyDepth =
        tree.ancestor identifier bodyDepth :=
    ancestor_congr (by decide) hlinks
  unfold shape
  rw [hparent, hbody]
  cases hcall : tree.parent identifier with
  | none =>
      rfl
  | some call =>
      have hfirst : call ∈ tree.ancestor identifier 1 := by
        rw [ancestor_of_le (by decide), climb_succ, hcall]
        rfl
      obtain ⟨hkind, hcallee⟩ := hnodes 1 (by decide) call hfirst
      have hcalls : other.calls call identifier = tree.calls call identifier := by
        rw [calls, hkind, hcallee, calls]
      cases hthird : tree.ancestor identifier bodyDepth with
      | none =>
          simp only [hcalls]
      | some body =>
          have hblock := (hnodes bodyDepth (Nat.le_refl _) body hthird).1
          simp only [hcalls, hblock]

end Agreement

end Tree

namespace Rule

/--
**The rule looks at three links.**  Let every reference of a scope and the
nodes up to three links above it be nodes of the arena.  Whatever is done to
the arena later, as long as no operation lists as a child any of these
references, their parents or their grandparents: every verdict stays, and the
rule hands the same findings and the same count to any sink.
-/
theorem check_replay_elsewhere
    {β : Type} [Binding β]
    (past future : List Edit)
    (hfew : (past ++ future).countP Edit.creates < UInt32.size - 1)
    (scope : Scope β)
    (hreal :
      ∀ reference ∈ scope.through, ∀ steps ≤ 3,
        ∀ node ∈
            (Arena.empty.replay past).tree.ancestor reference.identifier steps,
          node.slot < (Arena.empty.replay past).size)
    (hunlisted :
      ∀ edit ∈ future, ∀ child ∈ edit.children,
        ∀ reference ∈ scope.through, ∀ steps ≤ 2,
          (Arena.empty.replay past).tree.ancestor reference.identifier steps ≠
            some child) :
    let arena := Arena.empty.replay past
    let later := arena.replay future
    (∀ reference ∈ scope.through, ∀ declared,
      later.tree.shape reference.identifier declared =
        arena.tree.shape reference.identifier declared) ∧
    (∀ (σ : Type) (take : σ → Diagnostic → σ) (sink : σ)
        (settings : Settings) (file : String),
      check settings file later.tree scope take sink =
        check settings file arena.tree scope take sink) := by
  intro arena later
  have hreflects : arena.Reflects past := by
    apply Arena.empty_reflects.replay past
    rw [List.countP_append] at hfew
    rw [List.nil_append]
    omega
  have hshape :
      ∀ reference ∈ scope.through, ∀ declared,
        later.tree.shape reference.identifier declared =
          arena.tree.shape reference.identifier declared := by
    intro reference hreference declared
    apply Tree.shape_congr
    · intro steps hsteps node hnode
      have hslot :=
        hreal reference hreference steps (Nat.le_of_lt hsteps) node hnode
      obtain ⟨-, -, -, hparent⟩ := hreflects.tree_replay future hfew hslot
      apply hparent
      intro edit hedit hchild
      exact
        hunlisted edit hedit node hchild reference hreference steps
          (Nat.le_of_lt_succ hsteps) hnode
    · intro steps hsteps node hnode
      have hslot := hreal reference hreference steps hsteps node hnode
      obtain ⟨hkind, hcallee, -⟩ := hreflects.tree_replay future hfew hslot
      exact ⟨hkind, hcallee⟩
  refine ⟨hshape, ?_⟩
  intro σ take sink settings file
  apply check_congr (Eq.refl scope.through)
  intro category reference hreference
  -- Besides the verdict, a report asks for the span of the identifier.
  have hslot :=
    hreal reference hreference 0 (by decide) reference.identifier rfl
  obtain ⟨-, -, hspan, -⟩ := hreflects.tree_replay future hfew hslot
  rw [finding?, finding?, verdict, verdict, hshape reference hreference,
    report, report, hspan]

/--
A new call adopts the block itself, the block then becomes its own parent, and
the new call is linked to a place that holds no node.
-/
theorem check_replay_elsewhere_adopted_block :
    let past : List Edit :=
      [.name "foo" ⟨4, 7⟩, .invocation ⟨0⟩ [] ⟨4, 9⟩,
        .bare .expressionStatement ⟨4, 10⟩, .bare .blockStatement ⟨2, 12⟩,
        .link ⟨1⟩ ⟨2⟩, .link ⟨2⟩ ⟨3⟩]
    let future : List Edit :=
      [.name "bar" ⟨0, 1⟩, .invocation ⟨4⟩ [⟨3⟩] ⟨0, 13⟩, .link ⟨3⟩ ⟨3⟩,
        .linkAll [⟨5⟩, ⟨8⟩] ⟨9⟩]
    let scope : Scope Variable := ⟨[], [⟨⟨0⟩, "foo"⟩]⟩
    let arena := Arena.empty.replay past
    (past ++ future).countP Edit.creates < UInt32.size - 1 ∧
    (∀ reference ∈ scope.through, ∀ steps ≤ 3,
      ∀ node ∈ arena.tree.ancestor reference.identifier steps,
        node.slot < arena.size) ∧
    (∀ edit ∈ future, ∀ child ∈ edit.children,
      ∀ reference ∈ scope.through, ∀ steps ≤ 2,
        arena.tree.ancestor reference.identifier steps ≠ some child) ∧
    (check .standard "a" (arena.replay future).tree scope
      (fun total _ => total + 1) 0).2 = 1 := by
  intro past future scope arena
  have hfew : (past ++ future).countP Edit.creates < UInt32.size - 1 := by
    decide
  have hreal :
      ∀ reference ∈ scope.through, ∀ steps ≤ 3,
        ∀ node ∈ arena.tree.ancestor reference.identifier steps,
          node.slot < arena.size := by
    decide
  have hunlisted :
      ∀ edit ∈ future, ∀ child ∈ edit.children,
        ∀ reference ∈ scope.through, ∀ steps ≤ 2,
          arena.tree.ancestor reference.identifier steps ≠ some child := by
    decide
  obtain ⟨-, hcheck⟩ :=
    check_replay_elsewhere past future hfew scope hreal hunlisted
  refine ⟨hfew, hreal, hunlisted, ?_⟩
  rw [hcheck]
  decide

end Rule

end MethodLint
