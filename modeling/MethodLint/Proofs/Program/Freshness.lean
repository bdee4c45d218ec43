import MethodLint.Program
import MethodLint.Proofs.Arena.History
import MethodLint.Proofs.Rule.Findings
import MethodLint.Proofs.Scope.History

/-!
# References never go stale

The name of a reference is copied into the scope when the reference is told,
while its place and its surroundings are read from the arena when the rule
runs.  In between, the arena may grow and be linked anew in any way.

**Invariant.**  `Program.Fresh` says that every recorded reference is at an
identifier, created with the very name that was recorded.  Nodes are never
taken back, so every step keeps it.
-/

namespace MethodLint

namespace Edit

/-- An identifier goes back to the operation that created it. -/
theorem exists_name_of_getElem?_nodes
    {history : List Edit} {place : Nat}
    {serial : UInt32} {name : String} {span : Span}
    (hnode :
      (nodes history)[place]? = some ⟨.identifier serial name, span⟩) :
    ∃ before after,
      history = before ++ Edit.name name span :: after ∧
      before.countP creates = place := by
  induction history using List.reverseRecOn with
  | nil =>
      simp [nodes, nodesAfter] at hnode
  | append_singleton history edit ih =>
      rw [nodes_append] at hnode
      by_cases hold : place < (nodes history).length
      · rw [List.getElem?_append_left hold] at hnode
        obtain ⟨before, after, hsplit, hplace⟩ := ih hnode
        exact ⟨before, after ++ [edit], by simp [hsplit], hplace⟩
      · rw [List.getElem?_append_right (Nat.not_lt.mp hold)] at hnode
        -- The place is the last one, and only a name leaves an identifier there.
        have hwithin := (List.getElem?_eq_some_iff.mp hnode).1
        have hatMost : [edit].countP creates ≤ 1 :=
          List.countP_le_length
        rw [length_toList_node?] at hwithin
        have hlast : place = (nodes history).length := by
          omega
        rw [hlast, Nat.sub_self] at hnode
        cases edit with
        | name text other =>
            have hgiven :
                (history.filterMap name?).length.toUInt32 = serial ∧
                  text = name ∧ other = span := by
              simpa [node?, and_assoc] using hnode
            rcases hgiven with ⟨-, rfl, rfl⟩
            exact ⟨history, [], rfl, by rw [hlast, length_nodes]⟩
        | bare | invocation | link | linkAll =>
            simp [node?] at hnode

end Edit

namespace Arena

variable {arena : Arena} {edits : List Edit} {id : NodeId}

/-- What the arena answers about a node that was created as an identifier. -/
theorem Reflects.identifier
    {serial : UInt32} {name : String} {span : Span}
    (hreflects : arena.Reflects edits)
    (hfew : edits.countP Edit.creates < UInt32.size - 1)
    (hnode :
      (Edit.nodes edits)[id.slot]? = some ⟨.identifier serial name, span⟩) :
    id.slot < arena.size ∧
    arena.tree.kind id = some .identifier ∧
    arena.name? id = some name ∧
    arena.tree.span id = some span := by
  have hheader := hreflects.header? (by omega) id
  have hcontent := hreflects.content? hfew id
  rw [hnode] at hheader hcontent
  refine ⟨?_, ?_, ?_, ?_⟩
  · rw [hreflects.size, ← Edit.length_nodes]
    exact (List.getElem?_eq_some_iff.mp hnode).1
  · simp [Arena.tree, hheader, Node.header, Node.kind, Content.kind]
  · simp [Arena.name?, hcontent, Content.name?]
  · simp [Arena.tree, hheader, Node.header]

/-- A node with a name is an identifier that was created with it. -/
theorem Reflects.exists_of_name?
    {name : String}
    (hreflects : arena.Reflects edits)
    (hfew : edits.countP Edit.creates < UInt32.size - 1)
    (hname : arena.name? id = some name) :
    ∃ serial span,
      (Edit.nodes edits)[id.slot]? =
        some ⟨.identifier serial name, span⟩ := by
  rw [Arena.name?, hreflects.content? hfew] at hname
  cases hnode : (Edit.nodes edits)[id.slot]? with
  | none =>
      simp [hnode] at hname
  | some node =>
      rcases node with ⟨content, span⟩
      cases content with
      | identifier serial text =>
          have htext : text = name := by
            simpa [hnode, Content.name?] using hname
          exact ⟨serial, span, by rw [htext]⟩
      | bare | call =>
          simp [hnode, Content.name?] at hname

end Arena

namespace Step

/-- The operation on the arena that a step is. -/
def edit? : Step → Option Edit
  | edit operation => some operation
  | tell _ => none

def edits (history : List Step) : List Edit :=
  history.filterMap edit?

end Step

namespace Program

/-- Every reference is at an identifier of the recorded name. -/
structure Fresh (program : Program) (edits : List Edit) : Prop where
  arena : program.arena.Reflects edits
  through :
    ∀ reference ∈ program.scope.through, ∃ serial span,
      (Edit.nodes edits)[reference.identifier.slot]? =
        some ⟨.identifier serial reference.name, span⟩

theorem empty_fresh : empty.Fresh [] where
  arena := Arena.empty_reflects
  through := by
    intro reference hreference
    cases hreference

theorem Fresh.edit
    {program : Program} {edits : List Edit}
    (hfresh : program.Fresh edits)
    (edit : Edit)
    (hfew : (edits ++ [edit]).countP Edit.creates < UInt32.size - 1) :
    (program.advance (.edit edit)).Fresh (edits ++ [edit]) where
  arena := hfresh.arena.edit edit (by omega)
  through := by
    intro reference hreference
    obtain ⟨serial, span, hnode⟩ := hfresh.through reference hreference
    exact ⟨serial, span, Edit.getElem?_nodes_append hnode edit⟩

/-- Telling a fact records at most one reference, and that one is fresh. -/
theorem Fresh.tell
    {program : Program} {edits : List Edit}
    (hfresh : program.Fresh edits)
    (fact : Fact)
    (hfew : edits.countP Edit.creates < UInt32.size - 1) :
    (program.advance (.tell fact)).Fresh edits where
  arena := hfresh.arena
  through := by
    intro reference hreference
    change reference ∈ (program.scope.absorb program.arena fact).through
      at hreference
    rw [Recorder.through_absorb, List.mem_append] at hreference
    rcases hreference with hold | hnew
    · exact hfresh.through reference hold
    · cases fact with
      | referred node =>
          cases hname : program.arena.name? node with
          | none =>
              simp [Fact.reference?, hname] at hnew
          | some name =>
              obtain rfl : reference = ⟨node, name⟩ := by
                simpa [Fact.reference?, hname] using hnew
              -- The name was read in the arena as it is now.
              exact hfresh.arena.exists_of_name? hfew hname
      | declared | declaredGlobal | usedGlobal =>
          simp [Fact.reference?] at hnew

theorem Fresh.replay
    {program : Program} {edits : List Edit}
    (hfresh : program.Fresh edits)
    (history : List Step)
    (hfew :
      (edits ++ Step.edits history).countP Edit.creates < UInt32.size - 1) :
    (program.replay history).Fresh (edits ++ Step.edits history) := by
  induction history generalizing program edits with
  | nil =>
      simpa [Program.replay, Step.edits] using hfresh
  | cons step rest ih =>
      cases step with
      | edit edit =>
          have hsplit :
              edits ++ Step.edits (.edit edit :: rest) =
                edits ++ [edit] ++ Step.edits rest := by
            simp [Step.edits, Step.edit?]
          rw [hsplit] at hfew ⊢
          have hfirst :
              (edits ++ [edit]).countP Edit.creates < UInt32.size - 1 := by
            rw [List.countP_append] at hfew
            omega
          exact ih (hfresh.edit edit hfirst) hfew
      | tell fact =>
          have hsame :
              edits ++ Step.edits (.tell fact :: rest) =
                edits ++ Step.edits rest := by
            rfl
          rw [hsame] at hfew ⊢
          have hfirst : edits.countP Edit.creates < UInt32.size - 1 := by
            rw [List.countP_append] at hfew
            omega
          exact ih (hfresh.tell fact hfirst) hfew

theorem mem_through_replay
    {program : Program} {reference : Reference}
    (hreference : reference ∈ program.scope.through)
    (history : List Step) :
    reference ∈ (program.replay history).scope.through := by
  induction history generalizing program with
  | nil =>
      exact hreference
  | cons step rest ih =>
      have hnext : reference ∈ (program.advance step).scope.through := by
        cases step with
        | edit edit =>
            exact hreference
        | tell fact =>
            change
              reference ∈ (program.scope.absorb program.arena fact).through
            rw [Recorder.through_absorb]
            exact List.mem_append_left _ hreference
      exact ih hnext

/-- An identifier in the arena goes back to the step that created it. -/
theorem exists_step_of_getElem?_nodes
    {history : List Step} {place : Nat}
    {serial : UInt32} {name : String} {span : Span}
    (hnode :
      (Edit.nodes (Step.edits history))[place]? =
        some ⟨.identifier serial name, span⟩) :
    ∃ before after,
      history = before ++ Step.edit (.name name span) :: after ∧
      (Step.edits before).countP Edit.creates = place := by
  obtain ⟨before, after, hsplit, hplace⟩ :=
    Edit.exists_name_of_getElem?_nodes hnode
  obtain ⟨front, back, rfl, rfl, hback⟩ :=
    List.filterMap_eq_append_iff.mp hsplit
  -- Told facts may stand before the creating step; they create nothing.
  obtain ⟨skipped, step, rest, rfl, hskipped, hstep, -⟩ :=
    List.filterMap_eq_cons_iff.mp hback
  have hcreator : step = .edit (.name name span) := by
    cases step with
    | edit edit =>
        simpa [Step.edit?] using hstep
    | tell fact =>
        simp [Step.edit?] at hstep
  subst hcreator
  refine ⟨front ++ skipped, rest, by simp, ?_⟩
  have hnone : Step.edits skipped = [] :=
    List.filterMap_eq_nil_iff.mpr hskipped
  have hfront : Step.edits (front ++ skipped) = Step.edits front := by
    rw [Step.edits, List.filterMap_append]
    change Step.edits front ++ Step.edits skipped = _
    rw [hnone, List.append_nil]
  rw [hfront]
  exact hplace

/--
**References never go stale.**  Whatever the steps, as long as there is a
number for every node: a reference recorded at any moment of a run is, at the
end of the run, at a node of the arena that is an identifier with the recorded
name.  Therefore each finding about the finished scope is placed at the span,
and written with the name, that were given when its identifier was created.
-/
theorem through_never_stale
    (past future : List Step)
    (hfew :
      (Step.edits (past ++ future)).countP Edit.creates < UInt32.size - 1) :
    let program := empty.replay (past ++ future)
    (∀ reference ∈ (empty.replay past).scope.finish.through,
      reference.identifier.slot < program.arena.size ∧
      program.arena.tree.kind reference.identifier = some .identifier ∧
      program.arena.name? reference.identifier = some reference.name) ∧
    (∀ (settings : Settings) (file : String),
      ∀ d ∈ Rule.lint settings file program.arena.tree program.scope.finish,
        ∃ category before name span after identifier,
          settings.category? = some category ∧
          past ++ future = before ++ .edit (.name name span) :: after ∧
          identifier.slot = (Step.edits before).countP Edit.creates ∧
          ⟨identifier, name⟩ ∈ program.scope.finish.through ∧
          program.arena.tree.span identifier = some span ∧
          d = Rule.writtenOut category file span name) := by
  intro program
  have hfresh : program.Fresh (Step.edits (past ++ future)) :=
    empty_fresh.replay (past ++ future) hfew
  constructor
  · intro reference hreference
    have hkept : reference ∈ program.scope.through := by
      have hlater := mem_through_replay hreference future
      rw [Program.replay, Program.replay, ← List.foldl_append] at hlater
      exact hlater
    obtain ⟨serial, span, hnode⟩ := hfresh.through reference hkept
    obtain ⟨hslot, hkind, hname, -⟩ := hfresh.arena.identifier hfew hnode
    exact ⟨hslot, hkind, hname⟩
  · intro settings file d hd
    cases hcategory : settings.category? with
    | none =>
        rw [Rule.lint_of_category_eq_none hcategory] at hd
        cases hd
    | some category =>
        rw [Rule.lint_of_category hcategory] at hd
        obtain ⟨reference, hreference, hfinding⟩ := List.mem_filterMap.mp hd
        obtain ⟨serial, span, hnode⟩ := hfresh.through reference hreference
        obtain ⟨-, -, -, hspan⟩ := hfresh.arena.identifier hfew hnode
        obtain ⟨before, after, hsplit, hplace⟩ :=
          exists_step_of_getElem?_nodes hnode
        refine
          ⟨category, before, reference.name, span, after,
            reference.identifier, rfl, hsplit, hplace.symm, hreference,
            hspan, ?_⟩
        have hreport :=
          Rule.report_eq_writtenOut category file program.arena.tree reference
        rw [hspan, Option.getD_some] at hreport
        rw [← hreport]
        exact Rule.eq_report_of_finding? hfinding

/--
The reference is told before its call exists; afterwards the arena grows, a
second name is created, and the identifier is linked anew.
-/
theorem through_never_stale_relinked :
    let past : List Step :=
      [.edit (.name "foo" ⟨4, 7⟩), .tell (.referred ⟨0⟩)]
    let future : List Step :=
      [.edit (.name "bar" ⟨8, 11⟩), .edit (.link ⟨0⟩ ⟨1⟩),
        .edit (.invocation ⟨0⟩ [⟨1⟩] ⟨4, 12⟩),
        .edit (.bare .expressionStatement ⟨4, 13⟩),
        .edit (.bare .blockStatement ⟨2, 15⟩),
        .edit (.link ⟨2⟩ ⟨3⟩), .edit (.link ⟨3⟩ ⟨4⟩)]
    let program := empty.replay (past ++ future)
    (Step.edits (past ++ future)).countP Edit.creates < UInt32.size - 1 ∧
    program.arena.name? ⟨0⟩ = some "foo" ∧
    ∃ d ∈ Rule.lint .standard "a" program.arena.tree program.scope.finish,
      d.start = 4 := by
  intro past future program
  have hfew :
      (Step.edits (past ++ future)).countP Edit.creates < UInt32.size - 1 := by
    decide
  obtain ⟨hreferences, -⟩ := through_never_stale past future hfew
  have htold :
      (⟨⟨0⟩, "foo"⟩ : Reference) ∈ (empty.replay past).scope.finish.through := by
    decide
  refine ⟨hfew, (hreferences _ htold).2.2, ?_⟩
  decide +kernel

end Program

end MethodLint
