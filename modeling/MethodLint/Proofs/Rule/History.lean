import MethodLint.Arena.Edit
import MethodLint.Proofs.Rule.Findings
import MethodLint.Proofs.Scope.History

/-!
# The rule on a recorded scope

The scope of a program is recorded fact by fact, and the rule is run on what
comes out.  Which references are reported can be read off the history: those
whose name no accepted fact declares, before or after, and which are called
in a block.

**Accepted facts.**  A fact is accepted or refused by itself, whatever was
recorded before it, so the accepted ones are told from the history alone.

**Declared names.**  A name is undeclared if every accepted declaration of it
is an implicit one and no accepted fact marks it as a global.
-/

namespace MethodLint

namespace History

/-- No fact declares the name, and none marks it as a global. -/
def Undeclared (calls : List (Arena × Fact)) (name : String) : Prop :=
  (∀ arena kind node,
    (arena, Fact.declared name kind node) ∈ calls →
      kind = .implicitGlobal) ∧
  (∀ arena writeable,
    (arena, Fact.declaredGlobal name writeable) ∉ calls)

theorem mem_about_iff
    {calls : List (Arena × Fact)} {name : String} {fact : Fact} :
    fact ∈ about calls name ↔
      (∃ arena, (arena, fact) ∈ calls) ∧ fact.subject? = some name := by
  simp [about]

/-- What is gathered about a name is undeclared exactly if the name is. -/
theorem isDeclared_variableOf_eq_false_iff
    (calls : List (Arena × Fact)) (name : String) :
    Binding.isDeclared (variableOf calls name) = false ↔
      Undeclared calls name := by
  have himplicit :
      Binding.isImplicit (variableOf calls name) = true ↔
        ∀ fact ∈ about calls name, ∀ definition,
          fact.definition? = some definition →
            definition.kind = .implicitGlobal := by
    simp only [Binding.isImplicit, Binding.kinds, variableOf, List.all_eq_true,
      List.mem_map, List.mem_filterMap, DefinitionKind.isImplicit]
    constructor
    · intro hall fact hfact definition hdefinition
      simpa using hall _ ⟨definition, ⟨fact, hfact, hdefinition⟩, rfl⟩
    · rintro hall _ ⟨definition, ⟨fact, hfact, hdefinition⟩, rfl⟩
      simpa using hall fact hfact definition hdefinition
  have hmarked :
      Binding.marked (variableOf calls name) = false ↔
        ∀ fact ∈ about calls name, fact.mark? = none := by
    simp [Binding.marked, variableOf]
  have hsplit :
      Binding.isDeclared (variableOf calls name) = false ↔
        Binding.isImplicit (variableOf calls name) = true ∧
          Binding.marked (variableOf calls name) = false := by
    simp [Binding.isDeclared]
  -- A used global adds an implicit definition and no mark, so it never counts.
  rw [hsplit, himplicit, hmarked]
  simp only [mem_about_iff]
  constructor
  · rintro ⟨hkinds, hmarks⟩
    constructor
    · intro arena kind node hcall
      exact hkinds _ ⟨⟨arena, hcall⟩, rfl⟩ _ rfl
    · intro arena writeable hcall
      have hmark := hmarks _ ⟨⟨arena, hcall⟩, rfl⟩
      simp [Fact.mark?] at hmark
  · rintro ⟨hdeclared, hglobal⟩
    constructor
    · rintro fact ⟨⟨arena, hcall⟩, hsubject⟩ definition hdefinition
      cases fact with
      | declared subject kind node =>
          simp only [Fact.subject?, Option.some.injEq] at hsubject
          subst hsubject
          have hkind := hdeclared arena kind node hcall
          simp only [Fact.definition?, Option.some.injEq] at hdefinition
          rw [← hdefinition]
          exact hkind
      | declaredGlobal subject writeable =>
          simp only [Fact.definition?, Option.some.injEq] at hdefinition
          rw [← hdefinition]
      | usedGlobal subject node =>
          simp only [Fact.definition?, Option.some.injEq] at hdefinition
          rw [← hdefinition]
      | referred node =>
          simp [Fact.definition?] at hdefinition
    · rintro fact ⟨⟨arena, hcall⟩, hsubject⟩
      cases fact with
      | declaredGlobal subject writeable =>
          simp only [Fact.subject?, Option.some.injEq] at hsubject
          subst hsubject
          exact absurd hcall (hglobal arena writeable)
      | declared | usedGlobal | referred =>
          rfl

instance (calls : List (Arena × Fact)) (name : String) :
    Decidable (Undeclared calls name) :=
  decidable_of_iff (Binding.isDeclared (variableOf calls name) = false)
    (isDeclared_variableOf_eq_false_iff calls name)

end History

namespace Recorder

/-- A recorded name resolves by all that is gathered about it. -/
theorem Reflects.declares
    {recorder : Recorder} {calls : List (Arena × Fact)}
    (hreflects : recorder.Reflects calls)
    (name : String) :
    recorder.finish.declares name =
      Binding.isDeclared (History.variableOf calls name) := by
  have hnamed :
      recorder.finish.named? name =
        ((History.names calls).find? (· == name)).map
          (History.variableOf calls) := by
    rw [Scope.named?, Recorder.finish, hreflects.bindings, List.find?_map]
    rfl
  cases hfind : (History.names calls).find? (· == name) with
  | some found =>
      have heq : found = name := by
        simpa using List.find?_some hfind
      subst heq
      cases hdeclared :
          Binding.isDeclared (History.variableOf calls found) <;>
        simp [Scope.declares, Scope.resolve?, hnamed, hfind, hdeclared]
  | none =>
      have hnew : name ∉ History.names calls := by
        intro hold
        simpa using List.find?_eq_none.mp hfind name hold
      rw [History.variableOf_of_not_mem hnew]
      simp [Scope.declares, Scope.resolve?, hnamed, hfind]
      rfl

end Recorder

namespace Rule

/-- The finding about a reference, judged by the whole history. -/
theorem finding?_ofHistory
    (category : Category)
    (file : String)
    (tree : Tree)
    (history : List (Arena × Fact))
    (reference : Reference) :
    finding? category file tree (Scope.ofHistory history) reference =
      if History.Undeclared (Recorder.empty.accepted history) reference.name ∧
          tree.CalledInBlock reference.identifier then
        some (writtenOut category file
          ((tree.span reference.identifier).getD ⟨0, 0⟩) reference.name)
      else
        none := by
  have hreflects := Recorder.empty_reflects.replay history
  rw [List.nil_append] at hreflects
  -- The scope is the finished one, so later declarations count as well.
  rw [finding?_eq, report_eq_writtenOut, Scope.ofHistory, hreflects.declares]
  simp only [History.isDeclared_variableOf_eq_false_iff]

/--
**The findings on a recorded scope.**  Whatever the tree and the history, the
accepted facts are those which are not refused for a reason of their own: an
empty name, or a reference to a node without a name.  The rule reports nothing
when it is switched off; otherwise it reports, in the order of the accepted
references and repetitions included, exactly those whose name is undeclared in
the whole history and which are called in a block.
-/
theorem lint_ofHistory
    (settings : Settings)
    (file : String)
    (tree : Tree)
    (history : List (Arena × Fact)) :
    let calls := Recorder.empty.accepted history
    (calls = history.filter fun call => call.2.refusal? call.1 = none) ∧
    lint settings file tree (Scope.ofHistory history) =
      match settings.category? with
      | none => []
      | some category =>
          ((History.references calls).filter fun reference =>
            History.Undeclared calls reference.name ∧
              tree.CalledInBlock reference.identifier).map
            fun reference =>
              writtenOut category file
                ((tree.span reference.identifier).getD ⟨0, 0⟩)
                reference.name := by
  intro calls
  refine ⟨Recorder.accepted_eq_filter Recorder.empty history, ?_⟩
  cases hcategory : settings.category? with
  | none =>
      exact lint_of_category_eq_none hcategory file tree _
  | some category =>
      have hthrough :
          (Scope.ofHistory history).through = History.references calls :=
        (Recorder.empty_reflects.replay history).through
      rw [lint_of_category hcategory, findings, hthrough,
        funext (finding?_ofHistory category file tree history)]
      simp only
      rw [← List.filterMap_eq_map', List.filterMap_filter]
      simp only [decide_eq_true_eq, calls]

/--
Two names are called in one block.  A nameless declaration and a reference to a
call are refused.  The declaration of `bar` comes late and still counts; `foo`
is only used, so it is the one finding.
-/
theorem lint_ofHistory_one_finding :
    let arena :=
      Arena.empty.replay
        [.name "foo" ⟨2, 5⟩, .invocation ⟨0⟩ [] ⟨2, 7⟩,
          .bare .expressionStatement ⟨2, 8⟩,
          .name "bar" ⟨9, 12⟩, .invocation ⟨3⟩ [] ⟨9, 14⟩,
          .bare .expressionStatement ⟨9, 15⟩, .bare .blockStatement ⟨0, 17⟩,
          .link ⟨1⟩ ⟨2⟩, .link ⟨4⟩ ⟨5⟩, .linkAll [⟨2⟩, ⟨5⟩] ⟨6⟩]
    let told : List Fact :=
      [.referred ⟨0⟩, .referred ⟨1⟩, .referred ⟨3⟩, .usedGlobal "foo" ⟨0⟩,
        .declared "" .parameter ⟨6⟩, .declared "bar" .functionName ⟨6⟩]
    let history := told.map fun fact => (arena, fact)
    (Recorder.empty.accepted history).map Prod.snd =
      [.referred ⟨0⟩, .referred ⟨3⟩, .usedGlobal "foo" ⟨0⟩,
        .declared "bar" .functionName ⟨6⟩] ∧
    lint .standard "a.js" arena.tree (Scope.ofHistory history) =
      [writtenOut .warning "a.js" ⟨2, 5⟩ "foo"] := by
  intro arena told history
  obtain ⟨hcalls, hlint⟩ :=
    lint_ofHistory .standard "a.js" arena.tree history
  rw [hlint, hcalls]
  constructor
  · decide
  · decide

end Rule

end MethodLint
