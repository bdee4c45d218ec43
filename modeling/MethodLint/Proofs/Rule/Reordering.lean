import MethodLint.Proofs.Rule.Findings
import MethodLint.Proofs.Scope.History
import Mathlib.Data.List.Nodup

/-!
# The order of independent facts

A front end may tell the facts about different names in any order, and
references before or after declarations.  Two histories are rearrangements of
each other if they tell the same facts about each name in the same order, and
the same references in the same order.

**Specification.**  `History.Rearranged` compares two histories name by name.

**Results.**  Rearranged histories give the same references, the same
variables up to their order, the same resolution of every name, and the same
run of the rule.  The places of variables do differ; they matter to no answer,
because a recorded scope has one variable for each name.
-/

namespace MethodLint

namespace Scope

variable {β : Type} [Binding β]

/--
Where no two variables share a name, looking at the first one of a name loses
nothing: a name stands for a variable exactly if the variable is there, bears
the name, and is declared.
-/
theorem resolve?_eq_some_iff
    {scope : Scope β}
    (hnodup : (scope.bindings.map Binding.name).Nodup)
    (name : String) (v : β) :
    scope.resolve? name = some v ↔
      v ∈ scope.bindings ∧ Binding.name v = name ∧
        Binding.isDeclared v = true := by
  rw [resolve?, Option.filter_eq_some_iff, named?]
  constructor
  · rintro ⟨hfound, hdeclared⟩
    have hname : Binding.name v = name := by
      simpa using List.find?_some hfound
    exact ⟨List.mem_of_find?_eq_some hfound, hname, hdeclared⟩
  · rintro ⟨hmem, rfl, hdeclared⟩
    refine ⟨?_, hdeclared⟩
    cases hfound :
        scope.bindings.find? fun other =>
          Binding.name other == Binding.name v with
    | none =>
        exact absurd (List.find?_eq_none.mp hfound v hmem) (by simp)
    | some first =>
        have hsame : Binding.name first = Binding.name v := by
          simpa using List.find?_some hfound
        have heq : first = v :=
          List.inj_on_of_nodup_map hnodup
            (List.mem_of_find?_eq_some hfound) hmem hsame
        rw [heq]

end Scope

namespace History

/-- The references among the facts, each with the arena of its moment. -/
def referring (calls : List (Arena × Fact)) : List (Arena × Fact) :=
  calls.filter fun call => call.2.subject? = none

/-- The same facts about each name, and the same references, each in order. -/
structure Rearranged (first second : List (Arena × Fact)) : Prop where
  about : ∀ name, about first name = about second name
  referring : referring first = referring second

/-- Only the referring calls record references. -/
theorem references_referring (calls : List (Arena × Fact)) :
    references (referring calls) = references calls := by
  rw [references, referring, List.filterMap_filter]
  apply List.filterMap_congr
  rintro ⟨arena, fact⟩ -
  cases hsubject : fact.subject? with
  | none =>
      simp
  | some name =>
      simp [Fact.reference?_of_subject? arena hsubject]

end History

namespace Recorder

/-- Of the facts about a name, all are accepted or, if it is empty, none. -/
theorem about_accepted
    (history : List (Arena × Fact))
    (name : String) :
    History.about (empty.accepted history) name =
      if name = "" then [] else History.about history name := by
  rw [accepted_eq_filter, History.about, History.about, List.filter_map,
    List.filter_map, List.filter_filter]
  split
  · next hempty =>
      subst hempty
      rw [List.map_eq_nil_iff, List.filter_eq_nil_iff]
      rintro ⟨arena, fact⟩ -
      simp only [Function.comp_apply, Bool.and_eq_true, decide_eq_true_eq]
      rintro ⟨hsubject, haccepted⟩
      exact Fact.ne_empty_of_refusal? hsubject haccepted rfl
  · next hnamed =>
      congr 1
      apply List.filter_congr
      rintro ⟨arena, fact⟩ -
      by_cases hsubject : fact.subject? = some name
      · simp [hsubject, Fact.refusal?_of_subject? arena hsubject, hnamed]
      · simp [hsubject]

/-- A refused reference records nothing, so it can be left out. -/
theorem references_accepted (history : List (Arena × Fact)) :
    History.references (empty.accepted history) =
      History.references history := by
  rw [accepted_eq_filter, History.references, List.filterMap_filter]
  apply List.filterMap_congr
  rintro ⟨arena, fact⟩ -
  cases fact with
  | referred node =>
      cases hname : arena.name? node with
      | none =>
          simp [Fact.refusal?, Fact.reference?, hname]
      | some name =>
          simp [Fact.refusal?, hname]
  | declared | declaredGlobal | usedGlobal =>
      simp [Fact.reference?]

end Recorder

namespace Scope

section Rearranged

variable {first second : List (Arena × Fact)}

theorem through_ofHistory (history : List (Arena × Fact)) :
    (ofHistory history).through = History.references history := by
  rw [← Recorder.references_accepted]
  exact (Recorder.empty_reflects.replay history).through

theorem bindings_ofHistory (history : List (Arena × Fact)) :
    (ofHistory history).bindings =
      (History.names (Recorder.empty.accepted history)).map
        (History.variableOf (Recorder.empty.accepted history)) :=
  (Recorder.empty_reflects.replay history).bindings

/-- A recorded scope has one variable for each name. -/
theorem nodup_names_ofHistory (history : List (Arena × Fact)) :
    ((ofHistory history).bindings.map Binding.name).Nodup := by
  rw [bindings_ofHistory, List.map_map]
  have hnames :
      (History.names (Recorder.empty.accepted history)).map
          (Binding.name ∘
            History.variableOf (Recorder.empty.accepted history)) =
        History.names (Recorder.empty.accepted history) :=
    List.map_id _
  rw [hnames]
  exact History.names_nodup _

theorem through_eq_of_rearranged
    (hrearranged : History.Rearranged first second) :
    (ofHistory first).through = (ofHistory second).through := by
  rw [through_ofHistory, through_ofHistory, ← History.references_referring first,
    ← History.references_referring second, hrearranged.referring]

/-- Names are declared in another order, but they gather the same facts. -/
theorem bindings_perm_of_rearranged
    (hrearranged : History.Rearranged first second) :
    (ofHistory first).bindings.Perm (ofHistory second).bindings := by
  have habout (name : String) :
      History.about (Recorder.empty.accepted first) name =
        History.about (Recorder.empty.accepted second) name := by
    rw [Recorder.about_accepted, Recorder.about_accepted,
      hrearranged.about name]
  have hvariable :
      History.variableOf (Recorder.empty.accepted first) =
        History.variableOf (Recorder.empty.accepted second) := by
    funext name
    rw [History.variableOf, History.variableOf, habout]
  have hnames :
      (History.names (Recorder.empty.accepted first)).Perm
        (History.names (Recorder.empty.accepted second)) := by
    rw [List.perm_ext_iff_of_nodup (History.names_nodup _)
      (History.names_nodup _)]
    intro name
    rw [History.mem_names_iff, History.mem_names_iff, habout]
  rw [bindings_ofHistory, bindings_ofHistory, hvariable]
  exact hnames.map _

theorem resolve?_eq_of_rearranged
    (hrearranged : History.Rearranged first second)
    (name : String) :
    (ofHistory first).resolve? name = (ofHistory second).resolve? name := by
  apply Option.ext
  intro v
  rw [resolve?_eq_some_iff (nodup_names_ofHistory first),
    resolve?_eq_some_iff (nodup_names_ofHistory second),
    (bindings_perm_of_rearranged hrearranged).mem_iff]

end Rearranged

/--
**The order of independent facts does not matter.**  Whatever two histories
that tell the same about each name and refer to the same: the recorded scopes
have the same references and, up to order, the same variables; every name
stands for the same variable in both, which is the only declared one that
bears it; and the rule hands the same findings in the same order to any sink.
-/
theorem ofHistory_rearranged
    (first second : List (Arena × Fact))
    (hrearranged : History.Rearranged first second) :
    (ofHistory first).through = (ofHistory second).through ∧
    (ofHistory first).bindings.Perm (ofHistory second).bindings ∧
    (∀ name,
      (ofHistory first).resolve? name = (ofHistory second).resolve? name) ∧
    (∀ scope ∈ [ofHistory first, ofHistory second], ∀ name v,
      scope.resolve? name = some v ↔
        v ∈ scope.bindings ∧ v.name = name ∧ Binding.isDeclared v = true) ∧
    (∀ (σ : Type) (take : σ → Diagnostic → σ) (sink : σ)
        (settings : Settings) (file : String) (tree : Tree),
      Rule.check settings file tree (ofHistory first) take sink =
        Rule.check settings file tree (ofHistory second) take sink) := by
  have hthrough := through_eq_of_rearranged hrearranged
  have hresolve := resolve?_eq_of_rearranged hrearranged
  refine ⟨hthrough, bindings_perm_of_rearranged hrearranged, hresolve, ?_, ?_⟩
  · intro scope hscope name v
    rcases List.mem_pair.mp hscope with rfl | rfl
    · exact resolve?_eq_some_iff (nodup_names_ofHistory first) name v
    · exact resolve?_eq_some_iff (nodup_names_ofHistory second) name v
  · intro σ take sink settings file tree
    apply Rule.check_congr hthrough
    intro category reference _
    -- A verdict asks of the scope only whether it declares the name.
    rw [Rule.finding?, Rule.finding?, Rule.verdict, Rule.verdict, declares,
      declares, hresolve]

/--
The reference and the two names trade places; the variables come out in another
order, and a global that is marked late resolves all the same.
-/
theorem ofHistory_rearranged_late_reference :
    let arena := (Arena.empty.addName "foo" ⟨0, 3⟩).1
    let first : List (Arena × Fact) :=
      [(arena, .referred ⟨0⟩), (arena, .usedGlobal "foo" ⟨0⟩),
        (arena, .declared "bar" .functionName ⟨4⟩),
        (arena, .declaredGlobal "foo" true)]
    let second : List (Arena × Fact) :=
      [(arena, .declared "bar" .functionName ⟨4⟩),
        (arena, .usedGlobal "foo" ⟨0⟩), (arena, .declaredGlobal "foo" true),
        (arena, .referred ⟨0⟩)]
    History.Rearranged first second ∧
    (ofHistory first).bindings ≠ (ofHistory second).bindings ∧
    (ofHistory first).bindings.Perm (ofHistory second).bindings ∧
    ((ofHistory second).resolve? "foo").map Variable.writeable =
      some (some true) := by
  intro arena first second
  have hrearranged : History.Rearranged first second := by
    refine ⟨?_, by decide⟩
    intro name
    by_cases hfoo : "foo" = name
    · subst hfoo
      decide
    · by_cases hbar : "bar" = name
      · subst hbar
        decide
      · simp [History.about, first, second, Fact.subject?, hfoo, hbar]
  obtain ⟨-, hperm, hresolve, -⟩ :=
    ofHistory_rearranged first second hrearranged
  refine ⟨hrearranged, by decide, hperm, ?_⟩
  rw [← hresolve]
  decide

end Scope

end MethodLint
