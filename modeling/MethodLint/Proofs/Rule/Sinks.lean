import MethodLint.Proofs.Rule.Findings
import MethodLint.Sink

/-!
# A run is a fold over its findings

The findings of a run are what `Rule.lint` collects in an empty list.  Any other
sink is handed the same findings in the same order, so a run leaves it as if
they had been reported one by one.

**Specification.**  `Sink.reportAll` reports a list of findings one by one.
`Sink.watched` keeps beside a sink a record of what was reported to it; the
record shows what a sink gets to see, whatever it does with it.

**Results.**  Each form of sink is described by what it holds afterwards.  The
findings about references in two parts are those about the first part, then
those about the second, so a run may be stopped between any two references and
taken up again with the sink as it is.
-/

namespace MethodLint

namespace Sink

/-- The sink after findings were reported to it, one by one and in order. -/
def reportAll (sink : Sink) (ds : List Diagnostic) : Sink :=
  ds.foldl report sink

/-- The sink with a record of what is reported to it. -/
def watched (sink : Sink) (seen : List Diagnostic) : Sink where
  State := sink.State × List Diagnostic
  take := fun (state, seen) d => (sink.take state d, seen ++ [d])
  state := (sink.state, seen)

theorem reportAll_append (sink : Sink) (first second : List Diagnostic) :
    sink.reportAll (first ++ second) =
      (sink.reportAll first).reportAll second :=
  List.foldl_append

/-- Reporting changes the state of a sink and nothing else. -/
theorem reportAll_eq (sink : Sink) (ds : List Diagnostic) :
    sink.reportAll ds =
      { sink with state := ds.foldl sink.take sink.state } := by
  induction ds generalizing sink with
  | nil =>
      rfl
  | cons d ds ih =>
      exact ih (sink.report d)

theorem reportAll_list (held ds : List Diagnostic) :
    (list held).reportAll ds = list (held ++ ds) := by
  induction ds generalizing held with
  | nil =>
      rw [List.append_nil]
      rfl
  | cons d ds ih =>
      rw [List.append_cons]
      exact ih (held ++ [d])

theorem reportAll_calling
    {κ : Type}
    (call : κ → Diagnostic → κ)
    (memory : κ)
    (ds : List Diagnostic) :
    (calling call memory).reportAll ds =
      calling call (ds.foldl call memory) :=
  reportAll_eq _ ds

/-- The owner of a lent sink has it back as if it had never been lent. -/
theorem reportAll_lent (sink : Sink) (ds : List Diagnostic) :
    sink.lent.reportAll ds = (sink.reportAll ds).lent := by
  induction ds generalizing sink with
  | nil =>
      rfl
  | cons d ds ih =>
      exact ih (sink.report d)

theorem reportAll_watched (sink : Sink) (seen ds : List Diagnostic) :
    (sink.watched seen).reportAll ds =
      (sink.reportAll ds).watched (seen ++ ds) := by
  induction ds generalizing sink seen with
  | nil =>
      rw [List.append_nil]
      rfl
  | cons d ds ih =>
      rw [List.append_cons]
      exact ih (sink.report d) (seen ++ [d])

end Sink

namespace Rule

variable {β σ : Type} [Binding β]

/-- Whatever the settings: a run folds over what is collected in a list. -/
theorem check_eq_foldl_lint
    (settings : Settings)
    (file : String)
    (tree : Tree)
    (scope : Scope β)
    (take : σ → Diagnostic → σ)
    (sink : σ) :
    check settings file tree scope take sink =
      ((lint settings file tree scope).foldl take sink,
        (lint settings file tree scope).length) := by
  cases hcategory : settings.category? with
  | none =>
      rw [lint_of_category_eq_none hcategory]
      simp [check, hcategory]
  | some category =>
      rw [lint_of_category hcategory, check_of_category hcategory]

theorem checkInto_eq_reportAll
    (settings : Settings)
    (file : String)
    (tree : Tree)
    (scope : Scope β)
    (sink : Sink) :
    checkInto settings file tree scope sink =
      (sink.reportAll (lint settings file tree scope),
        (lint settings file tree scope).length) := by
  rw [checkInto, check_eq_foldl_lint, Sink.reportAll_eq]

/--
A reference is judged by the variables of the scope and not by the other
references, so the findings about two lists of references come one after the
other.
-/
theorem lint_append
    (settings : Settings)
    (file : String)
    (tree : Tree)
    (bindings : List β)
    (first second : List Reference) :
    lint settings file tree ⟨bindings, first ++ second⟩ =
      lint settings file tree ⟨bindings, first⟩ ++
        lint settings file tree ⟨bindings, second⟩ := by
  cases hcategory : settings.category? with
  | none =>
      simp only [lint_of_category_eq_none hcategory, List.append_nil]
  | some category =>
      simp only [lint_of_category hcategory, findings]
      exact List.filterMap_append

/--
**A run is a fold, whatever the sink.**  For any tree, any scope, any file and any
settings, the collected findings are one for each reference that deserves a
report, in order, or none if the rule is switched off.  A run leaves a sink in
the state in which reporting them one by one leaves it, and counts them.  A list
keeps what it holds and has the findings appended; a function is called with
each of them in turn; a lent sink is to its owner as if it had not been lent;
and a record kept beside any sink shows that just these findings were reported,
in this order.  A run over references in two parts is a run over the first part
and then, with the sink as it was left, one over the second, and the counts add
up.
-/
theorem check_folds_over_lint
    (settings : Settings)
    (file : String)
    (tree : Tree)
    (scope : Scope β) :
    let found := lint settings file tree scope
    (found =
      match settings.category? with
      | none => []
      | some category => findings category file tree scope) ∧
    (∀ (σ : Type) (take : σ → Diagnostic → σ) (sink : σ),
      check settings file tree scope take sink =
        (found.foldl take sink, found.length)) ∧
    (∀ sink : Sink,
      checkInto settings file tree scope sink =
        (sink.reportAll found, found.length)) ∧
    (∀ held : List Diagnostic,
      checkInto settings file tree scope (.list held) =
        (.list (held ++ found), found.length)) ∧
    (∀ (κ : Type) (call : κ → Diagnostic → κ) (memory : κ),
      checkInto settings file tree scope (.calling call memory) =
        (.calling call (found.foldl call memory), found.length)) ∧
    (∀ sink : Sink,
      checkInto settings file tree scope sink.lent =
        ((checkInto settings file tree scope sink).1.lent, found.length)) ∧
    (∀ (sink : Sink) (seen : List Diagnostic),
      checkInto settings file tree scope (sink.watched seen) =
        ((sink.reportAll found).watched (seen ++ found), found.length)) ∧
    (∀ (first second : List Reference) (sink : Sink),
      let (between, count) :=
        checkInto settings file tree ⟨scope.bindings, first⟩ sink
      let (after, further) :=
        checkInto settings file tree ⟨scope.bindings, second⟩ between
      checkInto settings file tree ⟨scope.bindings, first ++ second⟩ sink =
        (after, count + further)) := by
  intro found
  refine
    ⟨?_, ?_, checkInto_eq_reportAll settings file tree scope, ?_, ?_, ?_, ?_, ?_⟩
  · cases hcategory : settings.category? with
    | none =>
        exact lint_of_category_eq_none hcategory file tree scope
    | some category =>
        exact lint_of_category hcategory file tree scope
  · intro σ take sink
    exact check_eq_foldl_lint settings file tree scope take sink
  · intro held
    rw [checkInto_eq_reportAll, Sink.reportAll_list]
  · intro κ call memory
    rw [checkInto_eq_reportAll, Sink.reportAll_calling]
  · intro sink
    rw [checkInto_eq_reportAll, checkInto_eq_reportAll, Sink.reportAll_lent]
  · intro sink seen
    rw [checkInto_eq_reportAll, Sink.reportAll_watched]
  · intro first second sink
    simp only [checkInto_eq_reportAll]
    rw [lint_append, Sink.reportAll_append, List.length_append]

end Rule

end MethodLint
