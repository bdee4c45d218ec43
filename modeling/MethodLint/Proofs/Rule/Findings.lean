import MethodLint.Rule
import Mathlib.Data.List.Basic

/-!
# What the rule finds

The rule folds over references and hands findings to a sink.  Here the fold is
undone: the findings are a list that does not depend on the sink, one entry
for each reference whose name is not declared and whose call has the reported
shape.

**Shape.**  `Tree.CalledInBlock` says what the shape is: the identifier is
called by its parent, and the third node above it is a block.

**Text.**  A report is written out in full, with its message and its
suggestion.
-/

namespace MethodLint

namespace Tree

/--
The identifier is the callee of its parent, and two links above that call
there is a block.
-/
def CalledInBlock (tree : Tree) (identifier : NodeId) : Prop :=
  ∃ call statement block,
    tree.parent identifier = some call ∧
    tree.kind call = some .callExpression ∧
    tree.callee call = some identifier ∧
    tree.parent call = some statement ∧
    tree.parent statement = some block ∧
    tree.kind block = some .blockStatement

/-- The walk to the body of a method is three single links. -/
theorem ancestor_bodyDepth (tree : Tree) (identifier : NodeId) :
    tree.ancestor identifier bodyDepth =
      (tree.parent identifier).bind fun call =>
        (tree.parent call).bind tree.parent := by
  have hlimit : ¬ walkLimit < bodyDepth := by
    decide
  rw [ancestor, if_neg hlimit, show bodyDepth = 0 + 1 + 1 + 1 from rfl]
  rw [climb_succ]
  congr 1
  funext call
  rw [climb_succ]
  congr 1
  funext statement
  rw [climb_succ]
  cases tree.parent statement <;> rfl

theorem calls_iff (tree : Tree) (node identifier : NodeId) :
    tree.calls node identifier = true ↔
      tree.kind node = some .callExpression ∧
        tree.callee node = some identifier := by
  simp [calls]

/-- An undeclared name is miswritten exactly if it is called in a block. -/
theorem shape_eq_miswritten_iff
    (tree : Tree) (identifier : NodeId) (declared : Bool) :
    tree.shape identifier declared = .miswritten ↔
      declared = false ∧ tree.CalledInBlock identifier := by
  cases declared with
  | true =>
      simp [shape]
  | false =>
      cases hcall : tree.parent identifier with
      | none =>
          simp [shape, CalledInBlock, hcall]
      | some call =>
          by_cases hcalls : tree.calls call identifier = true
          · obtain ⟨hkind, hcallee⟩ := (calls_iff tree call identifier).mp hcalls
            cases hstatement : tree.parent call with
            | none =>
                simp [shape, CalledInBlock, ancestor_bodyDepth,
                  hcall, hcalls, hstatement]
            | some statement =>
                cases hblock : tree.parent statement with
                | none =>
                    simp [shape, CalledInBlock, ancestor_bodyDepth,
                      hcall, hcalls, hstatement, hblock]
                | some block =>
                    simp [shape, CalledInBlock, ancestor_bodyDepth,
                      hcall, hcalls, hstatement, hblock, hkind, hcallee]
          · have hnot :
                ¬ (tree.kind call = some .callExpression ∧
                  tree.callee call = some identifier) := by
              rw [← calls_iff]
              exact hcalls
            constructor
            · intro hshape
              simp [shape, hcall, hcalls] at hshape
            · rintro ⟨-, other, statement, block, hother, hkind, hcallee, -⟩
              rw [hcall, Option.some.injEq] at hother
              subst hother
              exact absurd ⟨hkind, hcallee⟩ hnot

instance (tree : Tree) (identifier : NodeId) :
    Decidable (tree.CalledInBlock identifier) :=
  decidable_of_iff (tree.shape identifier false = .miswritten) (by
    simp [shape_eq_miswritten_iff])

end Tree

namespace Rule

/-- The message names the method that has no name of its own. -/
theorem fill_undefinedMethodName (name : String) :
    Template.fill Message.undefinedMethodName.template [name] =
      "\"" ++ name ++
        ("\" has no defined method name. " ++
          "Use syntax - foo: function foo() \x7b..\x7d.") := by
  rw [← String.toList_inj, Template.fill]
  simp only [String.toList_ofList, String.toList_append, List.map_cons,
    List.map_nil, List.append_assoc]
  -- Only the template is searched, so it can be evaluated around any name.
  generalize name.toList = chars
  cbv

/-- The suggestion gives the function expression the name twice. -/
theorem fill_nameTheFunction (name : String) :
    Template.fill Message.nameTheFunction.template [name] =
      "Name the function expression: " ++ name ++ ": function " ++ name ++
        "() \x7b..\x7d" := by
  rw [← String.toList_inj, Template.fill]
  simp only [String.toList_ofList, String.toList_append, List.map_cons,
    List.map_nil, List.append_assoc]
  generalize name.toList = chars
  cbv

/--
The report on a method that is called by a name it only inherits, field by
field.  A reversed span has length zero.
-/
def writtenOut
    (category : Category)
    (file : String)
    (span : Span)
    (name : String) : Diagnostic where
  file := file
  start := span.start
  length := (span.stop.toNat - span.start.toNat).toUInt32
  text :=
    "\"" ++ name ++
      ("\" has no defined method name. " ++
        "Use syntax - foo: function foo() \x7b..\x7d.")
  category := category
  code := 9001
  notes := []
  suggestions :=
    ["Name the function expression: " ++ name ++ ": function " ++ name ++
      "() \x7b..\x7d"]

/-- A node without a span is reported at the start of the file. -/
theorem report_eq_writtenOut
    (category : Category)
    (file : String)
    (tree : Tree)
    (reference : Reference) :
    report category file tree reference =
      writtenOut category file
        ((tree.span reference.identifier).getD ⟨0, 0⟩) reference.name := by
  have hlength (span : Span) :
      (span.stop.toNat - span.start.toNat).toUInt32 = span.length := by
    rw [← Span.toNat_length]
    simp
  rw [writtenOut, hlength, ← fill_undefinedMethodName,
    ← fill_nameTheFunction]
  rfl

variable {β σ : Type} [Binding β]

/-- All findings about the references of a scope, in order. -/
def findings
    (category : Category)
    (file : String)
    (tree : Tree)
    (scope : Scope β) : List Diagnostic :=
  scope.through.filterMap (finding? category file tree scope)

/-- Handing findings to a sink and counting them keeps the two in step. -/
theorem foldl_findings
    (find? : Reference → Option Diagnostic)
    (take : σ → Diagnostic → σ)
    (references : List Reference)
    (sink : σ) (count : Nat) :
    references.foldl
        (fun (sink, count) reference =>
          match find? reference with
          | none => (sink, count)
          | some d => (take sink d, count + 1))
        (sink, count) =
      ((references.filterMap find?).foldl take sink,
        count + (references.filterMap find?).length) := by
  induction references generalizing sink count with
  | nil =>
      rfl
  | cons reference rest ih =>
      rw [List.foldl_cons]
      cases hfound : find? reference with
      | none =>
          rw [List.filterMap_cons_none hfound]
          exact ih sink count
      | some d =>
          rw [List.filterMap_cons_some hfound]
          simp only [List.foldl_cons, List.length_cons]
          rw [ih (take sink d) (count + 1)]
          congr 1
          omega

/-- A run that is not switched off hands over the findings and counts them. -/
theorem check_of_category
    {settings : Settings} {category : Category}
    (hcategory : settings.category? = some category)
    (file : String)
    (tree : Tree)
    (scope : Scope β)
    (take : σ → Diagnostic → σ)
    (sink : σ) :
    check settings file tree scope take sink =
      ((findings category file tree scope).foldl take sink,
        (findings category file tree scope).length) := by
  have hfold :=
    foldl_findings (finding? category file tree scope) take
      scope.through sink 0
  rw [Nat.zero_add] at hfold
  unfold check
  rw [hcategory]
  exact hfold

theorem lint_of_category
    {settings : Settings} {category : Category}
    (hcategory : settings.category? = some category)
    (file : String)
    (tree : Tree)
    (scope : Scope β) :
    lint settings file tree scope = findings category file tree scope := by
  rw [lint, check_of_category hcategory, List.foldl_append_eq_append,
    ← List.flatMap_def, List.flatMap_singleton', List.nil_append]

theorem lint_of_category_eq_none
    {settings : Settings}
    (hcategory : settings.category? = none)
    (file : String)
    (tree : Tree)
    (scope : Scope β) :
    lint settings file tree scope = [] := by
  simp [lint, check, hcategory]

/--
A run depends on the tree and on the variables only through its findings: two
runs over the same references that find the same are the same run, whatever
the sink.
-/
theorem check_congr
    {γ : Type} [Binding γ]
    {file : String} {tree other : Tree}
    {scope : Scope β} {host : Scope γ}
    (hthrough : host.through = scope.through)
    (hfinding :
      ∀ category, ∀ reference ∈ scope.through,
        finding? category file other host reference =
          finding? category file tree scope reference)
    (settings : Settings)
    (take : σ → Diagnostic → σ)
    (sink : σ) :
    check settings file other host take sink =
      check settings file tree scope take sink := by
  cases hcategory : settings.category? with
  | none =>
      simp [check, hcategory]
  | some category =>
      have hsame :
          findings category file other host =
            findings category file tree scope := by
        rw [findings, findings, hthrough]
        exact List.filterMap_congr (hfinding category)
      rw [check_of_category hcategory, check_of_category hcategory, hsame]

/-- A reference deserves a report if it calls an undeclared name in a block. -/
theorem isMiswritten_verdict_iff
    (tree : Tree)
    (scope : Scope β)
    (reference : Reference) :
    (verdict tree scope reference).isMiswritten = true ↔
      scope.declares reference.name = false ∧
        tree.CalledInBlock reference.identifier := by
  rw [← Tree.shape_eq_miswritten_iff]
  simp [verdict, CallShape.isMiswritten]

/-- A finding is the report on a reference that deserves one. -/
theorem finding?_eq
    (category : Category)
    (file : String)
    (tree : Tree)
    (scope : Scope β)
    (reference : Reference) :
    finding? category file tree scope reference =
      if scope.declares reference.name = false ∧
          tree.CalledInBlock reference.identifier then
        some (report category file tree reference)
      else
        none := by
  simp only [finding?, isMiswritten_verdict_iff]

theorem eq_report_of_finding?
    {category : Category} {file : String} {tree : Tree} {scope : Scope β}
    {reference : Reference} {d : Diagnostic}
    (hfinding : finding? category file tree scope reference = some d) :
    d = report category file tree reference := by
  unfold finding? at hfinding
  split at hfinding
  · exact (Option.some.inj hfinding).symm
  · cases hfinding

end Rule

end MethodLint
