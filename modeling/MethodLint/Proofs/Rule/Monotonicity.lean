import MethodLint.Proofs.Rule.Findings
import MethodLint.Table
import Mathlib.Data.List.Forall2

/-!
# Declaring more reports less

A scope grows when its variables gain definitions or the mark of a global, and
when further variables are added behind them.  Names may be repeated on both
sides, and the two scopes may keep their variables in different forms.

**Specification.**  `Binding.Extends` compares two variables and
`Scope.Extends` two scopes.  `Scope.Gains` says that a name comes to be
declared: its first variable is declared in the larger scope, while in the
smaller one it is not declared or there is none.

**Results.**  A grown scope leaves out some of the findings and adds none.  It
drops just the references whose names it gains.  It matters that variables
are added behind the others: a name is looked up by the first variable that
bears it, so an undeclared one in front would hide a declaration.
-/

namespace MethodLint

variable {β γ : Type} [Binding β] [Binding γ]

namespace Binding

/-- The name is kept, definitions may be added, and a mark is not lost. -/
structure Extends (v : β) (w : γ) : Prop where
  name : Binding.name w = Binding.name v
  kinds : ∀ kind ∈ Binding.kinds v, kind ∈ Binding.kinds w
  marked : Binding.marked v = true → Binding.marked w = true

theorem isDeclared_iff (v : β) :
    isDeclared v = true ↔
      (∃ kind ∈ kinds v, kind.isImplicit = false) ∨ marked v = true := by
  simp [isDeclared, isImplicit]

theorem Extends.isDeclared
    {v : β} {w : γ}
    (hextends : Extends v w)
    (hdeclared : isDeclared v = true) :
    Binding.isDeclared w = true := by
  rw [isDeclared_iff] at hdeclared ⊢
  rcases hdeclared with ⟨kind, hkind, hexplicit⟩ | hmarked
  · exact Or.inl ⟨kind, hextends.kinds kind hkind, hexplicit⟩
  · exact Or.inr (hextends.marked hmarked)

/-- The first variable of a name is extended by the first one of that name. -/
theorem Extends.find?
    {vs : List β} {ws : List γ} {v : β}
    (hextends : List.Forall₂ Extends vs ws)
    (name : String)
    (hfound : (vs.find? fun other => Binding.name other == name) = some v) :
    ∃ w, (ws.find? fun other => Binding.name other == name) = some w ∧
      Extends v w := by
  induction hextends with
  | nil =>
      cases hfound
  | @cons first kept vs ws hfirst hrest ih =>
      by_cases hname : Binding.name first = name
      · have hkept : Binding.name kept = name := by
          rw [hfirst.name, hname]
        obtain rfl : first = v := by
          simpa [hname] using hfound
        exact ⟨kept, by simp [hkept], hfirst⟩
      · have hkept : Binding.name kept ≠ name := by
          rw [hfirst.name]
          exact hname
        obtain ⟨w, hw, hextends⟩ := ih (by simpa [hname] using hfound)
        exact ⟨w, by simpa [hkept] using hw, hextends⟩

end Binding

namespace Scope

/--
The references are the same; the variables are extended one by one, and
further ones may follow them.
-/
structure Extends (scope : Scope β) (larger : Scope γ) : Prop where
  through : larger.through = scope.through
  bindings :
    ∃ kept further,
      larger.bindings = kept ++ further ∧
      List.Forall₂ Binding.Extends scope.bindings kept

/--
The first variable of a name is declared in the larger scope, but in the
smaller one it is undeclared or missing.
-/
def Gains (scope : Scope β) (larger : Scope γ) (name : String) : Prop :=
  (∃ w, larger.named? name = some w ∧ Binding.isDeclared w = true) ∧
  (scope.named? name = none ∨
    ∃ v, scope.named? name = some v ∧ Binding.isDeclared v = false)

theorem declares_eq_true_iff (scope : Scope β) (name : String) :
    scope.declares name = true ↔
      ∃ v, scope.named? name = some v ∧ Binding.isDeclared v = true := by
  rw [declares, Option.isSome_iff_exists]
  simp only [resolve?, Option.filter_eq_some_iff]

theorem declares_eq_false_iff (scope : Scope β) (name : String) :
    scope.declares name = false ↔
      scope.named? name = none ∨
        ∃ v, scope.named? name = some v ∧ Binding.isDeclared v = false := by
  rw [← Bool.not_eq_true, declares_eq_true_iff]
  cases scope.named? name <;> simp

theorem gains_iff
    (scope : Scope β)
    (larger : Scope γ)
    (name : String) :
    scope.Gains larger name ↔
      larger.declares name = true ∧ scope.declares name = false := by
  rw [Gains, declares_eq_true_iff, declares_eq_false_iff]

instance (scope : Scope β) (larger : Scope γ) (name : String) :
    Decidable (scope.Gains larger name) :=
  decidable_of_iff _ (gains_iff scope larger name).symm

/-- What a scope declares is declared in every extension of it. -/
theorem Extends.declares
    {scope : Scope β} {larger : Scope γ} {name : String}
    (hextends : scope.Extends larger)
    (hdeclares : scope.declares name = true) :
    larger.declares name = true := by
  rw [declares_eq_true_iff] at hdeclares ⊢
  obtain ⟨v, hfound, hdeclared⟩ := hdeclares
  obtain ⟨kept, further, hbindings, hkept⟩ := hextends.bindings
  obtain ⟨w, hw, hextended⟩ := Binding.Extends.find? hkept name hfound
  refine ⟨w, ?_, hextended.isDeclared hdeclared⟩
  -- The further variables come too late to be the first of this name.
  rw [named?, hbindings, List.find?_append, hw]
  rfl

end Scope

namespace Rule

/-- The references of a scope that deserve a report, in order. -/
def reported (tree : Tree) (scope : Scope β) : List Reference :=
  scope.through.filter fun reference =>
    (verdict tree scope reference).isMiswritten

theorem findings_eq_map_reported
    (category : Category)
    (file : String)
    (tree : Tree)
    (scope : Scope β) :
    findings category file tree scope =
      (reported tree scope).map (report category file tree) := by
  rw [findings, reported, ← List.filterMap_eq_map, List.filterMap_filter]
  rfl

/-- A grown scope drops the references whose names it gains, and no others. -/
theorem reported_of_extends
    {scope : Scope β} {larger : Scope γ}
    (hextends : scope.Extends larger)
    (tree : Tree) :
    reported tree larger =
      (reported tree scope).filter fun reference =>
        ¬ scope.Gains larger reference.name := by
  rw [reported, reported, List.filter_filter, hextends.through]
  apply List.filter_congr
  intro reference _
  rw [Bool.eq_iff_iff, Bool.and_eq_true, decide_eq_true_eq,
    isMiswritten_verdict_iff, isMiswritten_verdict_iff, Scope.gains_iff]
  constructor
  · rintro ⟨hundeclared, hcalled⟩
    have hbefore : scope.declares reference.name = false := by
      rw [← Bool.not_eq_true]
      intro hdeclares
      rw [hextends.declares hdeclares] at hundeclared
      cases hundeclared
    refine ⟨?_, hbefore, hcalled⟩
    rintro ⟨hgained, -⟩
    rw [hgained] at hundeclared
    cases hundeclared
  · rintro ⟨hkept, hundeclared, hcalled⟩
    refine ⟨?_, hcalled⟩
    rw [← Bool.not_eq_true]
    intro hgained
    exact hkept ⟨hgained, hundeclared⟩

/--
**Declaring more never adds a finding.**  Whatever the tree, the file and the
settings: the findings about a grown scope are some of those about the
smaller one, in the same order.  A run that is not switched off reports on the
reported references of either scope, and those of the smaller one that the
larger one drops are exactly the ones whose names it gains.
-/
theorem lint_of_extends
    (scope : Scope β)
    (larger : Scope γ)
    (hextends : scope.Extends larger)
    (settings : Settings)
    (file : String)
    (tree : Tree) :
    (lint settings file tree larger).Sublist (lint settings file tree scope) ∧
    (∀ category, settings.category? = some category →
      lint settings file tree scope =
        (reported tree scope).map (report category file tree) ∧
      lint settings file tree larger =
        (reported tree larger).map (report category file tree)) ∧
    reported tree larger =
      ((reported tree scope).filter fun reference =>
        ¬ scope.Gains larger reference.name) ∧
    (∀ reference ∈ reported tree scope,
      reference ∉ reported tree larger ↔
        scope.Gains larger reference.name) := by
  have hreported := reported_of_extends hextends tree
  have hlint :
      ∀ category, settings.category? = some category →
        lint settings file tree scope =
          (reported tree scope).map (report category file tree) ∧
        lint settings file tree larger =
          (reported tree larger).map (report category file tree) := by
    intro category hcategory
    rw [lint_of_category hcategory, lint_of_category hcategory,
      findings_eq_map_reported, findings_eq_map_reported]
    exact ⟨rfl, rfl⟩
  refine ⟨?_, hlint, hreported, ?_⟩
  · cases hcategory : settings.category? with
    | none =>
        rw [lint_of_category_eq_none hcategory]
        exact List.nil_sublist _
    | some category =>
        obtain ⟨hscope, hlarger⟩ := hlint category hcategory
        rw [hscope, hlarger, hreported]
        exact List.filter_sublist.map _
  · intro reference hreference
    rw [hreported, List.mem_filter]
    simp [hreference]

/--
The first variable named `f` gains a declaration, and its reference is
dropped.  The variable that declares `g` comes behind an undeclared one of
that name, so the reference to `g` stays.
-/
theorem lint_of_extends_hidden_declaration :
    let tree : Tree :=
      (Table.mk
        [⟨⟨0⟩, some .identifier, some ⟨2⟩, none, none⟩,
          ⟨⟨1⟩, some .identifier, some ⟨3⟩, none, none⟩,
          ⟨⟨2⟩, some .callExpression, some ⟨4⟩, some ⟨0⟩, none⟩,
          ⟨⟨3⟩, some .callExpression, some ⟨4⟩, some ⟨1⟩, none⟩,
          ⟨⟨4⟩, some .expressionStatement, some ⟨5⟩, none, none⟩,
          ⟨⟨5⟩, some .blockStatement, none, none, none⟩]).tree
    let references : List Reference := [⟨⟨0⟩, "f"⟩, ⟨⟨1⟩, "g"⟩]
    let scope : Scope HostVariable :=
      ⟨[⟨"f", [.implicitGlobal], false⟩, ⟨"g", [], false⟩,
        ⟨"f", [.parameter], false⟩], references⟩
    let larger : Scope HostVariable :=
      ⟨[⟨"f", [.functionName, .implicitGlobal], false⟩, ⟨"g", [], false⟩,
        ⟨"f", [.parameter], true⟩, ⟨"g", [.className], false⟩], references⟩
    scope.Extends larger ∧
    reported tree scope = references ∧
    reported tree larger = [⟨⟨1⟩, "g"⟩] := by
  intro tree references scope larger
  have hextends : scope.Extends larger := by
    refine ⟨rfl, larger.bindings.take 3, larger.bindings.drop 3, rfl, ?_⟩
    refine .cons ?_ (.cons ?_ (.cons ?_ .nil))
    all_goals exact ⟨rfl, by decide, by decide⟩
  obtain ⟨-, -, hreported, -⟩ :=
    lint_of_extends scope larger hextends .standard "a" tree
  refine ⟨hextends, by decide, ?_⟩
  rw [hreported]
  decide

end Rule

end MethodLint
