import MethodLint.Proofs.Arena.History
import MethodLint.Proofs.Rule.Findings
import MethodLint.Table

/-!
# A host in place of an arena

A host may copy an arena into its own table and a recorded scope into its own
variables, and run the rule on these.  An arena hides a reserved number,
bounds and two pools behind its queries; a table has rows and nothing else.

**Specification.**  `Table.Transcribes` says which tables are copies of an
arena: for each place the first row about its node tells what the arena
answers, and no row is about anything else.  The order of the rows is free,
and a node may have more rows after its first one.

**Results.**  A copy answers every question about every number as the arena
does, whether or not the number is one of a node; therefore walks, verdicts and
runs of the rule agree.
-/

namespace MethodLint

namespace NodeId

theorem ofNat_slot (id : NodeId) : (⟨id.slot.toUInt32⟩ : NodeId) = id := by
  rcases id with ⟨val⟩
  simp [slot]

end NodeId

namespace Arena

/-- What an arena answers about the node at a place, as a row of a table. -/
def rowAt (arena : Arena) (place : Nat) : TableRow :=
  let id : NodeId := ⟨place.toUInt32⟩
  { id := id
    kind := arena.tree.kind id
    parent := arena.tree.parent id
    callee := arena.tree.callee id
    span := arena.tree.span id }

section Outside

variable {arena : Arena} {history : List Edit} {id : NodeId}

/-- An arena knows nothing about a number that no node has. -/
theorem Reflects.tree_outside
    (hreflects : arena.Reflects history)
    (houtside : arena.size ≤ id.slot) :
    arena.tree.kind id = none ∧
    arena.tree.parent id = none ∧
    arena.tree.callee id = none ∧
    arena.tree.span id = none := by
  have hheader : arena.header? id = none := by
    have hplace : arena.headers[id.slot]? = none :=
      Array.getElem?_eq_none houtside
    simp [Arena.header?, hplace]
  have hparent : arena.parent? id = none := by
    have hplace : arena.parents[id.slot]? = none := by
      apply Array.getElem?_eq_none
      rw [hreflects.parents]
      exact houtside
    simp [Arena.parent?, hplace]
  have hcallee : arena.callee? id = none := by
    simp [Arena.callee?, Arena.content?, hheader]
  refine ⟨?_, hparent, hcallee, ?_⟩
  · simp [Arena.tree, hheader]
  · simp [Arena.tree, hheader]

end Outside

end Arena

namespace Table

/--
The table is a copy of the arena.  The first row about each node tells what
the arena answers about it, and every row is about a node of the arena.
-/
structure Transcribes (table : Table) (arena : Arena) : Prop where
  first :
    ∀ place < arena.size, ∃ before after,
      table.rows = before ++ arena.rowAt place :: after ∧
      ∀ row ∈ before, row.id ≠ (arena.rowAt place).id
  known : ∀ row ∈ table.rows, row.id.slot < arena.size

section Copies

variable {table : Table} {arena : Arena}

theorem Transcribes.row?_of_lt
    (hcopy : table.Transcribes arena)
    {id : NodeId}
    (hnode : id.slot < arena.size) :
    table.row? id = some (arena.rowAt id.slot) := by
  obtain ⟨before, after, hrows, hbefore⟩ := hcopy.first id.slot hnode
  have hid : (arena.rowAt id.slot).id = id := NodeId.ofNat_slot id
  rw [row?, List.find?_eq_some_iff_append]
  refine ⟨by simp [hid], before, after, hrows, ?_⟩
  intro row hrow
  have hother := hbefore row hrow
  rw [hid] at hother
  simpa using hother

theorem Transcribes.row?_of_le
    (hcopy : table.Transcribes arena)
    {id : NodeId}
    (houtside : arena.size ≤ id.slot) :
    table.row? id = none := by
  rw [row?, List.find?_eq_none]
  intro row hrow hid
  have hknown := hcopy.known row hrow
  rw [of_decide_eq_true hid] at hknown
  omega

/-- A copy answers as the arena does, node or not. -/
theorem Transcribes.tree_eq
    {history : List Edit}
    (hcopy : table.Transcribes arena)
    (hreflects : arena.Reflects history) :
    table.tree = arena.tree := by
  have hanswers (id : NodeId) :
      table.tree.kind id = arena.tree.kind id ∧
      table.tree.parent id = arena.tree.parent id ∧
      table.tree.callee id = arena.tree.callee id ∧
      table.tree.span id = arena.tree.span id := by
    by_cases hnode : id.slot < arena.size
    · have hrow := hcopy.row?_of_lt hnode
      simp [tree, hrow, Arena.rowAt, NodeId.ofNat_slot]
    · -- The number of no node lies beyond every arena, so it is met here.
      have houtside := Nat.not_lt.mp hnode
      have hrow := hcopy.row?_of_le houtside
      obtain ⟨hkind, hparent, hcallee, hspan⟩ :=
        hreflects.tree_outside houtside
      simp [tree, hrow, hkind, hparent, hcallee, hspan]
  rw [Tree.mk.injEq]
  refine ⟨?_, ?_, ?_, ?_⟩
  · funext id
    exact (hanswers id).1
  · funext id
    exact (hanswers id).2.1
  · funext id
    exact (hanswers id).2.2.1
  · funext id
    exact (hanswers id).2.2.2

end Copies

end Table

namespace Scope

/-- The recorded scope as a host keeps it. -/
def forHost (scope : Scope Variable) : Scope HostVariable :=
  ⟨scope.bindings.map Variable.forHost, scope.through⟩

section ForHost

variable (scope : Scope Variable) (name : String)

theorem named?_forHost :
    scope.forHost.named? name = (scope.named? name).map Variable.forHost := by
  rw [named?, forHost, List.find?_map]
  rfl

theorem resolve?_forHost :
    scope.forHost.resolve? name =
      (scope.resolve? name).map Variable.forHost := by
  rw [resolve?, named?_forHost, Option.filter_map]
  rfl

theorem resolveIdx?_forHost :
    scope.forHost.resolveIdx? name = scope.resolveIdx? name := by
  rw [resolveIdx?, resolve?_forHost, Option.isSome_map, forHost,
    List.findIdx?_map]
  rfl

theorem declares_forHost :
    scope.forHost.declares name = scope.declares name := by
  rw [declares, resolve?_forHost, Option.isSome_map, declares]

end ForHost

end Scope

namespace Table

/--
**A table and an arena agree.**  Whatever arena is built and however it is
copied, and whatever scope goes with it, with names repeated or not: every
query, every walk and every verdict is the same, each variable is implicit or
declared in both forms, each name resolves to the same place, and the rule
hands the same findings and the same count to any sink.
-/
theorem transcript_agrees
    (history : List Edit)
    (hfew : history.countP Edit.creates < UInt32.size - 1)
    (table : Table)
    (hcopy : table.Transcribes (Arena.empty.replay history))
    (scope : Scope Variable) :
    let arena := Arena.empty.replay history
    (∀ id,
      table.tree.kind id = arena.tree.kind id ∧
      table.tree.parent id = arena.tree.parent id ∧
      table.tree.callee id = arena.tree.callee id ∧
      table.tree.span id = arena.tree.span id ∧
      ∀ steps, table.tree.ancestor id steps = arena.tree.ancestor id steps) ∧
    (∀ v ∈ scope.bindings,
      Binding.isImplicit v.forHost = Binding.isImplicit v ∧
      Binding.isDeclared v.forHost = Binding.isDeclared v) ∧
    (∀ name, scope.forHost.resolveIdx? name = scope.resolveIdx? name) ∧
    (∀ id declared,
      table.tree.shape id declared = arena.tree.shape id declared) ∧
    (∀ (σ : Type) (take : σ → Diagnostic → σ) (sink : σ)
        (settings : Settings) (file : String),
      Rule.check settings file table.tree scope.forHost take sink =
        Rule.check settings file arena.tree scope take sink) := by
  intro arena
  have hreflects : arena.Reflects history :=
    Arena.empty_reflects.replay history (by simpa using Nat.lt_of_lt_pred hfew)
  have htree : table.tree = arena.tree := hcopy.tree_eq hreflects
  refine ⟨?_, ?_, scope.resolveIdx?_forHost, ?_, ?_⟩
  · intro id
    simp [htree]
  · intro v _
    exact ⟨rfl, rfl⟩
  · intro id declared
    rw [htree]
  · intro σ take sink settings file
    have hthrough : scope.forHost.through = scope.through := rfl
    rw [htree]
    apply Rule.check_congr hthrough
    intro category reference _
    rw [Rule.finding?, Rule.finding?, Rule.verdict, Rule.verdict,
      Scope.declares_forHost]

/--
The links form a cycle and one leads outside the arena; the rows are out of
order, and a second row about the call contradicts the first.  Of two variables
with one name the first is not declared, so the name resolves to nothing.
-/
theorem transcript_agrees_cycle :
    let history : List Edit :=
      [.name "f" ⟨0, 1⟩, .invocation ⟨0⟩ [⟨0⟩] ⟨0, 3⟩,
        .bare .callExpression ⟨0, 4⟩, .link ⟨1⟩ ⟨0⟩, .link ⟨2⟩ ⟨9⟩]
    let table : Table :=
      ⟨[⟨⟨2⟩, some .callExpression, some ⟨9⟩, none, some ⟨0, 4⟩⟩,
        ⟨⟨1⟩, some .callExpression, some ⟨0⟩, some ⟨0⟩, some ⟨0, 3⟩⟩,
        ⟨⟨1⟩, some .program, none, none, none⟩,
        ⟨⟨0⟩, some .identifier, some ⟨1⟩, none, some ⟨0, 1⟩⟩]⟩
    let scope : Scope Variable :=
      ⟨[.undefined "f", (Variable.undefined "f").mark true], [⟨⟨0⟩, "f"⟩]⟩
    history.countP Edit.creates < UInt32.size - 1 ∧
    table.Transcribes (Arena.empty.replay history) ∧
    table.tree.ancestor ⟨0⟩ 10000 =
      (Arena.empty.replay history).tree.ancestor ⟨0⟩ 10000 ∧
    table.tree.parent .absent = none ∧
    scope.forHost.resolveIdx? "f" = none := by
  intro history table scope
  have hfew : history.countP Edit.creates < UInt32.size - 1 := by
    decide
  have hcopy : table.Transcribes (Arena.empty.replay history) := by
    constructor
    · have hrows :
          ∀ place < (Arena.empty.replay history).size,
            (table.rows.find? fun row =>
              row.id = ((Arena.empty.replay history).rowAt place).id) =
              some ((Arena.empty.replay history).rowAt place) := by
        decide
      intro place hplace
      obtain ⟨-, before, after, hsplit, hbefore⟩ :=
        List.find?_eq_some_iff_append.mp (hrows place hplace)
      exact ⟨before, after, hsplit, by simpa using hbefore⟩
    · decide
  obtain ⟨hqueries, -, hresolve, -⟩ :=
    transcript_agrees history hfew table hcopy scope
  refine ⟨hfew, hcopy, (hqueries _).2.2.2.2 _, ?_, ?_⟩
  · rw [(hqueries _).2.1]
    decide
  · rw [hresolve]
    decide

end Table

end MethodLint
