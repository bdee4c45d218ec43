import MethodLint.Scope.Record
import Mathlib.Data.List.Induction

/-!
# What a recorder has recorded

A recorder is driven by a history of facts, some of which it refuses.  This
module tells, from the accepted facts alone, what scope comes out.

**Specification.**  `History.names` are the declared names, each once and in
the order of their first declarations.  `History.variableOf` gathers all that
the facts say about one name: every definition in order, and the last mark.
`History.references` are the references in order.

**Invariant.**  `Recorder.Reflects` says that the variables are the gathered
ones, that the index gives the place of each name, and that the references
are the recorded ones.  Every accepted fact keeps it, and a refused fact
changes nothing.  Which facts are accepted is a matter of each fact and its
arena, not of the recorder.
-/

namespace MethodLint

namespace Fact

/-- The name that a fact declares; a reference declares none. -/
def subject? : Fact → Option String
  | declared name .. | declaredGlobal name _ | usedGlobal name _ => some name
  | referred _ => none

/-- The definition that a fact adds to its name. -/
def definition? : Fact → Option Definition
  | declared _ kind node => some ⟨kind, node⟩
  | declaredGlobal .. => some ⟨.implicitGlobal, .absent⟩
  | usedGlobal _ node => some ⟨.implicitGlobal, node⟩
  | referred _ => none

/-- The mark that a fact puts on its name. -/
def mark? : Fact → Option Bool
  | declaredGlobal _ writeable => some writeable
  | _ => none

/-- The reference that a fact records, read in the arena of its moment. -/
def reference? (arena : Arena) : Fact → Option Reference
  | referred node => (arena.name? node).map fun name => ⟨node, name⟩
  | _ => none

/--
The refusal of a fact: a declared name must not be empty, and a reference
must be at a node that has a name.
-/
def refusal? (arena : Arena) : Fact → Option RecordError
  | declared name .. | declaredGlobal name _ | usedGlobal name _ =>
      if name = "" then some .unnamed else none
  | referred node =>
      if arena.name? node = none then some (.notIdentifier node) else none

/-- What a declaring fact does to the variable of its name. -/
def extend (fact : Fact) (v : Variable) : Variable where
  name := v.name
  definitions := v.definitions ++ fact.definition?.toList
  writeable := fact.mark?.or v.writeable

/-- A fact that declares a name is refused exactly if the name is empty. -/
theorem refusal?_of_subject?
    {fact : Fact} {name : String}
    (arena : Arena)
    (hsubject : fact.subject? = some name) :
    fact.refusal? arena = if name = "" then some .unnamed else none := by
  cases fact with
  | referred node =>
      simp [subject?] at hsubject
  | declared subject kind node =>
      simp only [subject?, Option.some.injEq] at hsubject
      simp [refusal?, hsubject]
  | declaredGlobal subject writeable =>
      simp only [subject?, Option.some.injEq] at hsubject
      simp [refusal?, hsubject]
  | usedGlobal subject node =>
      simp only [subject?, Option.some.injEq] at hsubject
      simp [refusal?, hsubject]

theorem ne_empty_of_refusal?
    {fact : Fact} {name : String} {arena : Arena}
    (hsubject : fact.subject? = some name)
    (haccepted : fact.refusal? arena = none) :
    name ≠ "" := by
  rintro rfl
  simp [refusal?_of_subject? arena hsubject] at haccepted

theorem exists_eq_referred
    {fact : Fact}
    (hsubject : fact.subject? = none) :
    ∃ node, fact = referred node := by
  cases fact with
  | referred node =>
      exact ⟨node, rfl⟩
  | declared | declaredGlobal | usedGlobal =>
      simp [subject?] at hsubject

theorem reference?_of_subject?
    {fact : Fact} {name : String}
    (arena : Arena)
    (hsubject : fact.subject? = some name) :
    fact.reference? arena = none := by
  cases fact with
  | referred node =>
      simp [subject?] at hsubject
  | declared | declaredGlobal | usedGlobal =>
      rfl

end Fact

namespace History

def about (calls : List (Arena × Fact)) (name : String) : List Fact :=
  (calls.map Prod.snd).filter fun fact => fact.subject? = some name

/-- The declared names, each at its first declaration. -/
def names (calls : List (Arena × Fact)) : List String :=
  (calls.filterMap fun call => call.2.subject?).eraseDups

/-- All that the facts say about a name. -/
def variableOf (calls : List (Arena × Fact)) (name : String) : Variable where
  name := name
  definitions := (about calls name).filterMap Fact.definition?
  writeable := ((about calls name).filterMap Fact.mark?).getLast?

def references (calls : List (Arena × Fact)) : List Reference :=
  calls.filterMap fun call => call.2.reference? call.1

section Growth

variable {calls : List (Arena × Fact)} {arena : Arena} {fact : Fact} {name : String}

theorem names_append_of_subject?_eq_none
    (hsubject : fact.subject? = none) :
    names (calls ++ [(arena, fact)]) = names calls := by
  simp [names, hsubject]

/-- A declared name stands at the end, unless it was declared before. -/
theorem names_append_of_subject?
    (hsubject : fact.subject? = some name) :
    names (calls ++ [(arena, fact)]) =
      if name ∈ names calls then names calls else names calls ++ [name] := by
  have hmem :
      name ∈ names calls ↔
        name ∈ calls.filterMap fun call => call.2.subject? := by
    rw [names, List.mem_eraseDups]
  simp only [hmem]
  simp only [names, List.filterMap_append, List.filterMap_cons,
    List.filterMap_nil, hsubject, List.eraseDups_append]
  split
  · next hold =>
      simp [List.removeAll, hold]
  · next hnew =>
      simp [List.removeAll, hnew, List.eraseDups_cons]

theorem names_nodup (calls : List (Arena × Fact)) :
    (names calls).Nodup := by
  induction calls using List.reverseRecOn with
  | nil =>
      simp [names]
  | append_singleton calls call ih =>
      rcases call with ⟨arena, fact⟩
      cases hsubject : fact.subject? with
      | none =>
          rw [names_append_of_subject?_eq_none hsubject]
          exact ih
      | some name =>
          rw [names_append_of_subject? hsubject]
          split
          · exact ih
          · next hnew =>
              refine List.nodup_append.mpr ⟨ih, by simp, ?_⟩
              intro other hother added hadded heq
              have hname : added = name := by
                simpa using hadded
              subst heq hname
              exact hnew hother

/-- A fact changes what is gathered about its name, and about no other. -/
theorem variableOf_append (other : String) :
    variableOf (calls ++ [(arena, fact)]) other =
      if fact.subject? = some other then
        fact.extend (variableOf calls other)
      else
        variableOf calls other := by
  by_cases hsubject : fact.subject? = some other
  · have habout :
        about (calls ++ [(arena, fact)]) other =
          about calls other ++ [fact] := by
      simp [about, hsubject]
    rw [if_pos hsubject, variableOf, habout, List.filterMap_append,
      List.filterMap_append, List.getLast?_append]
    cases fact <;> rfl
  · simp [variableOf, about, hsubject]

/-- A name is declared exactly if some fact is about it. -/
theorem mem_names_iff (calls : List (Arena × Fact)) (name : String) :
    name ∈ names calls ↔ about calls name ≠ [] := by
  constructor
  · intro hmem hnone
    rw [names, List.mem_eraseDups, List.mem_filterMap] at hmem
    obtain ⟨⟨arena, fact⟩, hcall, hsubject⟩ := hmem
    have habout : fact ∈ about calls name :=
      List.mem_filter.mpr
        ⟨List.mem_map_of_mem hcall, decide_eq_true hsubject⟩
    rw [hnone] at habout
    cases habout
  · intro hsome
    by_contra hnew
    apply hsome
    rw [about, List.filter_eq_nil_iff]
    intro fact hfact hsubject
    obtain ⟨call, hcall, rfl⟩ := List.mem_map.mp hfact
    apply hnew
    rw [names, List.mem_eraseDups, List.mem_filterMap]
    exact ⟨call, hcall, by simpa using hsubject⟩

theorem variableOf_of_not_mem
    (hnew : name ∉ names calls) :
    variableOf calls name = .undefined name := by
  have hnone : about calls name = [] := by
    rw [mem_names_iff, not_not] at hnew
    exact hnew
  simp [variableOf, hnone, Variable.undefined]

end Growth

end History

namespace Recorder

/-- The facts of a history that the recorder does not refuse. -/
def accepted (recorder : Recorder) :
    List (Arena × Fact) → List (Arena × Fact)
  | [] => []
  | (arena, fact) :: rest =>
      match recorder.record arena fact with
      | (next, .ok _) => (arena, fact) :: next.accepted rest
      | (next, .error _) => next.accepted rest

/-- The recorder holds what the given accepted facts say. -/
structure Reflects
    (recorder : Recorder)
    (calls : List (Arena × Fact)) : Prop where
  bindings :
    recorder.bindings = (History.names calls).map (History.variableOf calls)
  places :
    ∀ name, recorder.places.lookup name = (History.names calls).idxOf? name
  through : recorder.through = History.references calls

theorem empty_reflects : empty.Reflects [] where
  bindings := rfl
  places := by
    intro name
    rfl
  through := rfl

/-- Changing one place of a list without repetitions changes one name. -/
theorem modify_map_idxOf?
    {names : List String} {name : String} {place : Nat}
    (hnodup : names.Nodup)
    (hplace : names.idxOf? name = some place)
    (of : String → Variable)
    (change : Variable → Variable) :
    (names.map of).modify place change =
      names.map fun other =>
        if other = name then change (of other) else of other := by
  induction names generalizing place with
  | nil =>
      simp at hplace
  | cons first rest ih =>
      obtain ⟨hfirst, hrest⟩ := List.nodup_cons.mp hnodup
      rw [List.idxOf?_cons] at hplace
      by_cases heq : first = name
      · -- No later place changes, because the name does not come again.
        subst heq
        have hzero : place = 0 := by
          simpa using hplace.symm
        have hsame :
            ∀ other ∈ rest,
              of other =
                if other = first then change (of other) else of other := by
          intro other hother
          have hne : other ≠ first := by
            rintro rfl
            exact hfirst hother
          simp [hne]
        simp only [hzero, List.map_cons, List.modify_zero_cons, if_true,
          List.cons.injEq, true_and]
        exact List.map_congr_left hsame
      · have hbeq : (first == name) = false := by
          simpa using heq
        simp only [hbeq, Bool.false_eq_true, if_false,
          Option.map_eq_some_iff] at hplace
        rcases hplace with ⟨below, hbelow, rfl⟩
        simp only [List.map_cons, List.modify_succ_cons, heq, if_false,
          List.cons.injEq, true_and]
        exact ih hrest hbelow

/-- An index of names stays one when a new name is put at the end. -/
theorem lookup_cons_idxOf?
    {names : List String} {name : String}
    {places : List (String × Nat)}
    (hplaces : ∀ other, places.lookup other = names.idxOf? other)
    (hnew : name ∉ names)
    (other : String) :
    ((name, names.length) :: places).lookup other =
      (names ++ [name]).idxOf? other := by
  rw [List.lookup_cons, hplaces]
  unfold List.idxOf?
  rw [List.findIdx?_append]
  by_cases heq : other = name
  · subst heq
    have hnone : names.findIdx? (· == other) = none :=
      List.idxOf?_eq_none_iff.mpr hnew
    simp [hnone]
  · have hbeq : (other == name) = false := by
      simpa using heq
    have hne : name ≠ other := Ne.symm heq
    simp [hbeq, hne]

section Steps

variable {recorder : Recorder} {calls : List (Arena × Fact)}
  {arena : Arena} {fact : Fact} {name : String}

/--
Locating the name of a fact makes room for it: the variables then stand for
the names that are declared once the fact is accepted, and the index knows
them all.
-/
theorem Reflects.locate
    (arena : Arena)
    (hreflects : recorder.Reflects calls)
    (hnamed : name ≠ "")
    (hsubject : fact.subject? = some name) :
    ∃ left place,
      recorder.locate name = (left, .ok place) ∧
      left.bindings =
        (History.names (calls ++ [(arena, fact)])).map
          (History.variableOf calls) ∧
      (∀ other,
        left.places.lookup other =
          (History.names (calls ++ [(arena, fact)])).idxOf? other) ∧
      left.places.lookup name = some place ∧
      left.through = recorder.through := by
  rw [History.names_append_of_subject? hsubject]
  cases hplace : recorder.places.lookup name with
  | some place =>
      have hold : name ∈ History.names calls := by
        rw [hreflects.places] at hplace
        by_contra hnew
        simp [List.idxOf?_eq_none_iff.mpr hnew] at hplace
      refine ⟨recorder, place, ?_, ?_, ?_, hplace, rfl⟩
      · simp [Recorder.locate, hnamed, hplace]
      · rw [if_pos hold]
        exact hreflects.bindings
      · rw [if_pos hold]
        exact hreflects.places
  | none =>
      have hnew : name ∉ History.names calls := by
        rw [hreflects.places] at hplace
        exact List.idxOf?_eq_none_iff.mp hplace
      have hlength :
          recorder.bindings.length = (History.names calls).length := by
        rw [hreflects.bindings, List.length_map]
      refine
        ⟨⟨recorder.bindings ++ [.undefined name],
            (name, recorder.bindings.length) :: recorder.places,
            recorder.through⟩,
          recorder.bindings.length, ?_, ?_, ?_, ?_, rfl⟩
      · simp [Recorder.locate, hnamed, hplace]
      · rw [if_neg hnew, List.map_append, ← hreflects.bindings]
        simp [History.variableOf_of_not_mem hnew]
      · intro other
        rw [if_neg hnew, hlength]
        exact lookup_cons_idxOf? hreflects.places hnew other
      · simp

theorem Reflects.amend
    (hreflects : recorder.Reflects calls)
    (hnamed : name ≠ "")
    (hsubject : fact.subject? = some name) :
    ∃ next,
      recorder.amend name fact.extend = (next, .ok ()) ∧
      next.Reflects (calls ++ [(arena, fact)]) := by
  obtain ⟨left, place, hlocate, hbindings, hplaces, hplace, hthrough⟩ :=
    hreflects.locate arena hnamed hsubject
  refine
    ⟨{ left with bindings := left.bindings.modify place fact.extend },
      ?_, ?_, hplaces, ?_⟩
  · simp [Recorder.amend, hlocate]
  · rw [hplaces] at hplace
    have hmodify :=
      modify_map_idxOf? (History.names_nodup _) hplace
        (History.variableOf calls) fact.extend
    rw [hbindings, hmodify]
    apply List.map_congr_left
    intro other _
    rw [History.variableOf_append, hsubject]
    simp [eq_comm]
  · have hnone := Fact.reference?_of_subject? arena hsubject
    simp [hthrough, hreflects.through, History.references, hnone]

theorem record_eq_amend
    (recorder : Recorder)
    (arena : Arena)
    (hsubject : fact.subject? = some name) :
    recorder.record arena fact = recorder.amend name fact.extend := by
  cases fact with
  | referred node =>
      simp [Fact.subject?] at hsubject
  | declared subject kind node =>
      simp only [Fact.subject?, Option.some.injEq] at hsubject
      subst hsubject
      rfl
  | declaredGlobal subject writeable =>
      simp only [Fact.subject?, Option.some.injEq] at hsubject
      subst hsubject
      rfl
  | usedGlobal subject node =>
      simp only [Fact.subject?, Option.some.injEq] at hsubject
      subst hsubject
      rfl

/-- A refused fact is refused for its reason, and leaves the recorder alone. -/
theorem record_of_refusal?
    (recorder : Recorder)
    {refusal : RecordError}
    (hrefusal : fact.refusal? arena = some refusal) :
    recorder.record arena fact = (recorder, .error refusal) := by
  cases hsubject : fact.subject? with
  | some name =>
      rw [Fact.refusal?_of_subject? arena hsubject] at hrefusal
      split at hrefusal
      · next hempty =>
          have hunnamed : refusal = .unnamed := by
            simpa using hrefusal.symm
          rw [record_eq_amend recorder arena hsubject]
          simp [Recorder.amend, Recorder.locate, hempty, hunnamed]
      · cases hrefusal
  | none =>
      obtain ⟨node, rfl⟩ := Fact.exists_eq_referred hsubject
      cases hname : arena.name? node with
      | none =>
          have hnot : refusal = .notIdentifier node := by
            simpa [Fact.refusal?, hname] using hrefusal.symm
          simp [Recorder.record, Recorder.refer, hname, hnot]
      | some name =>
          simp [Fact.refusal?, hname] at hrefusal

/-- Whatever the recorder, a fact that is not refused succeeds. -/
theorem record_of_refusal?_eq_none
    (recorder : Recorder)
    (haccepted : fact.refusal? arena = none) :
    recorder.record arena fact = (recorder.absorb arena fact, .ok ()) := by
  -- The recorder that is left is `absorb` by definition; only the answer
  -- has to be shown.
  refine Prod.ext rfl ?_
  cases hsubject : fact.subject? with
  | some name =>
      have hnamed := Fact.ne_empty_of_refusal? hsubject haccepted
      rw [record_eq_amend recorder arena hsubject]
      cases hplace : recorder.places.lookup name <;>
        simp [Recorder.amend, Recorder.locate, hnamed, hplace]
  | none =>
      obtain ⟨node, rfl⟩ := Fact.exists_eq_referred hsubject
      cases hname : arena.name? node with
      | none =>
          simp [Fact.refusal?, hname] at haccepted
      | some name =>
          simp [Recorder.record, Recorder.refer, hname]

/-- Whether a fact is accepted does not depend on what came before it. -/
theorem accepted_eq_filter
    (recorder : Recorder)
    (history : List (Arena × Fact)) :
    recorder.accepted history =
      history.filter fun call => call.2.refusal? call.1 = none := by
  induction history generalizing recorder with
  | nil =>
      rfl
  | cons call rest ih =>
      rcases call with ⟨arena, fact⟩
      cases hrefusal : fact.refusal? arena with
      | some refusal =>
          simp [accepted, record_of_refusal? recorder hrefusal, hrefusal, ih]
      | none =>
          simp [accepted, record_of_refusal?_eq_none recorder hrefusal,
            hrefusal, ih]

theorem through_amend
    (recorder : Recorder)
    (name : String)
    (change : Variable → Variable) :
    (recorder.amend name change).1.through = recorder.through := by
  unfold Recorder.amend Recorder.locate
  by_cases hempty : name = ""
  · simp [hempty]
  · cases hplace : recorder.places.lookup name <;>
      simp [hempty]

theorem through_absorb
    (recorder : Recorder)
    (arena : Arena)
    (fact : Fact) :
    (recorder.absorb arena fact).through =
      recorder.through ++ (fact.reference? arena).toList := by
  cases hsubject : fact.subject? with
  | some name =>
      rw [Recorder.absorb, record_eq_amend recorder arena hsubject,
        through_amend, Fact.reference?_of_subject? arena hsubject]
      exact (List.append_nil _).symm
  | none =>
      obtain ⟨node, rfl⟩ := Fact.exists_eq_referred hsubject
      cases hname : arena.name? node <;>
        simp [Recorder.absorb, Recorder.record, Recorder.refer,
          Fact.reference?, hname]

/-- A fact that is not refused is recorded. -/
theorem Reflects.record
    (hreflects : recorder.Reflects calls)
    (haccepted : fact.refusal? arena = none) :
    ∃ next,
      recorder.record arena fact = (next, .ok ()) ∧
      next.Reflects (calls ++ [(arena, fact)]) := by
  cases hsubject : fact.subject? with
  | some name =>
      have hnamed := Fact.ne_empty_of_refusal? hsubject haccepted
      rw [record_eq_amend recorder arena hsubject]
      exact hreflects.amend hnamed hsubject
  | none =>
      obtain ⟨node, rfl⟩ := Fact.exists_eq_referred hsubject
      cases hname : arena.name? node with
      | none =>
          simp [Fact.refusal?, hname] at haccepted
      | some name =>
          refine
            ⟨{ recorder with
                through := recorder.through ++ [⟨node, name⟩] },
              ?_, ?_, ?_, ?_⟩
          · simp [Recorder.record, Recorder.refer, hname]
          · rw [History.names_append_of_subject?_eq_none hsubject,
              hreflects.bindings]
            apply List.map_congr_left
            intro other _
            simp [History.variableOf_append, Fact.subject?]
          · intro other
            rw [History.names_append_of_subject?_eq_none hsubject]
            exact hreflects.places other
          · simp [hreflects.through, History.references,
              Fact.reference?, hname]

end Steps

theorem Reflects.replay
    {recorder : Recorder} {calls : List (Arena × Fact)}
    (hreflects : recorder.Reflects calls)
    (history : List (Arena × Fact)) :
    (recorder.replay history).Reflects
      (calls ++ recorder.accepted history) := by
  -- Refusals depend on the fact and its arena only, so the accepted calls can
  -- be gathered while the recorder moves on.
  induction history generalizing recorder calls with
  | nil =>
      simpa [Recorder.replay, Recorder.accepted] using hreflects
  | cons call rest ih =>
      rcases call with ⟨arena, fact⟩
      cases hrefusal : fact.refusal? arena with
      | some refusal =>
          have hrecord := record_of_refusal? recorder hrefusal
          simpa [Recorder.replay, Recorder.accepted, Recorder.absorb, hrecord]
            using ih hreflects
      | none =>
          obtain ⟨next, hrecord, hnext⟩ := hreflects.record hrefusal
          simpa [Recorder.replay, Recorder.accepted, Recorder.absorb, hrecord]
            using ih hnext

/--
**A recorder is determined by its history.**  Whatever facts it is told, its
scope has one variable for each declared name, in the order of the first
accepted declarations, with every definition and the last mark told of that
name, and the references in order; the index gives the place of each name.
A fact is refused exactly for its own reason, and then changes nothing.
-/
theorem replay_empty_determined (history : List (Arena × Fact)) :
    let recorder := empty.replay history
    let calls := empty.accepted history
    recorder.finish.bindings =
      (History.names calls).map (History.variableOf calls) ∧
    (recorder.finish.bindings.map Variable.name).Nodup ∧
    recorder.finish.through = History.references calls ∧
    (∀ name,
      recorder.places.lookup name =
        (recorder.bindings.map Variable.name).idxOf? name) ∧
    (∀ (before : Recorder) (arena : Arena) (fact : Fact),
      before.record arena fact =
        match fact.refusal? arena with
        | some refusal => (before, .error refusal)
        | none => (before.absorb arena fact, .ok ())) := by
  intro recorder calls
  have hreflects : recorder.Reflects calls :=
    empty_reflects.replay history
  have hnames :
      recorder.bindings.map Variable.name = History.names calls := by
    rw [hreflects.bindings, List.map_map]
    exact List.map_id _
  refine ⟨hreflects.bindings, ?_, hreflects.through, ?_, ?_⟩
  · change (recorder.bindings.map Variable.name).Nodup
    rw [hnames]
    exact History.names_nodup calls
  · intro name
    rw [hnames]
    exact hreflects.places name
  · intro before arena fact
    cases hrefusal : fact.refusal? arena with
    | some refusal =>
        exact record_of_refusal? before hrefusal
    | none =>
        exact record_of_refusal?_eq_none before hrefusal

end Recorder

end MethodLint
