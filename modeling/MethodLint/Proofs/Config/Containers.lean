import MethodLint.Proofs.Config.Values

/-!
# The parts of an object or a list are found exactly

A reader of a container asks what comes next: another part, or the end.  Every
part but the first follows a comma, and a comma is followed by a part; so a
trailing comma is never accepted.

**Leads.**  `Lead` is what stands before a part: a gap, and for every part but
the first a comma with gaps on both sides.  The equivalences below cut a text
into a lead and what follows it.
-/

namespace MethodLint
namespace Config

open Grammar

namespace Grammar

/-- What stands before a part of a container. -/
inductive Lead : Bool → List Char → Prop
  | first {gap : List Char} : Gap gap → Lead true gap
  | comma {gap behind : List Char} :
      Gap gap → Gap behind → Lead false (gap ++ ',' :: behind)

theorem gap_nil : Gap [] := by
  simp [Gap]

theorem Gap.append {front back : List Char}
    (hfront : Gap front)
    (hback : Gap back) :
    Gap (front ++ back) := by
  intro c hc
  rcases List.mem_append.mp hc with hc | hc
  · exact hfront c hc
  · exact hback c hc

theorem Lead.append_gap {first : Bool} {lead gap : List Char}
    (hlead : Lead first lead)
    (hgap : Gap gap) :
    Lead first (lead ++ gap) := by
  cases hlead with
  | first hfront =>
      exact .first (hfront.append hgap)
  | comma hfront hbehind =>
      rw [List.append_assoc, List.cons_append]
      exact .comma hfront (hbehind.append hgap)

end Grammar

/-- Neither a gap nor a mark of a container makes a numeral longer. -/
theorem stops_of_mark
    {gap rest : List Char} {mark : Char}
    (hgap : Gap gap)
    (hmark : mark ∈ [',', ']', '\x7d']) :
    Numeral.Stops (gap ++ mark :: rest) := by
  intro c hc
  have hmem : c ∈ [' ', '\t', '\n', '\r'] ∨ c ∈ [',', ']', '\x7d'] := by
    cases gap with
    | nil =>
        obtain rfl := Option.some.inj hc
        exact .inr hmark
    | cons d gap =>
        obtain rfl := Option.some.inj hc
        exact .inl (hgap d List.mem_cons_self)
  simp only [List.mem_cons, List.not_mem_nil, or_false] at hmem
  rcases hmem with (rfl | rfl | rfl | rfl) | (rfl | rfl | rfl) <;> decide

section Next

variable {s rest : List Char}

theorem nextKey_eq_none_iff {first : Bool} :
    nextKey first s = .ok (none, rest) ↔
      ∃ gap tail, Gap gap ∧ rest = '\x7d' :: tail ∧ s = gap ++ rest := by
  constructor
  · intro hread
    unfold nextKey at hread
    split at hread
    · cases hread
    · next c tail hcons =>
        obtain ⟨-, gap, hgap, rfl⟩ := skipGap_eq_cons_iff.mp hcons
        split at hread
        · next hbrace =>
            obtain ⟨-, rfl⟩ := Prod.mk.inj (Except.ok.inj hread)
            exact ⟨gap, tail, hgap, by rw [hbrace], rfl⟩
        · -- In every other case there is a key or a fault.
          split at hread
          · obtain ⟨_, -, hpair⟩ := map_eq_ok_iff.mp hread
            cases hpair
          · split at hread
            · split at hread
              · cases hread
              · split at hread
                · cases hread
                · obtain ⟨_, -, hpair⟩ := map_eq_ok_iff.mp hread
                  cases hpair
            · cases hread
  · rintro ⟨gap, tail, hgap, rfl, rfl⟩
    rw [nextKey, skipGap_append hgap (by simp [isGap])]
    simp

theorem nextKey_eq_some_iff {first : Bool} {text : String} :
    nextKey first s = .ok (some text, rest) ↔
      ∃ lead quoted, Lead first lead ∧ Quoted quoted text ∧
        s = lead ++ (quoted ++ rest) := by
  constructor
  · intro hread
    unfold nextKey at hread
    split at hread
    · cases hread
    · next c tail hcons =>
        obtain ⟨-, gap, hgap, rfl⟩ := skipGap_eq_cons_iff.mp hcons
        split at hread
        · cases hread
        · split at hread
          · next hfirst =>
              subst hfirst
              obtain ⟨⟨text', after⟩, hkey, hpair⟩ := map_eq_ok_iff.mp hread
              cases hpair
              obtain ⟨quoted, hquoted, hsplit⟩ := key_eq_ok_iff.mp hkey
              exact ⟨gap, quoted, .first hgap, hquoted, by rw [hsplit]⟩
          · next hlater =>
              rw [Bool.not_eq_true] at hlater
              subst hlater
              split at hread
              · next hcomma =>
                  subst hcomma
                  split at hread
                  · cases hread
                  · next d after hcons' =>
                      obtain ⟨-, behind, hbehind, rfl⟩ :=
                        skipGap_eq_cons_iff.mp hcons'
                      split at hread
                      · cases hread
                      · obtain ⟨⟨text', after'⟩, hkey, hpair⟩ :=
                          map_eq_ok_iff.mp hread
                        cases hpair
                        obtain ⟨quoted, hquoted, hsplit⟩ :=
                          key_eq_ok_iff.mp hkey
                        refine
                          ⟨gap ++ ',' :: behind, quoted, .comma hgap hbehind,
                            hquoted, ?_⟩
                        rw [hsplit]
                        simp
              · cases hread
  · rintro ⟨lead, quoted, hlead, hquoted, rfl⟩
    have hkey : key (quoted ++ rest) = .ok (text, rest) :=
      key_eq_ok_iff.mpr ⟨quoted, hquoted, rfl⟩
    obtain ⟨inner, rfl⟩ := List.head?_eq_some_iff.mp hquoted.head?
    cases hlead with
    | first hgap =>
        rw [nextKey, skipGap_append hgap (by simp [isGap])]
        simp only [List.cons_append] at hkey ⊢
        simp [hkey, Except.map]
    | comma hgap hbehind =>
        have hskip :=
          skipGap_append (s := '"' :: (inner ++ rest)) hbehind
            (by simp [isGap])
        rw [nextKey, List.append_assoc, skipGap_append hgap (by simp [isGap])]
        simp only [List.cons_append] at hkey ⊢
        simp [hskip, hkey, Except.map]

theorem colon_eq_ok_iff :
    colon s = .ok rest ↔ ∃ gap, Gap gap ∧ s = gap ++ ':' :: rest := by
  constructor
  · intro hread
    unfold colon at hread
    split at hread
    · cases hread
    · next c tail hcons =>
        obtain ⟨-, gap, hgap, rfl⟩ := skipGap_eq_cons_iff.mp hcons
        split at hread
        · next hcolon =>
            obtain rfl := Except.ok.inj hread
            exact ⟨gap, hgap, by rw [hcolon]⟩
        · cases hread
  · rintro ⟨gap, hgap, rfl⟩
    rw [colon, skipGap_append hgap (by simp [isGap])]
    simp

theorem nextElement_eq_false_iff {first : Bool} :
    nextElement first s = .ok (false, rest) ↔
      ∃ gap tail, Gap gap ∧ rest = ']' :: tail ∧ s = gap ++ rest := by
  constructor
  · intro hread
    unfold nextElement at hread
    split at hread
    · cases hread
    · next c tail hcons =>
        obtain ⟨-, gap, hgap, rfl⟩ := skipGap_eq_cons_iff.mp hcons
        split at hread
        · next hbracket =>
            obtain ⟨-, rfl⟩ := Prod.mk.inj (Except.ok.inj hread)
            exact ⟨gap, tail, hgap, by rw [hbracket], rfl⟩
        · -- In every other case there is an element or a fault.
          split at hread
          · cases hread
          · split at hread
            · split at hread
              · cases hread
              · split at hread <;> cases hread
            · cases hread
  · rintro ⟨gap, tail, hgap, rfl, rfl⟩
    rw [nextElement, skipGap_append hgap (by simp [isGap])]
    simp

theorem nextElement_eq_true_iff {first : Bool} :
    nextElement first s = .ok (true, rest) ↔
      ∃ lead c tail, Lead first lead ∧ isGap c = false ∧ c ≠ ']' ∧
        rest = c :: tail ∧ s = lead ++ rest := by
  constructor
  · intro hread
    unfold nextElement at hread
    split at hread
    · cases hread
    · next c tail hcons =>
        obtain ⟨hc, gap, hgap, rfl⟩ := skipGap_eq_cons_iff.mp hcons
        split at hread
        · cases hread
        · next hend =>
            split at hread
            · next hfirst =>
                subst hfirst
                obtain ⟨-, rfl⟩ := Prod.mk.inj (Except.ok.inj hread)
                exact ⟨gap, c, tail, .first hgap, hc, hend, rfl, rfl⟩
            · next hlater =>
                rw [Bool.not_eq_true] at hlater
                subst hlater
                split at hread
                · next hcomma =>
                    subst hcomma
                    split at hread
                    · cases hread
                    · next d after hcons' =>
                        obtain ⟨hd, behind, hbehind, rfl⟩ :=
                          skipGap_eq_cons_iff.mp hcons'
                        split at hread
                        · cases hread
                        · next hend' =>
                            obtain ⟨-, rfl⟩ :=
                              Prod.mk.inj (Except.ok.inj hread)
                            exact
                              ⟨gap ++ ',' :: behind, d, after,
                                .comma hgap hbehind, hd, hend', rfl, by simp⟩
                · cases hread
  · rintro ⟨lead, c, tail, hlead, hc, hend, rfl, rfl⟩
    cases hlead with
    | first hgap =>
        rw [nextElement, skipGap_append hgap (by simpa using hc)]
        simp [hend]
    | comma hgap hbehind =>
        have hskip :=
          skipGap_append (s := c :: tail) hbehind (by simpa using hc)
        rw [nextElement, List.append_assoc,
          skipGap_append hgap (by simp [isGap])]
        simp [hskip, hend]

end Next

section Ends

theorem close_closeObject (rest : List Char) :
    close closeObject ('\x7d' :: rest) = .ok rest := by
  simp [close, closeObject, skipGap, isGap]

theorem close_closeList_eq_ok_iff {s rest : List Char} :
    close closeList s = .ok rest ↔ ∃ gap, Gap gap ∧ s = gap ++ ']' :: rest := by
  constructor
  · intro hread
    unfold close at hread
    split at hread
    · next after hclose =>
        obtain rfl := Except.ok.inj hread
        unfold closeList at hclose
        split at hclose
        · cases hclose
        · next c tail hcons =>
            obtain ⟨-, gap, hgap, rfl⟩ := skipGap_eq_cons_iff.mp hcons
            split at hclose
            · next hbracket =>
                obtain ⟨-, rfl⟩ := Prod.mk.inj hclose
                exact ⟨gap, hgap, by rw [hbracket]⟩
            · split at hclose
              · split at hclose
                · cases hclose
                · split at hclose <;> cases hclose
              · cases hclose
    · cases hread
  · rintro ⟨gap, hgap, rfl⟩
    rw [close, closeList, skipGap_append hgap (by simp [isGap])]
    simp

theorem settle_eq_ok_iff {α : Type} {closing : Closing}
    {body : Except Refusal (α × List Char)} {a : α} {rest : List Char} :
    settle closing body = .ok (a, rest) ↔
      ∃ between, body = .ok (a, between) ∧
        close closing between = .ok rest := by
  rcases body with (fault | ⟨cause, after⟩) | ⟨b, after⟩
  · simp [settle]
  · simp [settle]
  · simp [settle, map_eq_ok_iff, and_comm]

end Ends

end Config
end MethodLint
