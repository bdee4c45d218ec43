import MethodLint.Proofs.Config.Containers
import MethodLint.Proofs.Config.Drafts

/-!
# Objects and lists are read exactly

**Objects.**  One step of the reader takes one setting that the draft does not
hold yet, and puts it there (`objectBody_eq_ok_iff_step`).  A whole run takes the
rest of the object up to its brace (`objectBody_eq_ok_iff`).  `Rest` describes
that rest from any point on; from the opening brace on it is what the grammar
calls members.

**Lists.**  A list has at most two elements, so its readers are taken apart once
and for all, and each element is put together with the lead before it.
-/

namespace MethodLint
namespace Config

open Grammar

section Objects

variable {s rest : List Char}

theorem ofKey?_eq_some_iff {text : String} {field : Field} :
    Field.ofKey? text = some field ↔ text = field.key := by
  constructor
  · intro hfound
    have hkey := List.find?_some hfound
    exact (beq_iff_eq.mp hkey).symm
  · rintro rfl
    cases field <;> decide

/-- The value of the setting is read from the front of a text. -/
def Reads : Setting → List Char → List Char → Prop
  | .enabled value, s, rest => boolean s = .ok (value, rest)
  | .severity level, s, rest => severity s = .ok (level, rest)

/-- A setting that the draft lacks is put there, and the object goes on. -/
theorem objectBody_step
    {first : Bool} {draft : Draft} {setting : Setting}
    {afterKey afterColon afterValue : List Char}
    (hkey : nextKey first s = .ok (some (Setting.field setting).key, afterKey))
    (hnew : draft.get setting.field = none)
    (hcolon : colon afterKey = .ok afterColon)
    (hvalue : Reads setting afterColon afterValue) :
    objectBody first draft s = objectBody false (draft.put setting) afterValue := by
  have hfield := ofKey?_eq_some_iff.mpr (rfl : setting.field.key = _)
  rw [objectBody, hkey]
  cases setting with
  | enabled value =>
      rcases draft with ⟨_ | enabled, level⟩
      · have hboolean : boolean afterColon = .ok (value, afterValue) :=
          hvalue
        simp only [hfield, hcolon, hboolean]
        rfl
      · cases hnew
  | severity level =>
      rcases draft with ⟨enabled, _ | level⟩
      · have hseverity : severity afterColon = .ok (level, afterValue) :=
          hvalue
        simp only [hfield, hcolon, hseverity]
        rfl
      · cases hnew

/-- An object is at its end, or goes on with a setting that the draft lacks. -/
theorem objectBody_eq_ok_iff_step {first : Bool} {draft final : Draft} :
    objectBody first draft s = .ok (final, rest) ↔
      (nextKey first s = .ok (none, rest) ∧ final = draft) ∨
      ∃ setting afterKey afterColon afterValue,
        nextKey first s = .ok (some (Setting.field setting).key, afterKey) ∧
        draft.get setting.field = none ∧
        colon afterKey = .ok afterColon ∧
        Reads setting afterColon afterValue ∧
        objectBody false (draft.put setting) afterValue = .ok (final, rest) := by
  constructor
  · intro hread
    rw [objectBody] at hread
    split at hread
    · cases hread
    · next after hend =>
        obtain ⟨rfl, rfl⟩ := Prod.mk.inj (Except.ok.inj hread)
        exact .inl ⟨hend, rfl⟩
    · next text afterKey hkey =>
        right
        split at hread
        · cases hread
        · next hfield =>
            rw [ofKey?_eq_some_iff] at hfield
            subst hfield
            split at hread
            · cases hread
            · next hnone =>
                split at hread
                · cases hread
                · next afterColon hcolon =>
                    split at hread
                    · cases hread
                    · next value afterValue hvalue =>
                        exact
                          ⟨.enabled value, afterKey, afterColon, afterValue,
                            hkey, by simp [Setting.field, Draft.get, hnone],
                            hcolon, hvalue, hread⟩
        · next hfield =>
            rw [ofKey?_eq_some_iff] at hfield
            subst hfield
            split at hread
            · cases hread
            · next hnone =>
                split at hread
                · cases hread
                · next afterColon hcolon =>
                    split at hread
                    · cases hread
                    · next level afterValue hlevel =>
                        exact
                          ⟨.severity level, afterKey, afterColon, afterValue,
                            hkey, by simp [Setting.field, Draft.get, hnone],
                            hcolon, hlevel, hread⟩
  · rintro (⟨hend, rfl⟩ |
      ⟨setting, afterKey, afterColon, afterValue, hkey, hnew, hcolon, hvalue,
        hread⟩)
    · rw [objectBody, hend]
    · rw [objectBody_step hkey hnew hcolon hvalue]
      exact hread

/-- The rest of an object up to its brace, and the settings in it. -/
inductive Rest : Bool → List Char → List Setting → Prop
  | done {first : Bool} {gap : List Char} : Gap gap → Rest first gap []
  | member {first : Bool} {lead pair rest : List Char} {setting : Setting}
      {given : List Setting} :
      Lead first lead → Pair pair setting → Rest false rest given →
      Rest first (lead ++ (pair ++ rest)) (setting :: given)

theorem given_of_reads {setting : Setting}
    (hreads : Reads setting s rest) :
    ∃ gap written, Gap gap ∧ Given written setting ∧
      s = gap ++ (written ++ rest) := by
  cases setting with
  | enabled value =>
      obtain ⟨gap, written, hgap, htruth, hs⟩ := boolean_eq_ok_iff.mp hreads
      exact ⟨gap, written, hgap, .enabled htruth, hs⟩
  | severity level =>
      obtain ⟨gap, written, hgap, hlevel, -, hs⟩ := severity_eq_ok_iff.mp hreads
      exact ⟨gap, written, hgap, .severity hlevel, hs⟩

theorem reads_of_given {setting : Setting} {gap written : List Char}
    (hgap : Gap gap)
    (hgiven : Given written setting)
    (hstops : Numeral.Stops rest) :
    Reads setting (gap ++ (written ++ rest)) rest := by
  cases hgiven with
  | enabled htruth =>
      exact boolean_eq_ok_iff.mpr ⟨gap, written, hgap, htruth, rfl⟩
  | severity hlevel =>
      exact
        severity_eq_ok_iff.mpr
          ⟨gap, written, hgap, hlevel, fun _ => hstops, rfl⟩

/-- What follows a member does not make a numeral in it longer. -/
theorem Rest.stops {written : List Char} {given : List Setting}
    (hrest : Rest false written given)
    (tail : List Char) :
    Numeral.Stops (written ++ '\x7d' :: tail) := by
  cases hrest with
  | done hgap =>
      exact stops_of_mark hgap (by decide)
  | member hlead =>
      cases hlead with
      | comma hgap =>
          rw [List.append_assoc, List.append_assoc, List.cons_append]
          exact stops_of_mark hgap (by decide)

/-- An object is read up to its brace, if its settings fit the draft. -/
theorem objectBody_eq_ok_iff {first : Bool} {draft final : Draft} :
    objectBody first draft s = .ok (final, rest) ↔
      ∃ written given tail, Rest first written given ∧ draft.Fits given ∧
        final = given.foldl Draft.put draft ∧
        rest = '\x7d' :: tail ∧ s = written ++ rest := by
  constructor
  · -- Each step fills a field of the draft, so fewer and fewer are missing.
    induction hmissing : draft.missing using Nat.strongRecOn
      generalizing first draft s with
    | ind missing ih =>
        subst hmissing
        rw [objectBody_eq_ok_iff_step]
        rintro (⟨hend, rfl⟩ |
          ⟨setting, afterKey, afterColon, afterValue, hkey, hnew, hcolon,
            hvalue, hread⟩)
        · obtain ⟨gap, tail, hgap, hrest, hs⟩ := nextKey_eq_none_iff.mp hend
          exact ⟨gap, [], tail, .done hgap, Draft.fits_nil _, rfl, hrest, hs⟩
        · obtain ⟨written, given, tail, hrest, hfits, hfinal, htail, hafter⟩ :=
            ih _ (Draft.missing_put hnew) rfl hread
          obtain ⟨lead, key, hlead, hquoted, rfl⟩ := nextKey_eq_some_iff.mp hkey
          obtain ⟨before, hbefore, rfl⟩ := colon_eq_ok_iff.mp hcolon
          obtain ⟨after, value, hgap, hgiven, rfl⟩ := given_of_reads hvalue
          refine
            ⟨lead ++ ((key ++ (before ++ ':' :: (after ++ value))) ++ written),
              setting :: given, tail,
              .member hlead (.parts hquoted hbefore hgap hgiven) hrest,
              Draft.fits_cons_iff.mpr ⟨hnew, hfits⟩, hfinal, htail, ?_⟩
          rw [hafter]
          simp
  · rintro ⟨written, given, tail, hrest, hfits, rfl, rfl, rfl⟩
    induction hrest generalizing draft with
    | done hgap =>
        rw [objectBody_eq_ok_iff_step]
        exact .inl ⟨nextKey_eq_none_iff.mpr ⟨_, tail, hgap, rfl, rfl⟩, rfl⟩
    | @member first lead pair written setting given hlead hpair hrest ih =>
        obtain ⟨hnew, hothers⟩ := Draft.fits_cons_iff.mp hfits
        rw [objectBody_eq_ok_iff_step]
        cases hpair with
        | @parts key before after value _ hquoted hbefore hafter hgiven =>
            refine
              .inr ⟨setting,
                before ++ ':' :: (after ++ (value ++ (written ++ '\x7d' :: tail))),
                after ++ (value ++ (written ++ '\x7d' :: tail)),
                written ++ '\x7d' :: tail, ?_, hnew, ?_, ?_, ih hothers⟩
            · exact nextKey_eq_some_iff.mpr ⟨lead, key, hlead, hquoted, by simp⟩
            · exact colon_eq_ok_iff.mpr ⟨before, hbefore, rfl⟩
            · exact reads_of_given hafter hgiven (hrest.stops tail)

end Objects

section Members

theorem members_of_rest
    {before pair rest : List Char} {setting : Setting} {given : List Setting}
    (hbefore : Gap before)
    (hpair : Pair pair setting)
    (hrest : Rest false rest given) :
    Members (before ++ (pair ++ rest)) (setting :: given) := by
  generalize hlater : false = first at hrest
  induction hrest generalizing before pair setting with
  | done hgap =>
      exact .last hbefore hpair hgap
  | member hlead hnext _ ih =>
      subst hlater
      cases hlead with
      | comma hgap hbehind =>
          rw [List.append_assoc, List.cons_append]
          exact .more hbefore hpair hgap (ih hbehind hnext rfl)

theorem Grammar.Members.exists_rest {s : List Char} {given : List Setting}
    (hmembers : Members s given) :
    ∃ before pair rest setting others, Gap before ∧ Pair pair setting ∧
      Rest false rest others ∧ s = before ++ (pair ++ rest) ∧
      given = setting :: others := by
  induction hmembers with
  | last hbefore hpair hafter =>
      exact ⟨_, _, _, _, _, hbefore, hpair, .done hafter, rfl, rfl⟩
  | more hbefore hpair hafter _ ih =>
      obtain ⟨behind, next, rest, setting, others, hbehind, hnext, hrest, rfl,
        rfl⟩ := ih
      have hlater := Rest.member (.comma hafter hbehind) hnext hrest
      rw [List.append_assoc, List.cons_append] at hlater
      exact ⟨_, _, _, _, _, hbefore, hpair, hlater, rfl, rfl⟩

/-- From its opening brace on, an object is empty or has members. -/
theorem rest_first_iff {s : List Char} {given : List Setting} :
    Rest true s given ↔ (Gap s ∧ given = []) ∨ Members s given := by
  constructor
  · intro hrest
    cases hrest with
    | done hgap =>
        exact .inl ⟨hgap, rfl⟩
    | member hlead hpair hrest =>
        cases hlead with
        | first hgap =>
            exact .inr (members_of_rest hgap hpair hrest)
  · rintro (⟨hgap, rfl⟩ | hmembers)
    · exact .done hgap
    · obtain ⟨before, pair, rest, setting, others, hbefore, hpair, hrest, rfl,
        rfl⟩ := hmembers.exists_rest
      exact .member (.first hbefore) hpair hrest

end Members

section Lists

variable {s rest : List Char}

theorem lastElement_iff {first : Bool} :
    (∃ between, nextElement first s = .ok (false, between) ∧
      close closeList between = .ok rest) ↔
      ∃ gap, Gap gap ∧ s = gap ++ ']' :: rest := by
  simp only [nextElement_eq_false_iff, close_closeList_eq_ok_iff]
  constructor
  · rintro ⟨between, ⟨gap, tail, hgap, -, rfl⟩, behind, hbehind, rfl⟩
    exact ⟨gap ++ behind, hgap.append hbehind, by simp⟩
  · rintro ⟨gap, hgap, rfl⟩
    exact
      ⟨']' :: rest, ⟨gap, rest, hgap, rfl, rfl⟩, [], gap_nil, rfl⟩

theorem booleanElement_iff {first truth : Bool} :
    (∃ between, nextElement first s = .ok (true, between) ∧
      boolean between = .ok (truth, rest)) ↔
      ∃ lead written, Lead first lead ∧ Truth written truth ∧
        s = lead ++ (written ++ rest) := by
  simp only [nextElement_eq_true_iff, boolean_eq_ok_iff]
  constructor
  · rintro ⟨between, ⟨lead, c, tail, hlead, -, -, -, rfl⟩, gap, written, hgap,
      htruth, rfl⟩
    exact ⟨lead ++ gap, written, hlead.append_gap hgap, htruth, by simp⟩
  · rintro ⟨lead, written, hlead, htruth, rfl⟩
    refine
      ⟨written ++ rest, ?_, [], written, gap_nil, htruth, rfl⟩
    cases htruth with
    | yes | no =>
        exact ⟨lead, _, _, hlead, by decide, by decide, rfl, rfl⟩

theorem severityElement_iff {first : Bool} {level : Severity} :
    (∃ between, nextElement first s = .ok (true, between) ∧
      severity between = .ok (level, rest)) ↔
      ∃ lead written, Lead first lead ∧ Level written level ∧
        (written.head? ≠ some '"' → Numeral.Stops rest) ∧
        s = lead ++ (written ++ rest) := by
  simp only [nextElement_eq_true_iff, severity_eq_ok_iff]
  constructor
  · rintro ⟨between, ⟨lead, c, tail, hlead, -, -, -, rfl⟩, gap, written, hgap,
      hlevel, hstops, rfl⟩
    exact ⟨lead ++ gap, written, hlead.append_gap hgap, hlevel, hstops, by simp⟩
  · rintro ⟨lead, written, hlead, hlevel, hstops, rfl⟩
    refine
      ⟨written ++ rest, ?_, [], written, gap_nil, hlevel, hstops, rfl⟩
    cases hlevel with
    | off | warn | error =>
        exact ⟨lead, _, _, hlead, by decide, by decide, rfl, rfl⟩
    | text hquoted =>
        cases hquoted with
        | quotes =>
            exact ⟨lead, _, _, hlead, by decide, by decide, rfl, rfl⟩

theorem listTail_eq_ok_iff {truth : Bool} {draft : Draft} :
    listTail truth s = .ok (draft, rest) ↔
      (nextElement false s = .ok (false, rest) ∧ draft = ⟨some truth, none⟩) ∨
      ∃ level between, nextElement false s = .ok (true, between) ∧
        severity between = .ok (level, rest) ∧
        draft = ⟨some truth, some level⟩ := by
  constructor
  · intro hread
    unfold listTail at hread
    split at hread
    · cases hread
    · next after hend =>
        obtain ⟨rfl, rfl⟩ := Prod.mk.inj (Except.ok.inj hread)
        exact .inl ⟨hend, rfl⟩
    · next between hnext =>
        split at hread
        · cases hread
        · next level after hlevel =>
            obtain ⟨rfl, rfl⟩ := Prod.mk.inj (Except.ok.inj hread)
            exact .inr ⟨level, between, hnext, hlevel, rfl⟩
  · rintro (⟨hend, rfl⟩ | ⟨level, between, hnext, hlevel, rfl⟩)
    · simp only [listTail, hend]
    · simp only [listTail, hnext, hlevel]

theorem listBody_eq_ok_iff {draft : Draft} :
    listBody s = .ok (draft, rest) ↔
      (nextElement true s = .ok (false, rest) ∧ draft = .blank) ∨
      ∃ truth between after, nextElement true s = .ok (true, between) ∧
        boolean between = .ok (truth, after) ∧
        listTail truth after = .ok (draft, rest) := by
  constructor
  · intro hread
    unfold listBody at hread
    split at hread
    · cases hread
    · next after hend =>
        obtain ⟨rfl, rfl⟩ := Prod.mk.inj (Except.ok.inj hread)
        exact .inl ⟨hend, rfl⟩
    · next between hnext =>
        split at hread
        · cases hread
        · next truth after htruth =>
            exact .inr ⟨truth, between, after, hnext, htruth, hread⟩
  · rintro (⟨hend, rfl⟩ | ⟨truth, between, after, hnext, htruth, htail⟩)
    · simp only [listBody, hend]
    · simp only [listBody, hnext, htruth, htail]

end Lists

end Config
end MethodLint
