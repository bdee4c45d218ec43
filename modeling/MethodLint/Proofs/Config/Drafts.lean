import MethodLint.Proofs.Config.Grammar
import Mathlib.Data.List.Nodup

/-!
# Drafts hold what was given

A draft is filled setting by setting.  A setting fits if the draft does not
hold one of its field yet, so settings that fit one after the other are of
distinct fields.

**Results.**  `Draft.fits_cons_iff` is the step, and `Draft.holds_settings` the
run: the settings of a filled draft hold what was given, with standard values
for what was not.  By `Holds.unique` there are no others that do.
-/

namespace MethodLint
namespace Config

open Grammar

namespace Draft

/-- The setting of a field that the draft holds. -/
def get (draft : Draft) : Field → Option Setting
  | .enabled => draft.enabled.map .enabled
  | .severity => draft.severity.map .severity

def put (draft : Draft) : Setting → Draft
  | .enabled value => { draft with enabled := some value }
  | .severity level => { draft with severity := some level }

/-- The settings are of distinct fields, and the draft holds none of these. -/
def Fits (draft : Draft) (given : List Setting) : Prop :=
  (given.map Setting.field).Nodup ∧
    ∀ setting ∈ given, draft.get setting.field = none

variable {draft : Draft} {setting : Setting} {given : List Setting}

theorem get_put (draft : Draft) (setting : Setting) (field : Field) :
    (draft.put setting).get field =
      if setting.field = field then some setting else draft.get field := by
  cases setting <;> cases field <;> rfl

theorem missing_put
    (hnew : draft.get setting.field = none) :
    (draft.put setting).missing < draft.missing := by
  cases setting with
  | enabled value =>
      obtain ⟨_ | enabled, severity⟩ := draft
      · simp [put, missing]
      · cases hnew
  | severity level =>
      obtain ⟨enabled, _ | severity⟩ := draft
      · simp [put, missing]
      · cases hnew

theorem fits_nil (draft : Draft) : draft.Fits [] :=
  ⟨List.nodup_nil, by simp⟩

theorem fits_cons_iff :
    draft.Fits (setting :: given) ↔
      draft.get setting.field = none ∧ (draft.put setting).Fits given := by
  have hput (other : Setting) :
      (draft.put setting).get other.field = none ↔
        setting.field ≠ other.field ∧ draft.get other.field = none := by
    rw [get_put]
    split <;> simp_all
  simp only [Fits, List.map_cons, List.nodup_cons, List.mem_map, not_exists,
    not_and, List.forall_mem_cons, hput]
  constructor
  · rintro ⟨⟨hdistinct, hnodup⟩, hnew, hothers⟩
    exact
      ⟨hnew, hnodup, fun other hother =>
        ⟨fun hsame => hdistinct other hother hsame.symm, hothers other hother⟩⟩
  · rintro ⟨hnew, hnodup, hothers⟩
    exact
      ⟨⟨fun other hother hsame => (hothers other hother).1 hsame.symm, hnodup⟩,
        hnew, fun other hother => (hothers other hother).2⟩

theorem fits_blank_iff :
    blank.Fits given ↔ (given.map Setting.field).Nodup := by
  have hblank : ∀ field, blank.get field = none := by
    intro field
    cases field <;> rfl
  simp [Fits, hblank]

theorem get_foldl_put_of_missing {field : Field}
    (hmissing : ∀ setting ∈ given, setting.field ≠ field) :
    (given.foldl put draft).get field = draft.get field := by
  induction given generalizing draft with
  | nil =>
      rfl
  | cons setting given ih =>
      rw [List.forall_mem_cons] at hmissing
      rw [List.foldl_cons, ih hmissing.2, get_put, if_neg hmissing.1]

/-- A setting that is put in a draft stays: no later one is of its field. -/
theorem get_foldl_put_of_mem
    (hfits : draft.Fits given)
    (hmem : setting ∈ given) :
    (given.foldl put draft).get setting.field = some setting := by
  induction given generalizing draft with
  | nil =>
      cases hmem
  | cons first given ih =>
      rw [List.foldl_cons]
      rcases List.mem_cons.mp hmem with rfl | hmem
      · have hdistinct : setting.field ∉ given.map Setting.field :=
          (List.nodup_cons.mp hfits.1).1
        have hmissing : ∀ other ∈ given, other.field ≠ setting.field := by
          intro other hother hsame
          exact hdistinct (List.mem_map.mpr ⟨other, hother, hsame⟩)
        rw [get_foldl_put_of_missing hmissing, get_put, if_pos rfl]
      · exact ih (fits_cons_iff.mp hfits).2 hmem

/-- The settings of the filled draft hold what was given. -/
theorem holds_settings
    (hfits : blank.Fits given) :
    Holds given (given.foldl put blank).settings := by
  constructor
  · intro value hmem
    have hget :
        (given.foldl put blank).enabled.map Setting.enabled =
          some (Setting.enabled value) :=
      get_foldl_put_of_mem hfits hmem
    have hvalue : (given.foldl put blank).enabled = some value := by
      simpa using hget
    simp [settings, hvalue]
  · intro level hmem
    have hget :
        (given.foldl put blank).severity.map Setting.severity =
          some (Setting.severity level) :=
      get_foldl_put_of_mem hfits hmem
    have hlevel : (given.foldl put blank).severity = some level := by
      simpa using hget
    simp [settings, hlevel]
  · intro hmissing
    have hget : (given.foldl put blank).get .enabled = none := by
      apply get_foldl_put_of_missing
      rintro (value | level) hmem hfield
      · exact hmissing value hmem
      · cases hfield
    simp [settings, Option.map_eq_none_iff.mp hget, Settings.standard]
  · intro hmissing
    have hget : (given.foldl put blank).get .severity = none := by
      apply get_foldl_put_of_missing
      rintro (value | level) hmem hfield
      · cases hfield
      · exact hmissing level hmem
    simp [settings, Option.map_eq_none_iff.mp hget, Settings.standard]

end Draft

/-- What is given decides the settings. -/
theorem Grammar.Holds.unique {given : List Setting} {one other : Settings}
    (hone : Holds given one)
    (hother : Holds given other) :
    one = other := by
  have henabled : one.enabled = other.enabled := by
    by_cases hgiven : ∃ value, .enabled value ∈ given
    · obtain ⟨value, hmem⟩ := hgiven
      rw [hone.enabled value hmem, hother.enabled value hmem]
    · rw [not_exists] at hgiven
      rw [hone.enabledMissing hgiven, hother.enabledMissing hgiven]
  have hseverity : one.severity = other.severity := by
    by_cases hgiven : ∃ level, .severity level ∈ given
    · obtain ⟨level, hmem⟩ := hgiven
      rw [hone.severity level hmem, hother.severity level hmem]
    · rw [not_exists] at hgiven
      rw [hone.severityMissing hgiven, hother.severityMissing hgiven]
  rcases one with ⟨enabled, severity⟩
  rcases other with ⟨enabled', severity'⟩
  exact congrArg₂ Settings.mk henabled hseverity

end Config
end MethodLint
