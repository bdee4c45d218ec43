import MethodLint.Proofs.Config.Bodies

/-!
# Settings are accepted exactly as they are written

A text gives settings exactly if it is a document of the grammar, and then it
gives the settings that the document means.

**Order.**  First objects and lists with their ends, then the container, which
the first character decides, and last the whole text, behind whose container
nothing but a gap may stand.
-/

namespace MethodLint
namespace Config

open Grammar

section Documents

variable {s rest : List Char} {draft : Draft}

theorem body_object_iff {body : List Char} {given : List Setting} :
    Body ('\x7b' :: body) given ↔
      ∃ written, Rest true written given ∧
        (given.map Setting.field).Nodup ∧ body = written ++ ['\x7d'] := by
  simp only [rest_first_iff]
  constructor
  · intro hbody
    generalize hs : '\x7b' :: body = t at hbody
    cases hbody with
    | emptyObject hgap =>
        exact ⟨_, .inl ⟨hgap, rfl⟩, by simp, (List.cons.inj hs).2⟩
    | object hmembers hdistinct =>
        exact ⟨_, .inr hmembers, hdistinct, (List.cons.inj hs).2⟩
    | emptyList | oneElement | twoElements =>
        simp at hs
  · rintro ⟨written, ⟨hgap, rfl⟩ | hmembers, hdistinct, rfl⟩
    · exact .emptyObject hgap
    · exact .object hmembers hdistinct

theorem object_eq_ok_iff :
    settle closeObject (objectBody true .blank s) = .ok (draft, rest) ↔
      ∃ body given, Body ('\x7b' :: body) given ∧
        draft = given.foldl Draft.put .blank ∧ s = body ++ rest := by
  simp only [settle_eq_ok_iff, objectBody_eq_ok_iff, Draft.fits_blank_iff,
    body_object_iff]
  constructor
  · rintro ⟨between, ⟨written, given, tail, hwritten, hdistinct, rfl, rfl, rfl⟩,
      hclose⟩
    rw [close_closeObject] at hclose
    obtain rfl := Except.ok.inj hclose
    exact
      ⟨written ++ ['\x7d'], given, ⟨written, hwritten, hdistinct, rfl⟩, rfl,
        by simp⟩
  · rintro ⟨body, given, ⟨written, hwritten, hdistinct, rfl⟩, rfl, rfl⟩
    exact
      ⟨'\x7d' :: rest,
        ⟨written, given, rest, hwritten, hdistinct, rfl, rfl, by simp⟩,
        close_closeObject rest⟩

theorem body_of_list
    (hread : settle closeList (listBody s) = .ok (draft, rest)) :
    ∃ body given, Body ('[' :: body) given ∧
      draft = given.foldl Draft.put .blank ∧ s = body ++ rest := by
  obtain ⟨between, hlist, hclose⟩ := settle_eq_ok_iff.mp hread
  rcases listBody_eq_ok_iff.mp hlist with
    ⟨hend, rfl⟩ | ⟨truth, start, after, hnext, htruth, htail⟩
  · obtain ⟨gap, hgap, rfl⟩ := lastElement_iff.mp ⟨between, hend, hclose⟩
    exact ⟨gap ++ [']'], [], .emptyList hgap, rfl, by simp⟩
  · obtain ⟨_, written, ⟨hbefore⟩ | _, hwritten, rfl⟩ :=
      booleanElement_iff.mp ⟨start, hnext, htruth⟩
    rcases listTail_eq_ok_iff.mp htail with
      ⟨hend, rfl⟩ | ⟨level, start, hnext, hlevel, rfl⟩
    · obtain ⟨gap, hgap, rfl⟩ := lastElement_iff.mp ⟨between, hend, hclose⟩
      exact ⟨_, _, .oneElement hbefore hwritten hgap, rfl, by simp⟩
    · obtain ⟨_, spelled, _ | ⟨hbetween, hbehind⟩, hspelled, -, rfl⟩ :=
        severityElement_iff.mp ⟨start, hnext, hlevel⟩
      obtain ⟨gap, hgap, rfl⟩ := close_closeList_eq_ok_iff.mp hclose
      exact
        ⟨_, _, .twoElements hbefore hwritten hbetween hbehind hspelled hgap,
          rfl, by simp⟩

theorem list_of_body {body : List Char} {given : List Setting}
    (hbody : Body ('[' :: body) given)
    (rest : List Char) :
    settle closeList (listBody (body ++ rest)) =
      .ok (given.foldl Draft.put .blank, rest) := by
  rw [settle_eq_ok_iff]
  generalize hs : '[' :: body = t at hbody
  cases hbody with
  | emptyObject | object =>
      simp at hs
  | @emptyList gap hgap =>
      obtain ⟨-, rfl⟩ := List.cons.inj hs
      obtain ⟨between, hend, hclose⟩ :
          ∃ between,
            nextElement true (gap ++ [']'] ++ rest) = .ok (false, between) ∧
              close closeList between = .ok rest :=
        lastElement_iff.mpr ⟨gap, hgap, by simp⟩
      exact ⟨between, listBody_eq_ok_iff.mpr (.inl ⟨hend, rfl⟩), hclose⟩
  | @oneElement before written after truth hbefore hwritten hafter =>
      obtain ⟨-, rfl⟩ := List.cons.inj hs
      obtain ⟨start, hnext, htruth⟩ :
          ∃ start,
            nextElement true (before ++ (written ++ (after ++ [']'])) ++ rest) =
                .ok (true, start) ∧
              boolean start = .ok (truth, after ++ ']' :: rest) :=
        booleanElement_iff.mpr
          ⟨before, written, .first hbefore, hwritten, by simp⟩
      obtain ⟨between, hend, hclose⟩ :
          ∃ between,
            nextElement false (after ++ ']' :: rest) = .ok (false, between) ∧
              close closeList between = .ok rest :=
        lastElement_iff.mpr ⟨after, hafter, rfl⟩
      have htail :
          listTail truth (after ++ ']' :: rest) =
            .ok (⟨some truth, none⟩, between) :=
        listTail_eq_ok_iff.mpr (.inl ⟨hend, rfl⟩)
      exact
        ⟨between,
          listBody_eq_ok_iff.mpr (.inr ⟨truth, start, _, hnext, htruth, htail⟩),
          hclose⟩
  | @twoElements before written gap behind spelled after truth level
      hbefore hwritten hgap hbehind hspelled hafter =>
      obtain ⟨-, rfl⟩ := List.cons.inj hs
      have hstops : Numeral.Stops (after ++ ']' :: rest) :=
        stops_of_mark hafter (by decide)
      obtain ⟨later, hlater, hlevel⟩ :
          ∃ later,
            nextElement false
                (gap ++ ',' :: (behind ++ (spelled ++ (after ++ ']' :: rest)))) =
                .ok (true, later) ∧
              severity later = .ok (level, after ++ ']' :: rest) :=
        severityElement_iff.mpr
          ⟨gap ++ ',' :: behind, spelled, .comma hgap hbehind, hspelled,
            fun _ => hstops, by simp⟩
      have htail :
          listTail truth
              (gap ++ ',' :: (behind ++ (spelled ++ (after ++ ']' :: rest)))) =
            .ok (⟨some truth, some level⟩, after ++ ']' :: rest) :=
        listTail_eq_ok_iff.mpr (.inr ⟨level, later, hlater, hlevel, rfl⟩)
      obtain ⟨start, hnext, htruth⟩ :
          ∃ start,
            nextElement true
                (before ++ (written ++ (gap ++ ',' ::
                  (behind ++ (spelled ++ (after ++ [']']))))) ++ rest) =
                .ok (true, start) ∧
              boolean start =
                .ok (truth,
                  gap ++ ',' :: (behind ++ (spelled ++ (after ++ ']' :: rest)))) :=
        booleanElement_iff.mpr
          ⟨before, written, .first hbefore, hwritten, by simp⟩
      exact
        ⟨after ++ ']' :: rest,
          listBody_eq_ok_iff.mpr (.inr ⟨truth, start, _, hnext, htruth, htail⟩),
          close_closeList_eq_ok_iff.mpr ⟨after, hafter, rfl⟩⟩

theorem Grammar.Body.exists_bracket {body : List Char} {given : List Setting}
    (hbody : Body body given) :
    ∃ bracket inner, body = bracket :: inner ∧
      (bracket = '\x7b' ∨ bracket = '[') := by
  cases hbody with
  | emptyObject | object =>
      exact ⟨_, _, rfl, .inl rfl⟩
  | emptyList | oneElement | twoElements =>
      exact ⟨_, _, rfl, .inr rfl⟩

/-- A container is read after a gap, whatever follows it. -/
theorem container_eq_ok_iff :
    container s = .ok (draft, rest) ↔
      ∃ gap body given, Gap gap ∧ Body body given ∧
        draft = given.foldl Draft.put .blank ∧ s = gap ++ (body ++ rest) := by
  constructor
  · intro hread
    unfold container at hread
    split at hread
    · cases hread
    · next c tail hcons =>
        obtain ⟨-, gap, hgap, rfl⟩ := skipGap_eq_cons_iff.mp hcons
        split at hread
        · next hbrace =>
            subst hbrace
            obtain ⟨body, given, hbody, hdraft, rfl⟩ := object_eq_ok_iff.mp hread
            exact ⟨gap, _, given, hgap, hbody, hdraft, rfl⟩
        · split at hread
          · next hbracket =>
              subst hbracket
              obtain ⟨body, given, hbody, hdraft, rfl⟩ := body_of_list hread
              exact ⟨gap, _, given, hgap, hbody, hdraft, rfl⟩
          · split at hread <;> cases hread
  · rintro ⟨gap, body, given, hgap, hbody, hdraft, rfl⟩
    obtain ⟨bracket, inner, rfl, rfl | rfl⟩ := hbody.exists_bracket
    · rw [container, skipGap_append hgap (by simp [isGap])]
      exact object_eq_ok_iff.mpr ⟨inner, given, hbody, hdraft, rfl⟩
    · rw [container, skipGap_append hgap (by simp [isGap])]
      rw [hdraft]
      exact list_of_body hbody rest

theorem Grammar.Body.fits {body : List Char} {given : List Setting}
    (hbody : Body body given) : Draft.blank.Fits given := by
  rw [Draft.fits_blank_iff]
  cases hbody with
  | object _ hdistinct =>
      exact hdistinct
  | emptyObject | emptyList | oneElement | twoElements =>
      simp [Setting.field]

theorem document_eq_ok_iff {settings : Settings} :
    document s = .ok settings ↔ Document s settings := by
  constructor
  · intro hread
    unfold document at hread
    split at hread
    · cases hread
    · next draft rest hcontainer =>
        obtain ⟨before, body, given, hbefore, hbody, rfl, rfl⟩ :=
          container_eq_ok_iff.mp hcontainer
        split at hread
        · next hskip =>
            obtain rfl := Except.ok.inj hread
            exact
              .body hbefore hbody (skipGap_eq_nil_iff.mp hskip)
                (Draft.holds_settings hbody.fits)
        · cases hread
  · intro hdocument
    cases hdocument with
    | @body before body after given _ hbefore hbody hafter hholds =>
        have hread :
            container (before ++ (body ++ after)) =
              .ok (given.foldl Draft.put .blank, after) :=
          container_eq_ok_iff.mpr
            ⟨before, body, given, hbefore, hbody, rfl, rfl⟩
        have hsettings := hholds.unique (Draft.holds_settings hbody.fits)
        simp only [document, hread, skipGap_eq_nil_iff.mpr hafter, hsettings]

end Documents

end Config

namespace Settings

/--
**Exactly the documents are accepted.**  A text gives settings exactly if it is
a document that means them, and it is refused exactly if it is no document.
-/
theorem ofJson_iff_document (text : String) :
    (∀ settings,
      ofJson text = .ok settings ↔
        Config.Grammar.Document text.toList settings) ∧
      ((∃ e, ofJson text = .error e) ↔
        ¬ ∃ settings, Config.Grammar.Document text.toList settings) := by
  have haccepted (settings : Settings) :
      ofJson text = .ok settings ↔
        Config.Grammar.Document text.toList settings := by
    rw [← Config.document_eq_ok_iff, ofJson]
    split
    · next hread =>
        simp [hread]
    · next hread =>
        simp [hread]
  refine ⟨haccepted, ?_⟩
  simp only [← haccepted]
  cases ofJson text with
  | ok settings =>
      simp
  | error e =>
      simp

-- A letter of the key is given by its number, and the word has a blank in front.
example :
    ofJson " \x7b \"sever\\u0069ty\" : \" HINT\" \x7d " =
      .ok ⟨true, .suggestion⟩ := by
  cbv

end Settings

end MethodLint
