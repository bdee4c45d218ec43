import MethodLint.Proofs.Config.Bodies

/-!
# The first offence decides how settings are refused

An object is refused for the first of its members that gives offence.  What comes
before that member is in order, what comes behind it is never judged: the
reader still looks for the end of the object there, but only to say where the
fault lies.

**Offences.**  `Offence` lists them with the words they are refused with: a key
that is not known, a key that was given before, and a severity that is a quoted
text or a number but means no level.

**Argument.**  Members in order are taken in one by one and leave a draft
(`exists_objectBody_of_preceding`).  An offence behind them is left pending
(`exists_pending_of_offence`), and a pending cause is not replaced by anything
that goes wrong at the end.
-/

namespace MethodLint
namespace Config

open Grammar

namespace Grammar

/-- Pairs in order, each with a comma behind it, and the gap after the last. -/
inductive Preceding : List Char → List Setting → Prop
  | nothing {gap : List Char} : Gap gap → Preceding gap []
  | member {before pair after rest : List Char} {setting : Setting}
      {given : List Setting} :
      Gap before → Pair pair setting → Gap after → Preceding rest given →
      Preceding (before ++ (pair ++ (after ++ ',' :: rest))) (setting :: given)

/--
A value for a severity that means no level, as it is written, and the text by
which it is judged.  A number is judged by its decimal numeral.
-/
inductive Meaningless : List Char → String → Prop
  | text {s : List Char} {text : String} :
      Quoted s text → (∀ level, ¬ Spells text level) → Meaningless s text
  | number {n : Nat} :
      3 ≤ n → n < 2 ^ 64 → Meaningless (Nat.toDigits 10 n) (Nat.repr n)

/--
What can be wrong with a member when some settings have been given, and the
words it is refused with.
-/
inductive Offence (given : List Setting) : List Char → String → Prop
  | unknownKey {key : List Char} {text : String} :
      Quoted key text → text ≠ "enabled" → text ≠ "severity" →
      Offence given key
        ("unknown field `" ++ text ++ "`, expected `enabled` or `severity`")
  | repeatedKey {key : List Char} {setting : Setting} :
      setting ∈ given → Quoted key setting.field.key →
      Offence given key ("duplicate field `" ++ setting.field.key ++ "`")
  | severity {key before after value : List Char} {text : String} :
      Quoted key "severity" → Field.severity ∉ given.map Setting.field →
      Gap before → Gap after → Meaningless value text →
      Offence given (key ++ (before ++ ':' :: (after ++ value)))
        ("invalid severity: '" ++ text ++
          "'. Expected off, warn, error, suggestion, 0, 1, or 2")

end Grammar

section Values

variable {value rest : List Char} {text : String}

theorem ofText?_eq_none_iff :
    Severity.ofText? text = none ↔ ∀ level, ¬ Spells text level := by
  simp only [← ofText?_eq_some_iff, Option.eq_none_iff_forall_ne_some, ne_eq]

/-- Of all numbers only the first three mean a level. -/
theorem ofText?_repr_of_three_le {n : Nat} (hlarge : 3 ≤ n) :
    Severity.ofText? (Nat.repr n) = none := by
  rw [Option.eq_none_iff_forall_ne_some]
  intro level hlevel
  have hthree := ofText?_repr_eq_some_iff.mp hlevel
  simp only [List.mem_cons, Prod.mk.injEq, List.not_mem_nil, or_false] at hthree
  omega

/-- Between quotes, plain characters stand for themselves. -/
theorem letters_of_plain {cs : List Char}
    (hplain : ∀ c ∈ cs, c ≠ '"' ∧ c ≠ '\\' ∧ 0x20 ≤ c.toNat) :
    Letters cs cs := by
  induction cs with
  | nil =>
      exact .nil
  | cons c cs ih =>
      rw [List.forall_mem_cons] at hplain
      obtain ⟨⟨hquote, hbackslash, hprinted⟩, hothers⟩ := hplain
      exact .cons (.plain hquote hbackslash hprinted) (ih hothers)

theorem quoted_of_plain
    (hplain : ∀ c ∈ text.toList, c ≠ '"' ∧ c ≠ '\\' ∧ 0x20 ≤ c.toNat) :
    Quoted ('"' :: (text.toList ++ ['"'])) text := by
  have hquoted := Quoted.quotes (letters_of_plain hplain)
  rwa [String.ofList_toList] at hquoted

/-- A number between quotes is judged as the number itself is. -/
theorem Grammar.Meaningless.quoted_number {n : Nat} (hlarge : 3 ≤ n) :
    Meaningless ('"' :: (Nat.toDigits 10 n ++ ['"'])) (Nat.repr n) := by
  have hquoted : Quoted ('"' :: ((Nat.repr n).toList ++ ['"'])) (Nat.repr n) := by
    apply quoted_of_plain
    intro c hc
    have hdigit := isDigit_of_mem_repr hc
    have hrange := Char.isDigit_iff_toNat.mp hdigit
    have hzero : '0'.toNat = 48 := rfl
    refine ⟨?_, ?_, by omega⟩
    · rintro rfl
      cases hdigit
    · rintro rfl
      cases hdigit
  rw [Nat.toList_repr] at hquoted
  exact .text hquoted (ofText?_eq_none_iff.mp (ofText?_repr_of_three_le hlarge))

/-- A severity that means no level is left pending, with the text it is judged by. -/
theorem severity_of_meaningless
    {gap : List Char}
    (hgap : Gap gap)
    (hvalue : Meaningless value text)
    (hrest : ∀ c ∈ value.getLast?, c.isDigit = true → Numeral.Stops rest) :
    severity (gap ++ (value ++ rest)) =
      .error (.pending (.severityUnknown text) rest) := by
  cases hvalue with
  | text hquoted hspells =>
      have hnone := ofText?_eq_none_iff.mpr hspells
      simp [severity, value_of_quoted hgap hquoted, Value.severity,
        Value.spelling?, hnone]
  | @number n hlarge hfits =>
      have hstops : Numeral.Stops rest := by
        apply hrest _ (List.getLast?_eq_getLast_of_ne_nil Nat.toDigits_ne_nil)
        exact
          Nat.isDigit_of_mem_toDigits (by decide) (by decide)
            (List.getLast_mem _)
      have hread :
          Config.value severityLevels (gap ++ (Nat.toDigits 10 n ++ rest)) =
            .ok (.integer n, rest) :=
        value_of_toDigits hgap hfits hstops
      have hspelling : (Value.integer n).spelling? = some (Nat.repr n) := rfl
      simp [severity, hread, Value.severity, hspelling,
        ofText?_repr_of_three_le hlarge]

end Values

section Objects

variable {first : Bool} {draft : Draft} {lead rest written : List Char}
  {given : List Setting} {wording : String}

/--
Members in order are taken in one by one.  Behind them the object goes on with
the lead of the next member.
-/
theorem exists_objectBody_of_preceding
    {preceding : List Char}
    (hpreceding : Preceding preceding given)
    (hfits : draft.Fits given)
    (hlead : Lead first lead)
    (rest : List Char) :
    ∃ later behind,
      Lead later behind ∧
      objectBody first draft (lead ++ (preceding ++ rest)) =
        objectBody later (given.foldl Draft.put draft) (behind ++ rest) := by
  induction hpreceding generalizing first draft lead with
  | nothing hgap =>
      refine ⟨first, _, hlead.append_gap hgap, ?_⟩
      rw [List.append_assoc]
      rfl
  | @member before pair after tail setting given hbefore hpair hafter _ ih =>
      obtain ⟨hnew, hothers⟩ := Draft.fits_cons_iff.mp hfits
      have hcomma : Lead false (after ++ [',']) := .comma hafter gap_nil
      obtain ⟨later, behind, hbehind, hrest⟩ := ih hothers hcomma
      refine ⟨later, behind, hbehind, ?_⟩
      rw [List.foldl_cons, ← hrest]
      cases hpair with
      | @parts key beforeColon afterColon value _ hkey hcolon hgap hgiven =>
          have hstops : Numeral.Stops (after ++ ',' :: (tail ++ rest)) :=
            stops_of_mark hafter (by decide)
          rw [objectBody_step
            (nextKey_eq_some_iff.mpr
              ⟨lead ++ before, key, hlead.append_gap hbefore, hkey, ?_⟩) hnew
            (colon_eq_ok_iff.mpr ⟨beforeColon, hcolon, rfl⟩)
            (reads_of_given hgap hgiven hstops)]
          · simp
          · simp

theorem objectBody_unknown
    {s : List Char} {text : String}
    (hkey : nextKey first s = .ok (some text, rest))
    (hunknown : Field.ofKey? text = none) :
    objectBody first draft s = .error (.pending (.unknownKey text) rest) := by
  rw [objectBody, hkey]
  simp only [hunknown]

theorem objectBody_repeated
    {s : List Char} {setting : Setting}
    (hkey : nextKey first s = .ok (some setting.field.key, rest))
    (hheld : draft.get setting.field = some setting) :
    objectBody first draft s =
      .error (.pending (.repeatedKey setting.field) rest) := by
  have hfield := ofKey?_eq_some_iff.mpr (rfl : setting.field.key = _)
  rw [objectBody, hkey]
  cases setting with
  | enabled value =>
      rcases draft with ⟨_ | enabled, level⟩
      · cases hheld
      · simp only [hfield]
        rfl
  | severity level =>
      rcases draft with ⟨enabled, _ | level⟩
      · cases hheld
      · simp only [hfield]
        rfl

/-- A severity that is refused takes the object with it. -/
theorem objectBody_refused
    {s afterKey afterColon : List Char} {refusal : Refusal}
    (hkey : nextKey first s = .ok (some "severity", afterKey))
    (hnew : draft.get .severity = none)
    (hcolon : colon afterKey = .ok afterColon)
    (hvalue : severity afterColon = .error refusal) :
    objectBody first draft s = .error refusal := by
  have hfield : Field.ofKey? "severity" = some .severity :=
    ofKey?_eq_some_iff.mpr rfl
  rw [objectBody, hkey]
  rcases draft with ⟨enabled, _ | level⟩
  · simp only [hfield, hcolon, hvalue]
  · cases hnew

/-- An offence is left pending with the words it is refused with. -/
theorem exists_pending_of_offence
    (hoffence : Offence given written wording)
    (hfits : Draft.blank.Fits given)
    (hlead : Lead first lead)
    (hrest : ∀ c ∈ written.getLast?, c.isDigit = true → Numeral.Stops rest) :
    ∃ cause tail,
      objectBody first (given.foldl Draft.put .blank)
          (lead ++ (written ++ rest)) =
        .error (.pending cause tail) ∧
      cause.message = wording := by
  have hkey {key tail : List Char} {text : String}
      (hquoted : Quoted key text) :
      nextKey first (lead ++ (key ++ tail)) = .ok (some text, tail) :=
    nextKey_eq_some_iff.mpr ⟨lead, key, hlead, hquoted, rfl⟩
  cases hoffence with
  | @unknownKey _ text hquoted henabled hseverity =>
      have hunknown : Field.ofKey? text = none := by
        rw [Option.eq_none_iff_forall_ne_some]
        rintro (_ | _) hfound
        · exact henabled (ofKey?_eq_some_iff.mp hfound)
        · exact hseverity (ofKey?_eq_some_iff.mp hfound)
      exact ⟨_, _, objectBody_unknown (hkey hquoted) hunknown, rfl⟩
  | repeatedKey hmem hquoted =>
      have hheld := Draft.get_foldl_put_of_mem hfits hmem
      exact ⟨_, _, objectBody_repeated (hkey hquoted) hheld, rfl⟩
  | @severity key before after value text hquoted hmissing hbefore hafter hvalue =>
      have hnew :
          (given.foldl Draft.put .blank).get .severity = none := by
        apply Draft.get_foldl_put_of_missing
        intro setting hmem hfield
        exact hmissing (List.mem_map.mpr ⟨setting, hmem, hfield⟩)
      have hlast : ∀ c ∈ value.getLast?, c.isDigit = true → Numeral.Stops rest := by
        intro c hc
        apply hrest c
        rw [Option.mem_def] at hc ⊢
        simp [List.getLast?_append, List.getLast?_cons, hc]
      have hread :
          objectBody first (given.foldl Draft.put .blank)
              (lead ++ (key ++ (before ++ ':' :: (after ++ (value ++ rest))))) =
            .error (.pending (.severityUnknown text) rest) :=
        objectBody_refused (hkey hquoted) hnew
          (colon_eq_ok_iff.mpr ⟨before, hbefore, rfl⟩)
          (severity_of_meaningless hafter hvalue hlast)
      refine ⟨.severityUnknown text, rest, ?_, rfl⟩
      simpa using hread

end Objects

section Documents

variable {before preceding written rest : List Char} {given : List Setting}
  {wording : String}

theorem container_object {s : List Char} (hbefore : Gap before) :
    container (before ++ '\x7b' :: s) =
      settle closeObject (objectBody true .blank s) := by
  rw [container, skipGap_append hbefore (by simp [isGap])]
  rfl

/-- The end of the object gives the fault its place, but never another cause. -/
theorem exists_fault_of_offence
    (hbefore : Gap before)
    (hpreceding : Preceding preceding given)
    (hdistinct : (given.map Setting.field).Nodup)
    (hoffence : Offence given written wording)
    (hrest : ∀ c ∈ written.getLast?, c.isDigit = true → Numeral.Stops rest) :
    ∃ fault,
      document (before ++ '\x7b' :: (preceding ++ (written ++ rest))) =
        .error fault ∧
      fault.cause.message = wording := by
  have hfits : Draft.blank.Fits given := Draft.fits_blank_iff.mpr hdistinct
  obtain ⟨later, behind, hbehind, hmembers⟩ :=
    exists_objectBody_of_preceding hpreceding hfits (.first gap_nil)
      (written ++ rest)
  obtain ⟨cause, tail, hpending, hwording⟩ :=
    exists_pending_of_offence hoffence hfits hbehind hrest
  refine ⟨.here cause (closeObject tail).2, ?_, hwording⟩
  rw [List.nil_append] at hmembers
  rw [document, container_object hbefore, hmembers, hpending, settle]

end Documents

end Config

theorem SettingsError.cause_ofFault (text : String) (fault : Config.Fault) :
    (SettingsError.ofFault text fault).cause = fault.cause :=
  rfl

namespace Settings

open Config.Grammar

/--
**The first offence decides.**  Behind members in order, with distinct keys, an
offence makes the text refused with its own words and a place, whatever the rest
of the text is; only a number has to end where the rest begins.  A number that
means no level is refused with the very words that its numeral between quotes is
refused with.
-/
theorem ofJson_refuses_first_offence
    {text wording : String} {before preceding written rest : List Char}
    {given : List Setting}
    (hbefore : Gap before)
    (hpreceding : Preceding preceding given)
    (hdistinct : (given.map Setting.field).Nodup)
    (hoffence : Offence given written wording)
    (hrest :
      ∀ c ∈ written.getLast?, c.isDigit = true → Config.Numeral.Stops rest)
    (htext :
      text.toList = before ++ '\x7b' :: (preceding ++ (written ++ rest))) :
    (∃ e, ofJson text = .error e ∧
      e.message =
        "invalid rule configuration: " ++ wording ++
          " at line " ++ Nat.repr e.line ++ " column " ++ Nat.repr e.column) ∧
      ∀ n, 3 ≤ n → n < 2 ^ 64 →
        Meaningless (Nat.toDigits 10 n) (Nat.repr n) ∧
          Meaningless ('"' :: (Nat.toDigits 10 n ++ ['"'])) (Nat.repr n) := by
  constructor
  · obtain ⟨fault, hfault, hwording⟩ :=
      Config.exists_fault_of_offence hbefore hpreceding hdistinct hoffence hrest
    refine ⟨.ofFault text fault, ?_, ?_⟩
    · rw [ofJson, htext, hfault]
    · unfold SettingsError.message
      rw [SettingsError.cause_ofFault, hwording]
  · intro n hlarge hfits
    exact ⟨.number hlarge hfits, .quoted_number hlarge⟩

/-- A number that is no level is named, though a wrong bracket closes the object. -/
theorem ofJson_refuses_first_offence_wrong_bracket :
    ∃ e,
      ofJson "\x7b\"enabled\":true, \"severity\": 7]" = .error e ∧
      e.message =
        "invalid rule configuration: " ++
          ("invalid severity: '" ++ "7" ++
            "'. Expected off, warn, error, suggestion, 0, 1, or 2") ++
          " at line " ++ Nat.repr e.line ++ " column " ++ Nat.repr e.column := by
  have hkey (field : Config.Field) :
      Quoted ('"' :: (field.key.toList ++ ['"'])) field.key := by
    apply Config.quoted_of_plain
    cases field <;> simp [Config.Field.key]
  have hspace : Gap [' '] := by
    simp [Gap]
  have htrue := Pair.parts (hkey .enabled) gap_nil gap_nil (.enabled .yes)
  have hflag := Preceding.member gap_nil htrue gap_nil (.nothing hspace)
  have hseven : Meaningless ['7'] "7" :=
    .number (n := 7) (by decide) (by decide)
  have hlevel : Offence [.enabled true] _ _ :=
    .severity (hkey .severity) (by decide) gap_nil hspace hseven
  have hstops : Config.Numeral.Stops [']'] := by
    simp [Config.Numeral.Stops]
  have hrefused :=
    ofJson_refuses_first_offence gap_nil hflag (by decide) hlevel
      (fun _ _ _ => hstops) String.toList_ofList
  exact hrefused.1

end Settings

end MethodLint
