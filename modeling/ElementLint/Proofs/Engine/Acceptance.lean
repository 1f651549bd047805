import ElementLint.Proofs.Engine.Settings

/-!
# Choices that are accepted

A choice names the rules to run, and gives options and severities to rules by their names. It is refused for
a name that no rule has, wherever it stands; else it is refused for what it gives to one of the rules that it
selects; and else there is an engine for it. What it gives to other rules has no part in this.

The main statement is that these are the outcomes, each on its own condition, and that the engine is the one
that was asked for and never fails (`build_settings_iff`). The rule on element names looks `loose` up in its
first option whatever that is. That it can do so rests on the check of the options.
-/

namespace ElementLint

open Attempt

/-- The names of rules, in the order in which the rules run. -/
def ruleNames : List Text := ["no-invalid-element-name", "guard-super-call"]

/-- There is a rule with a name. -/
def IsRegistered (name : Text) : Prop := name ∈ ruleNames

instance (name : Text) : Decidable (IsRegistered name) := inferInstanceAs (Decidable (_ ∈ _))

theorem ruleNames_eq : ruleNames = registry.map Prod.fst := rfl

theorem isRegistered_iff {name : Text} : IsRegistered name ↔ ∃ rule, (name, rule) ∈ registry := by
  simp [IsRegistered, ruleNames_eq]

/-- How a severity is named. -/
def Severity.HasName (s : Severity) (name : Text) : Prop :=
  match s with
  | .error => name = "error"
  | .warn => name = "warn"
  | .off => name = "off"

theorem Severity.hasName_iff {s : Severity} {name : Text} : s.HasName name ↔ s.name = name := by
  cases s <;> exact eq_comm

theorem Severity.ofName?_eq_some_iff {name : Text} {s : Severity} :
    Severity.ofName? name = some s ↔ s.HasName name := by
  rw [hasName_iff]
  constructor
  · intro h
    simpa using List.find?_some h
  · rintro rfl
    cases s <;> decide

theorem Severity.HasName.ne_off_iff {name : Text} {s : Severity} (h : s.HasName name) :
    name ≠ "off" ↔ s ≠ .off := by
  obtain rfl := hasName_iff.1 h
  cases s <;> decide

/-- The rule with a name takes some options. -/
def TakesOptions (name : Text) (options : List Json) : Prop :=
  (name = Text.ofString "guard-super-call" ∧ options = []) ∨
    (name = Text.ofString "no-invalid-element-name" ∧ InvalidElementName.Takes options)

theorem check_eq_ok_iff {name : Text} {rule : Rule} (hrule : (name, rule) ∈ registry) {options : List Json} :
    Options.check rule (.list options) = .ok () ↔ TakesOptions name options := by
  have hdiffer : Text.ofString "guard-super-call" ≠ Text.ofString "no-invalid-element-name" := by decide
  simp only [registry, List.mem_cons, List.not_mem_nil, or_false, Prod.mk.injEq] at hrule
  rcases hrule with ⟨rfl, rfl⟩ | ⟨rfl, rfl⟩
  · rw [InvalidElementName.check_options_eq_ok_iff, TakesOptions]
    simp [hdiffer.symm]
  · rw [GuardSuperCall.check_options_eq_ok_iff, TakesOptions]
    simp [hdiffer]

/-- A rule of the registry is accepted with options that it takes and the name of a severity. -/
theorem accept_eq_ok_iff {name : Text} {rule : Rule} (hrule : (name, rule) ∈ registry)
    {options : List Json} {level : Text} {x : Entry} :
    Engine.accept ⟨rule, options, .text level⟩ = .ok x ↔
      TakesOptions name options ∧ x.rule = rule ∧ x.options = options ∧ x.severity.HasName level := by
  have hname : ¬(Json.text level).isContainer = true := Bool.false_ne_true
  rw [← check_eq_ok_iff hrule, Engine.accept, if_neg hname]
  dsimp only
  obtain ⟨rule', options', severity⟩ := x
  rw [← Severity.ofName?_eq_some_iff]
  cases Severity.ofName? level with
  | none => simp
  | some severity' =>
    cases Options.check rule (.list options) with
    | error e => simp
    | ok u => simp [eq_comm]

namespace InvalidElementName

/-- What options say of `loose`, as far as it can be read: only an object has fields to look up. -/
def looseOf? (options : List Json) : Option Json :=
  match options with
  | [] => some (.bool false)
  | .object fields :: _ => some ((Fields.get? fields "loose").getD (.bool false))
  | _ :: _ => none

/-- The rule goes by what can be read, and is not loose if nothing can. -/
theorem isLoose_eq_looseOf? (options : List Json) :
    isLoose options = ((looseOf? options).getD (.bool false)).truthy := by
  rcases options with _ | ⟨option, rest⟩
  · rfl
  · cases option <;> rfl

/-- Options that the rule takes can be read. -/
theorem exists_looseOf?_of_takes {options : List Json} (h : Takes options) :
    ∃ b, looseOf? options = some (.bool b) := by
  rcases h with rfl | ⟨fields, rfl, hfields⟩
  · exact ⟨false, rfl⟩
  · rw [looseOf?]
    cases hget : Fields.get? fields "loose" with
    | none => exact ⟨false, rfl⟩
    | some value =>
      obtain ⟨b, rfl⟩ := exists_bool_of_get? hfields hget
      exact ⟨b, rfl⟩

end InvalidElementName

/-- What is asked for by the names of rules: which of them to run, if not all, and with what. -/
structure Choice where
  enabled : Option (List Text) := none
  options : Fields Json := []
  severities : Fields Text := []

namespace Choice

def settings (c : Choice) : Settings where
  enabled := (c.enabled.map fun names => Json.list (names.map .text)).getD .null
  options := .object c.options
  severities := .object (c.severities.map fun f => (f.1, .text f.2))

def mentioned (c : Choice) : List Text := c.options.names ++ c.severities.names ++ c.enabled.getD []

/-- A choice selects a rule by its name, or all rules by naming none. -/
def Selects (c : Choice) (name : Text) : Prop := c.enabled.getD [] = [] ∨ name ∈ c.enabled.getD []

instance (c : Choice) (name : Text) : Decidable (c.Selects name) := inferInstanceAs (Decidable (_ ∨ _))

/-- The options for a rule: a list as it is, nothing for none at all, and any other value as the only one. -/
def optionsOf (c : Choice) (name : Text) : List Json :=
  match c.options.get? name with
  | none | some .null => []
  | some (.list options) => options
  | some option => [option]

def severityOf (c : Choice) (name : Text) : Text := (c.severities.get? name).getD "error"

/-- What a choice gives to a rule is a severity that there is and options that the rule takes. -/
structure Fits (c : Choice) (name : Text) : Prop where
  severity : ∃ s : Severity, s.HasName (c.severityOf name)
  options : TakesOptions name (c.optionsOf name)

/-- The rules that a choice selects. -/
def selected (c : Choice) : List (Text × Rule) := registry.filter fun r => c.Selects r.1

theorem mem_selected {c : Choice} {r : Text × Rule} : r ∈ c.selected ↔ r ∈ registry ∧ c.Selects r.1 := by
  simp [selected]

variable (c : Choice)

theorem named_options : Settings.named c.settings.options = .ok (c.options.names.map .text) :=
  Settings.named_object c.options

theorem named_severities : Settings.named c.settings.severities = .ok (c.severities.names.map .text) := by
  have hnames : Fields.names (c.severities.map fun f => (f.1, Json.text f.2)) = c.severities.names := by
    simp [Fields.names]
  rw [settings, Settings.named_object, hnames]

theorem named_enabled : Settings.named c.settings.enabled = .ok ((c.enabled.getD []).map .text) := by
  rw [settings]
  cases c.enabled with
  | none => rfl
  | some names => exact Settings.named_list_texts names

theorem isKnown_text_iff {name : Text} : Settings.isKnown (.text name) = true ↔ IsRegistered name := by
  rw [Settings.isKnown, List.any_eq_true, IsRegistered, ruleNames_eq, List.mem_map]
  apply exists_congr
  intro r
  rw [Settings.names, beq_iff_eq, eq_comm]

/-- Names are let through if there is a rule for each of them. -/
theorem refuseUnknown_eq_ok_iff {names : List Text} :
    Settings.refuseUnknown (names.map .text) = .ok () ↔ ∀ name ∈ names, IsRegistered name := by
  have hall : (names.map Json.text).filter (!Settings.isKnown ·) = [] ↔
      ∀ name ∈ names, IsRegistered name := by
    rw [List.filter_eq_nil_iff, List.forall_mem_map]
    simp only [Bool.not_eq_true, Bool.not_eq_false', isKnown_text_iff]
  rw [← hall, Settings.refuseUnknown]
  cases (names.map Json.text).filter (!Settings.isKnown ·) <;> simp

theorem selected_settings (h : ∀ name ∈ c.enabled.getD [], IsRegistered name) :
    Settings.selected c.settings.enabled = .ok c.selected := by
  rw [Settings.selected, named_enabled, ok_bind, refuseUnknown_eq_ok_iff.2 h, ok_bind]
  refine congrArg Except.ok ?_
  rw [selected]
  split
  · rename_i hempty
    symm
    rw [List.filter_eq_self]
    intro r _
    exact decide_eq_true (.inl (by simpa using hempty))
  · rename_i hsome
    apply List.filter_congr
    intro r _
    have hnone : ¬c.enabled.getD [] = [] := by simpa using hsome
    rw [Bool.eq_iff_iff, decide_eq_true_iff, Selects, or_iff_right hnone, List.any_map, List.any_eq_true]
    simp [Settings.names]

theorem get?_map_text (fields : Fields Text) (name : Text) :
    Fields.get? (fields.map fun f => (f.1, Json.text f.2)) name = (fields.get? name).map Json.text := by
  induction fields with
  | nil => rfl
  | cons f rest ih =>
    rw [List.map_cons, Fields.get?_cons, Fields.get?_cons, ih]
    split <;> rfl

theorem optionsOf_eq (name : Text) :
    c.optionsOf name = Engine.optionList ((c.options.get? name).getD .null) := by
  rw [optionsOf]
  cases c.options.get? name with
  | none => rfl
  | some option => cases option <;> rfl

theorem request_settings (r : Text × Rule) :
    c.settings.request r = .ok ⟨r.2, c.optionsOf r.1, .text (c.severityOf r.1)⟩ := by
  have hlevel : (Fields.get? (c.severities.map fun f => (f.1, Json.text f.2)) r.1).getD (.text "error") =
      .text (c.severityOf r.1) := by
    rw [get?_map_text, severityOf]
    cases c.severities.get? r.1 <;> rfl
  rw [← hlevel, optionsOf_eq]
  rfl

/-- The rules that are selected, each with what it is given. -/
theorem build_of_registered (h : ∀ name ∈ c.mentioned, IsRegistered name) :
    c.settings.build = (c.selected.mapM fun r =>
      Engine.accept ⟨r.2, c.optionsOf r.1, .text (c.severityOf r.1)⟩).map Engine.mk := by
  obtain ⟨hgiven, henabled⟩ := List.forall_mem_append.1 h
  have hrequests : c.selected.mapM c.settings.request =
      .ok (c.selected.map fun r => ⟨r.2, c.optionsOf r.1, .text (c.severityOf r.1)⟩) :=
    mapM_eq_ok_map fun r _ => c.request_settings r
  rw [Settings.build, named_options, ok_bind, named_severities, ok_bind, ← List.map_append,
    refuseUnknown_eq_ok_iff.2 hgiven, ok_bind, c.selected_settings henabled, ok_bind, hrequests, ok_bind,
    Engine.ofRequests, List.mapM_map]
  rfl

/-- Without a rule for each name that is mentioned there is no engine. -/
theorem build_of_unregistered (h : ∃ name ∈ c.mentioned, ¬IsRegistered name) :
    ∃ names, c.settings.build = .error (.unknownRules names) := by
  have htexts (names : List Text) : Settings.AreTexts (names.map .text) := ⟨names, rfl⟩
  rw [Settings.build, named_options, ok_bind, named_severities, ok_bind, ← List.map_append]
  cases hgiven : Settings.refuseUnknown ((c.options.names ++ c.severities.names).map .text) with
  | error e =>
    obtain ⟨names, rfl⟩ := Settings.unknownRules_of_refuseUnknown (htexts _) hgiven
    exact ⟨names, rfl⟩
  | ok _ =>
    cases henabled : Settings.refuseUnknown ((c.enabled.getD []).map .text) with
    | error e =>
      obtain ⟨names, rfl⟩ := Settings.unknownRules_of_refuseUnknown (htexts _) henabled
      refine ⟨names, ?_⟩
      rw [ok_bind, Settings.selected, named_enabled, ok_bind, henabled]
      rfl
    | ok _ =>
      obtain ⟨name, hname, hnot⟩ := h
      refine absurd ?_ hnot
      rcases List.mem_append.1 hname with hname | hname
      · exact refuseUnknown_eq_ok_iff.1 hgiven name hname
      · exact refuseUnknown_eq_ok_iff.1 henabled name hname

theorem fits_iff {r : Text × Rule} (hr : r ∈ registry) :
    Succeeds (Engine.accept ⟨r.2, c.optionsOf r.1, .text (c.severityOf r.1)⟩) ↔ c.Fits r.1 := by
  constructor
  · rintro ⟨x, hx⟩
    obtain ⟨htakes, -, -, hseverity⟩ := (accept_eq_ok_iff hr).1 hx
    exact ⟨⟨x.severity, hseverity⟩, htakes⟩
  · rintro ⟨⟨severity, hseverity⟩, htakes⟩
    exact ⟨⟨r.2, c.optionsOf r.1, severity⟩, (accept_eq_ok_iff hr).2 ⟨htakes, rfl, rfl, hseverity⟩⟩

/-- If there is a rule for each name, a choice is accepted if what is given to each selected rule fits it. -/
theorem succeeds_build_iff (h : ∀ name ∈ c.mentioned, IsRegistered name) :
    Succeeds c.settings.build ↔ ∀ name, IsRegistered name → c.Selects name → c.Fits name := by
  rw [c.build_of_registered h, succeeds_map_iff, succeeds_mapM_iff]
  constructor
  · intro hall name hname hselects
    obtain ⟨rule, hrule⟩ := isRegistered_iff.1 hname
    exact (c.fits_iff hrule).1 (hall (name, rule) (mem_selected.2 ⟨hrule, hselects⟩))
  · intro hall r hr
    obtain ⟨hrule, hselects⟩ := mem_selected.1 hr
    exact (c.fits_iff hrule).2 (hall r.1 (isRegistered_iff.2 ⟨r.2, hrule⟩) hselects)

/-- If there is a rule for each name, a choice is refused only for what it gives to a rule. -/
theorem refusesRule_of_build (h : ∀ name ∈ c.mentioned, IsRegistered name) {e : EngineError}
    (hbuild : c.settings.build = .error e) : e.RefusesRule := by
  rw [c.build_of_registered h, map_eq_error_iff] at hbuild
  obtain ⟨r, hr, haccept⟩ := exists_of_mapM_eq_error hbuild
  exact Settings.refusesRule_of_accept (mem_selected.1 hr).1 haccept

/-! ## The engine for a choice -/

/-- An engine runs the rules that a choice selects, each once and in the order of their names, with the
options and the severity that the choice gives to it; those that are off are not among the ids. -/
structure AsksFor (e : Engine) : Prop where
  order : (e.entries.map fun x => x.rule.id).Sublist (ruleNames.map Json.text)
  nodup : (e.entries.map fun x => x.rule.id).Nodup
  selected : ∀ name, Json.text name ∈ e.entries.map (fun x => x.rule.id) ↔
    IsRegistered name ∧ c.Selects name
  given : ∀ x ∈ e.entries, ∃ name, (name, x.rule) ∈ registry ∧ x.options = c.optionsOf name ∧
    x.severity.HasName (c.severityOf name)
  ruleIds : ∀ name, Json.text name ∈ e.ruleIds ↔
    IsRegistered name ∧ c.Selects name ∧ c.severityOf name ≠ "off"

/-- An entry is what a choice gives to a rule of the registry, and the rule takes its options. -/
structure Gives (r : Text × Rule) (x : Entry) : Prop where
  registered : r ∈ registry
  rule : x.rule = r.2
  options : x.options = c.optionsOf r.1
  severity : x.severity.HasName (c.severityOf r.1)
  takes : TakesOptions r.1 x.options

theorem registered_of_build {e : Engine} (h : c.settings.build = .ok e) :
    ∀ name ∈ c.mentioned, IsRegistered name := by
  by_contra hnot
  push Not at hnot
  obtain ⟨names, hnames⟩ := c.build_of_unregistered hnot
  cases h.symm.trans hnames

theorem forall₂_gives_of_build {e : Engine} (h : c.settings.build = .ok e) :
    List.Forall₂ c.Gives c.selected e.entries := by
  rw [c.build_of_registered (c.registered_of_build h), map_eq_ok_iff] at h
  obtain ⟨entries, hentries, rfl⟩ := h
  have hall := (List.forall₂_and_left _ _).2
    ⟨fun r hr => (mem_selected.1 hr).1, mapM_eq_ok_iff.1 hentries⟩
  apply hall.imp
  rintro r x ⟨hr, hx⟩
  obtain ⟨htakes, hrule, hoptions, hseverity⟩ := (accept_eq_ok_iff hr).1 hx
  exact ⟨hr, hrule, hoptions, hseverity, hoptions ▸ htakes⟩

theorem Gives.id {c : Choice} {r : Text × Rule} {x : Entry} (h : c.Gives r x) :
    x.rule.id = .text r.1 := by
  rw [h.rule]
  exact id_of_mem_registry h.registered

theorem asksFor_of_build {e : Engine} (h : c.settings.build = .ok e) : c.AsksFor e := by
  have hall := c.forall₂_gives_of_build h
  have hids : (e.entries.map fun x => x.rule.id) = c.selected.map fun r => Json.text r.1 := by
    rw [← List.forall₂_eq_eq_eq, List.forall₂_map_left_iff, List.forall₂_map_right_iff]
    exact hall.flip.imp fun _ _ hgives => hgives.id
  refine ⟨?_, Settings.nodup_ids_of_build h, ?_, ?_, ?_⟩
  · rw [hids]
    exact List.filter_sublist.map _
  · intro name
    rw [hids]
    simp [mem_selected, isRegistered_iff]
  · intro x hx
    obtain ⟨r, hr, hgives⟩ := exists_of_mem_forall₂ hall hx
    exact ⟨r.1, hgives.rule ▸ hgives.registered, hgives.options, hgives.severity⟩
  · intro name
    simp only [Engine.ruleIds, Engine.active, List.mem_map, List.mem_filter, bne_iff_ne]
    constructor
    · rintro ⟨x, ⟨hx, hoff⟩, hid⟩
      obtain ⟨r, hr, hgives⟩ := exists_of_mem_forall₂ hall hx
      obtain ⟨hrule, hselects⟩ := mem_selected.1 hr
      cases Json.text.inj (hgives.id.symm.trans hid)
      exact ⟨isRegistered_iff.2 ⟨r.2, hrule⟩, hselects, hgives.severity.ne_off_iff.2 hoff⟩
    · rintro ⟨hname, hselects, hoff⟩
      obtain ⟨rule, hrule⟩ := isRegistered_iff.1 hname
      have hmem : (name, rule) ∈ c.selected := mem_selected.2 ⟨hrule, hselects⟩
      obtain ⟨x, hx, hgives⟩ := exists_of_mem_forall₂ (R := fun x r => c.Gives r x) hall.flip hmem
      exact ⟨x, ⟨hx, hgives.severity.ne_off_iff.1 hoff⟩, hgives.id⟩

end Choice

/-- An engine that cannot fail: what the options of an entry say of `loose` can be read and is what the rule on
element names goes by, and every run ends with what was found. -/
structure Engine.NeverFails (e : Engine) : Prop where
  readable : ∀ x ∈ e.entries, ∃ b, InvalidElementName.looseOf? x.options = some (.bool b) ∧
    InvalidElementName.isLoose x.options = b
  run : ∀ nodes, ∃ found, e.run nodes = .ok found

namespace Choice

theorem neverFails_of_build {c : Choice} {e : Engine} (h : c.settings.build = .ok e) : e.NeverFails where
  readable := by
    intro x hx
    obtain ⟨r, -, hgives⟩ := exists_of_mem_forall₂ (c.forall₂_gives_of_build h) hx
    obtain ⟨b, hb⟩ : ∃ b, InvalidElementName.looseOf? x.options = some (.bool b) := by
      rcases hgives.takes with ⟨-, hnone⟩ | ⟨-, htakes⟩
      · exact ⟨false, by rw [hnone]; rfl⟩
      · exact InvalidElementName.exists_looseOf?_of_takes htakes
    refine ⟨b, hb, ?_⟩
    rw [InvalidElementName.isLoose_eq_looseOf?, hb]
    rfl
  run := fun nodes => ⟨_, Engine.run_eq_ok (Settings.steady_of_build h) nodes⟩

/-- A choice that mentions a name that no rule has is refused for it. Any other choice is refused for a rule
that it selects if what it gives to this rule does not fit, and is accepted if all that it gives to selected
rules fits. The engine is then the one that is asked for, and it cannot fail. -/
theorem build_settings_iff (c : Choice) :
    ((∃ names, c.settings.build = .error (.unknownRules names)) ↔
      ∃ name ∈ c.mentioned, ¬IsRegistered name) ∧
    ((∃ e, c.settings.build = .error e ∧ e.RefusesRule) ↔
      (∀ name ∈ c.mentioned, IsRegistered name) ∧
        ∃ name, IsRegistered name ∧ c.Selects name ∧ ¬c.Fits name) ∧
    (Succeeds c.settings.build ↔
      (∀ name ∈ c.mentioned, IsRegistered name) ∧
        ∀ name, IsRegistered name → c.Selects name → c.Fits name) ∧
    ∀ e, c.settings.build = .ok e → c.AsksFor e ∧ e.NeverFails := by
  refine ⟨⟨?_, c.build_of_unregistered⟩, ⟨?_, ?_⟩, ⟨?_, ?_⟩, fun e h => ⟨c.asksFor_of_build h, neverFails_of_build h⟩⟩
  · rintro ⟨names, hnames⟩
    by_contra hnot
    push Not at hnot
    cases c.refusesRule_of_build hnot hnames
  · rintro ⟨e, he, hrefuses⟩
    have hregistered : ∀ name ∈ c.mentioned, IsRegistered name := by
      by_contra hnot
      push Not at hnot
      obtain ⟨names, hnames⟩ := c.build_of_unregistered hnot
      cases he.symm.trans hnames
      cases hrefuses
    refine ⟨hregistered, ?_⟩
    by_contra hnot
    push Not at hnot
    obtain ⟨_, hok⟩ := (c.succeeds_build_iff hregistered).2 hnot
    cases he.symm.trans hok
  · rintro ⟨hregistered, name, hname, hselects, hnot⟩
    have hfails : ¬Succeeds c.settings.build := by
      rw [c.succeeds_build_iff hregistered]
      exact fun hall => hnot (hall name hname hselects)
    obtain ⟨e, he⟩ := not_succeeds_iff.1 hfails
    exact ⟨e, he, c.refusesRule_of_build hregistered he⟩
  · rintro ⟨e, he⟩
    have hregistered := c.registered_of_build he
    exact ⟨hregistered, (c.succeeds_build_iff hregistered).1 ⟨e, he⟩⟩
  · rintro ⟨hregistered, hall⟩
    exact (c.succeeds_build_iff hregistered).2 hall

/-- A choice that gives the rule on guarded calls what it does not take. -/
def sideways (enabled : Option (List Text)) : Choice where
  enabled := enabled
  options := [("guard-super-call", .int 3), ("no-invalid-element-name", .object [("loose", .bool true)])]
  severities := [("guard-super-call", "loud")]

theorem fits_sideways (enabled : Option (List Text)) :
    (sideways enabled).Fits (Text.ofString "no-invalid-element-name") where
  severity := ⟨.error, rfl⟩
  options := .inr ⟨rfl, .inr ⟨[("loose", .bool true)], rfl, List.forall_mem_singleton.2 ⟨rfl, true, rfl⟩⟩⟩

theorem not_fits_sideways (enabled : Option (List Text)) :
    ¬(sideways enabled).Fits (Text.ofString "guard-super-call") := by
  rintro ⟨⟨severity, hseverity⟩, -⟩
  have hloud : (sideways enabled).severityOf (Text.ofString "guard-super-call") = "loud" := rfl
  rw [hloud, Severity.hasName_iff] at hseverity
  cases severity <;> revert hseverity <;> decide

/-- What is given to the rule on guarded calls matters if the rule is selected, by naming no rule, and not if
another one is, even twice; a name that no rule has comes first. -/
theorem build_settings_iff_sideways :
    (∃ e, (sideways (some ["no-invalid-element-name", "no-invalid-element-name"])).settings.build = .ok e ∧
      (sideways (some ["no-invalid-element-name", "no-invalid-element-name"])).AsksFor e ∧
      e.NeverFails) ∧
    (∃ e, (sideways none).settings.build = .error e ∧ e.RefusesRule) ∧
    ∃ names, (sideways (some ["guard-super-call", "guard"])).settings.build =
      .error (.unknownRules names) := by
  refine ⟨?_, ?_, ?_⟩
  · obtain ⟨-, -, haccepted, hgives⟩ :=
      build_settings_iff (sideways (some ["no-invalid-element-name", "no-invalid-element-name"]))
    have hfits : ∀ name, IsRegistered name →
        (sideways (some ["no-invalid-element-name", "no-invalid-element-name"])).Selects name →
        (sideways (some ["no-invalid-element-name", "no-invalid-element-name"])).Fits name := by
      rintro name - (hnone | hname)
      · cases hnone
      · obtain rfl : name = Text.ofString "no-invalid-element-name" := by simpa [sideways] using hname
        exact fits_sideways _
    obtain ⟨e, he⟩ := haccepted.2 ⟨by decide, hfits⟩
    exact ⟨e, he, hgives e he⟩
  · exact (build_settings_iff (sideways none)).2.1.2
      ⟨by decide, Text.ofString "guard-super-call", by decide, .inl rfl, not_fits_sideways none⟩
  · exact (build_settings_iff (sideways (some ["guard-super-call", "guard"]))).1.2
      ⟨Text.ofString "guard", by decide, by decide⟩

end Choice

end ElementLint
