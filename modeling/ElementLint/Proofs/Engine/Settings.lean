import ElementLint.Proofs.Engine.Options
import ElementLint.Proofs.Engine.Run

/-!
# Settings that are refused

Settings are *plain* if names stand where names are needed: the rules are a list of texts or none at all,
and options and severities are objects. Plain settings may still not describe an engine, but only in one
of three ways: they name a rule that there is not, they give a rule a severity that there is not, or they
give it options that it does not take. The other faults, which come from values of the wrong shape, do not
occur (`refuses_of_build`).
-/

namespace ElementLint

open Attempt

/-- What a single rule is given is at fault: a severity that there is not, or options that it does not take. -/
inductive EngineError.RefusesRule : EngineError → Prop
  | unknownSeverity (rule : Text) (severity : Json) : RefusesRule (.unknownSeverity rule severity)
  | options (rule : Text) {e : OptionError} (h : e.isRefusal = true) : RefusesRule (.options rule e)

namespace Settings

/-- Values that are texts. -/
def AreTexts (values : List Json) : Prop := ∃ names : List Text, values = names.map .text

theorem AreTexts.append {values values' : List Json} (h : AreTexts values) (h' : AreTexts values') :
    AreTexts (values ++ values') := by
  obtain ⟨names, rfl⟩ := h
  obtain ⟨names', rfl⟩ := h'
  exact ⟨names ++ names', (List.map_append).symm⟩

theorem AreTexts.filter {values : List Json} (h : AreTexts values) (p : Json → Bool) :
    AreTexts (values.filter p) := by
  obtain ⟨names, rfl⟩ := h
  exact ⟨names.filter (p ∘ .text), List.filter_map⟩

theorem find?_isContainer_texts (names : List Text) :
    (names.map Json.text).find? Json.isContainer = none := by
  rw [List.find?_eq_none]
  intro value hvalue
  obtain ⟨name, -, rfl⟩ := List.mem_map.1 hvalue
  exact Bool.false_ne_true

theorem named_list_texts (names : List Text) :
    named (.list (names.map .text)) = .ok (names.map .text) := by
  have helements : (Json.list (names.map .text)).elements? = some (names.map .text) := rfl
  rw [named, helements]
  dsimp only
  rw [find?_isContainer_texts]
  cases names <;> rfl

theorem named_object (fields : Fields Json) :
    named (.object fields) = .ok (fields.names.map .text) := by
  have helements : (Json.object fields).elements? = some (fields.names.map .text) := by
    rw [Fields.names, List.map_map]
    rfl
  rw [named, helements]
  dsimp only
  rw [find?_isContainer_texts]
  cases fields <;> rfl

theorem mapM_text?_texts (names : List Text) : (names.map Json.text).mapM text? = some names := by
  induction names with
  | nil => rfl
  | cons name names ih =>
    rw [List.map_cons, List.mapM_cons, ih]
    rfl

/-- Names that are texts are refused as unknown rules. -/
theorem unknownRules_of_refuseUnknown {values : List Json} (htexts : AreTexts values) {e : EngineError}
    (h : refuseUnknown values = .error e) : ∃ names, e = .unknownRules names := by
  obtain ⟨names, hnames⟩ := htexts.filter (!isKnown ·)
  rw [refuseUnknown] at h
  split at h
  · cases h
  · rename_i first rest hvalues
    cases h
    have htext : (first :: rest).mapM text? = some names := by
      rw [← hvalues, hnames, mapM_text?_texts]
    rw [unknown, htext]
    exact ⟨_, rfl⟩

variable {s : Settings} {e : EngineError}

/-- A rule of the registry is refused for its severity or for its options. -/
theorem refusesRule_of_accept {name : Text} {rule : Rule} (hrule : (name, rule) ∈ registry)
    {options : List Json} {level : Text}
    (h : Engine.accept ⟨rule, options, .text level⟩ = .error e) : e.RefusesRule := by
  have hname : ¬(Json.text level).isContainer = true := Bool.false_ne_true
  rw [Engine.accept, if_neg hname] at h
  dsimp only at h
  split at h
  · cases h
    exact .unknownSeverity _ _
  · split at h
    · rename_i hcheck
      cases h
      exact .options _ (isRefusal_of_check hrule hcheck)
    · cases h

end Settings

end ElementLint
