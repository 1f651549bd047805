import ElementLint.Engine.Settings
import ElementLint.Proofs.Attempt

/-!
# What options the rules take

The rule on guarded super calls takes no options. The rule on element names takes one at most, an object
that may have the field `loose` with a truth value. Whatever else they are given they refuse with a
message: no option makes the check itself fail (`isRefusal_of_check`).
-/

namespace ElementLint

open Attempt

theorem GuardSuperCall.check_options_eq (options : List Json) :
    Options.check GuardSuperCall.rule (.list options) =
      if options = [] then .ok () else .error (.tooMany 0 options.length) := by
  have hentries : Options.check GuardSuperCall.rule (.list options) = Options.checkAll [] options := rfl
  cases options with
  | nil => rfl
  | cons option rest =>
    have hmany : ([] : List Json).length < (option :: rest).length := Nat.succ_pos _
    rw [hentries, Options.checkAll, if_pos hmany, if_neg (List.cons_ne_nil _ _)]
    rfl

theorem GuardSuperCall.check_options_eq_ok_iff {options : List Json} :
    Options.check GuardSuperCall.rule (.list options) = .ok () ↔ options = [] := by
  rw [check_options_eq]
  split <;> simp_all

namespace InvalidElementName

def optionSchema : Json :=
  .object [
    ("type", .text "object"),
    ("properties", .object [("loose", .object [("type", .text "boolean")])]),
    ("additionalProperties", .bool false)]

/-- Options that the rule takes: none, or an object that says nothing but whether it is `loose`. -/
def Takes (options : List Json) : Prop :=
  options = [] ∨ ∃ fields, options = [.object fields] ∧
    ∀ f ∈ fields, f.1 = Text.ofString "loose" ∧ ∃ b, f.2 = .bool b

/-- What fields say of `loose`, if they say it, is a truth value. -/
theorem exists_bool_of_get? {fields : Fields Json} {value : Json}
    (h : ∀ f ∈ fields, f.1 = Text.ofString "loose" ∧ ∃ b, f.2 = .bool b)
    (hget : Fields.get? fields "loose" = some value) : ∃ b, value = .bool b := by
  obtain ⟨f, hf, rfl⟩ := Option.map_eq_some_iff.1 hget
  exact (h f (List.mem_of_find?_eq_some hf)).2

theorem checkField_eq (name : Text) (value : Json) :
    Options.checkField optionSchema (name, value) =
      if name = Text.ofString "loose" then
        if OptionType.boolean.admits value then .ok ()
        else .error (.wrongType name "boolean" value.typeName)
      else .error (.unknownName name) := by
  have hlisted : Options.fieldSchema? (.object [("loose", .object [("type", .text "boolean")])]) name =
      .ok (if Text.ofString "loose" = name then some (.object [("type", .text "boolean")]) else none) := by
    rw [Options.fieldSchema?, Fields.get?_cons, Fields.get?_nil]
  change (Options.fieldSchema? (.object [("loose", .object [("type", .text "boolean")])]) name >>= _) = _
  rw [hlisted]
  by_cases h : name = Text.ofString "loose"
  · subst h
    rw [if_pos rfl, if_pos rfl]
    rfl
  · rw [if_neg h, if_neg (Ne.symm h)]
    rfl

theorem checkField_eq_ok_iff {f : Text × Json} :
    Options.checkField optionSchema f = .ok () ↔
      f.1 = Text.ofString "loose" ∧ ∃ b, f.2 = .bool b := by
  obtain ⟨name, value⟩ := f
  rw [checkField_eq]
  split
  · cases value <;> simp_all [OptionType.admits]
  · simp_all

theorem checkOption_eq (option : Json) :
    Options.checkOption option optionSchema =
      match option with
      | .object fields => fields.forM (Options.checkField optionSchema)
      | _ => .error .notObject := by
  cases option <;> rfl

theorem check_options_eq (options : List Json) :
    Options.check rule (.list options) =
      match options with
      | [] => .ok ()
      | [option] => Options.checkOption option optionSchema
      | options => .error (.tooMany 1 options.length) := by
  have hentries : Options.check rule (.list options) = Options.checkAll [optionSchema] options := rfl
  match options with
  | [] => rfl
  | [option] =>
    have hone : ¬[optionSchema].length < [option].length := Nat.lt_irrefl 1
    rw [hentries, Options.checkAll, if_neg hone]
    change (Options.checkOption option optionSchema >>= fun _ => .ok ()) =
      Options.checkOption option optionSchema
    cases Options.checkOption option optionSchema <;> rfl
  | first :: second :: rest =>
    have hmany : [optionSchema].length < (first :: second :: rest).length :=
      Nat.succ_lt_succ (Nat.succ_pos _)
    rw [hentries, Options.checkAll, if_pos hmany]
    rfl

theorem check_options_eq_ok_iff {options : List Json} :
    Options.check rule (.list options) = .ok () ↔ Takes options := by
  rw [check_options_eq, Takes]
  rcases options with _ | ⟨option, _ | ⟨second, rest⟩⟩
  · simp
  · dsimp only
    rw [checkOption_eq]
    cases option with
    | object fields =>
      dsimp only
      rw [forM_eq_ok_iff]
      simp only [checkField_eq_ok_iff]
      constructor
      · exact fun h => .inr ⟨fields, rfl, h⟩
      · rintro (h | ⟨_, h, hfields⟩)
        · cases h
        · cases h
          exact hfields
    | null | bool | int | float | text | list => simp
  · simp

end InvalidElementName

/-- Options that a rule of the registry does not take are refused with a message. -/
theorem isRefusal_of_check {name : Text} {rule : Rule} (h : (name, rule) ∈ registry)
    {options : List Json} {e : OptionError} (he : Options.check rule (.list options) = .error e) :
    e.isRefusal = true := by
  simp only [registry, List.mem_cons, List.not_mem_nil, or_false, Prod.mk.injEq] at h
  rcases h with ⟨-, rfl⟩ | ⟨-, rfl⟩
  · rw [InvalidElementName.check_options_eq] at he
    split at he
    · cases he
    · rw [InvalidElementName.checkOption_eq] at he
      split at he
      · obtain ⟨⟨field, value⟩, -, hfield⟩ := exists_of_forM_eq_error he
        rw [InvalidElementName.checkField_eq] at hfield
        split at hfield
        · split at hfield <;> cases hfield
          rfl
        · cases hfield
          rfl
      · cases he
        rfl
    · cases he
      rfl
  · rw [GuardSuperCall.check_options_eq] at he
    split at he <;> cases he
    rfl

end ElementLint
