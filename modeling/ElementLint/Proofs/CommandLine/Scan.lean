import ElementLint.CommandLine.Arguments
import ElementLint.Proofs.Attempt
import Mathlib.Data.List.Induction

/-!
# Taking values out of the arguments

`Arguments.takeValues` looks for an option again and again and takes it out with its value. The
equations here say that this comes to one reading of the arguments from the left: an option is taken
with what follows it, whatever that is, and any other argument is kept in its place.

`Reading.ofArgs` is that reading, argument by argument. The taking of values gives what it has found, and
fails if at the end an option still waits for its value (`takeValues_eq_reading`).
-/

namespace ElementLint

namespace Arguments

open Attempt

/-- What the taking of values comes to, one occurrence of the option at a time. -/
theorem takeValues_eq (flag : Text) (args : List Text) :
    takeValues flag args =
      match cutAtFlag? flag args with
      | none => .ok ([], args)
      | some (_, []) => .error (.missingValue flag)
      | some (before, value :: after) =>
        (takeValues flag (before ++ after)).map fun (values, kept) => (value :: values, kept) := by
  conv_lhs => rw [takeValues]
  split
  all_goals
    rename_i hcut
    rw [hcut]

@[simp] theorem takeValues_nil (flag : Text) : takeValues flag [] = .ok ([], []) := by
  rw [takeValues_eq]
  rfl

/-- An option at the end has no value. -/
theorem takeValues_singleton_self (flag : Text) :
    takeValues flag [flag] = .error (.missingValue flag) := by
  simp [takeValues_eq, cutAtFlag?]

theorem takeValues_cons_self (flag value : Text) (rest : List Text) :
    takeValues flag (flag :: value :: rest) =
      (takeValues flag rest).map fun (values, kept) => (value :: values, kept) := by
  rw [takeValues_eq]
  simp [cutAtFlag?]

/-- What is not the option stays in its place. -/
theorem takeValues_cons_of_ne {flag arg : Text} (h : arg ≠ flag) (rest : List Text) :
    takeValues flag (arg :: rest) =
      (takeValues flag rest).map fun (values, kept) => (values, arg :: kept) := by
  have hcut : cutAtFlag? flag (arg :: rest) =
      (cutAtFlag? flag rest).map fun (before, after) => (arg :: before, after) := if_neg h
  -- The next occurrence leaves fewer arguments, before which this one stands as well.
  fun_induction takeValues flag rest with
  | case1 rest hnone => rw [takeValues_eq, hcut, hnone]; rfl
  | case2 rest before hlast => rw [takeValues_eq, hcut, hlast]; rfl
  | case3 rest before value after hsome ih =>
    rw [takeValues_eq, hcut, hsome]
    simp only [Option.map_some, List.cons_append]
    rw [ih (if_neg h)]
    cases takeValues flag (before ++ after) <;> rfl

/-- What a reading of the arguments from the left has found so far. -/
structure Reading where
  values : List Text := []
  kept : List Text := []
  /-- The option was read last, and the next argument is its value. -/
  waits : Bool := false
deriving DecidableEq

namespace Reading

def next (flag : Text) (r : Reading) (arg : Text) : Reading :=
  if r.waits then { r with values := r.values ++ [arg], waits := false }
  else if arg = flag then { r with waits := true }
  else { r with kept := r.kept ++ [arg] }

def more (flag : Text) (r : Reading) (args : List Text) : Reading := args.foldl (next flag) r

def ofArgs (flag : Text) (args : List Text) : Reading := more flag {} args

def outcome (flag : Text) (r : Reading) : Except UsageError (List Text × List Text) :=
  if r.waits then .error (.missingValue flag) else .ok (r.values, r.kept)

@[simp] theorem more_nil (flag : Text) (r : Reading) : more flag r [] = r := rfl

@[simp] theorem more_cons (flag : Text) (r : Reading) (arg : Text) (rest : List Text) :
    more flag r (arg :: rest) = more flag (next flag r arg) rest := rfl

theorem more_concat (flag : Text) (r : Reading) (args : List Text) (arg : Text) :
    more flag r (args ++ [arg]) = next flag (more flag r args) arg := by
  rw [more, List.foldl_append]
  rfl

theorem next_of_waits {flag arg : Text} (values kept : List Text) :
    next flag ⟨values, kept, true⟩ arg = ⟨values ++ [arg], kept, false⟩ := rfl

theorem next_self {flag : Text} (values kept : List Text) :
    next flag ⟨values, kept, false⟩ flag = ⟨values, kept, true⟩ := by
  simp [next]

theorem next_of_ne {flag arg : Text} (h : arg ≠ flag) (values kept : List Text) :
    next flag ⟨values, kept, false⟩ arg = ⟨values, kept ++ [arg], false⟩ := by
  simp [next, h]

theorem waits_next_iff {flag arg : Text} {r : Reading} :
    (r.next flag arg).waits = true ↔ r.waits = false ∧ arg = flag := by
  obtain ⟨values, kept, waits⟩ := r
  cases waits with
  | true => simp [next]
  | false => by_cases h : arg = flag <;> simp [next, h]

/-- The option waits for its value at the end if the reading meets it as the last argument. -/
theorem waits_ofArgs_iff {flag : Text} {args : List Text} :
    (ofArgs flag args).waits = true ↔
      ∃ before, args = before ++ [flag] ∧ (ofArgs flag before).waits = false := by
  induction args using List.reverseRecOn with
  | nil => simp [ofArgs]
  | append_singleton args arg _ =>
    rw [ofArgs, more_concat, waits_next_iff, ← ofArgs]
    constructor
    · rintro ⟨hwaits, rfl⟩
      exact ⟨args, rfl, hwaits⟩
    · rintro ⟨before, heq, hwaits⟩
      obtain ⟨rfl, harg⟩ := List.append_inj' heq rfl
      exact ⟨hwaits, List.head_eq_of_cons_eq harg⟩

/-- A reading accounts for the arguments read: the values and what is kept stand in their order, no option is
kept, and each argument is the option, a value or kept. -/
structure AccountsFor (flag : Text) (args : List Text) (r : Reading) : Prop where
  values : r.values.Sublist args
  kept : r.kept.Sublist args
  notMem : flag ∉ r.kept
  length : args.length = 2 * r.values.length + r.kept.length + if r.waits then 1 else 0

theorem accountsFor_nil (flag : Text) : AccountsFor flag [] {} where
  values := .slnil
  kept := .slnil
  notMem := nofun
  length := rfl

/-- To read one more argument keeps the account. -/
theorem AccountsFor.next {flag : Text} {args : List Text} {r : Reading} (h : AccountsFor flag args r)
    (arg : Text) : AccountsFor flag (args ++ [arg]) (r.next flag arg) := by
  obtain ⟨values, kept, waits⟩ := r
  obtain ⟨hvalues, hkept, hnotMem, hlength⟩ := h
  dsimp only at hvalues hkept hnotMem hlength
  have hskip {found : List Text} (hfound : found.Sublist args) : found.Sublist (args ++ [arg]) :=
    hfound.trans (List.sublist_append_left args [arg])
  have htake {found : List Text} (hfound : found.Sublist args) :
      (found ++ [arg]).Sublist (args ++ [arg]) := hfound.append_right [arg]
  have hlonger (found : List Text) : (found ++ [arg]).length = found.length + 1 := List.length_append
  cases waits with
  | true =>
    rw [next_of_waits]
    refine ⟨htake hvalues, hskip hkept, hnotMem, ?_⟩
    simp only [hlonger, hlength, if_true, Bool.false_eq_true, if_false]
    omega
  | false =>
    by_cases harg : arg = flag
    · have hnext : Reading.next flag ⟨values, kept, false⟩ arg = ⟨values, kept, true⟩ := by
        rw [harg, next_self]
      rw [hnext]
      refine ⟨hskip hvalues, hskip hkept, hnotMem, ?_⟩
      simp only [hlonger, hlength, if_true, Bool.false_eq_true, if_false]
    · rw [next_of_ne harg]
      refine ⟨hskip hvalues, htake hkept, ?_, ?_⟩
      · rw [List.mem_append, List.mem_singleton, not_or]
        exact ⟨hnotMem, Ne.symm harg⟩
      · simp only [hlonger, hlength, Bool.false_eq_true, if_false]
        omega

theorem accountsFor_ofArgs (flag : Text) (args : List Text) :
    AccountsFor flag args (ofArgs flag args) := by
  induction args using List.reverseRecOn with
  | nil => exact accountsFor_nil flag
  | append_singleton args arg ih =>
    rw [ofArgs, more_concat]
    exact ih.next arg

/-- What the taking of values gives is what a reading goes on to find. -/
theorem outcome_more (flag : Text) : ∀ args values kept : List Text,
    (more flag ⟨values, kept, false⟩ args).outcome flag =
      (takeValues flag args).map fun found => (values ++ found.1, kept ++ found.2)
  | [], values, kept => by simp [outcome, Except.map]
  | [arg], values, kept => by
    by_cases h : arg = flag
    · rw [h, more_cons, next_self, takeValues_singleton_self]
      rfl
    · rw [more_cons, next_of_ne h, takeValues_cons_of_ne h, takeValues_nil]
      simp [outcome, Except.map]
  | arg :: value :: rest, values, kept => by
    by_cases h : arg = flag
    · -- The option and its value are read together.
      rw [h, more_cons, next_self, more_cons, next_of_waits, takeValues_cons_self, outcome_more flag rest]
      cases takeValues flag rest with
      | error e => rfl
      | ok found => simp [Except.map]
    · rw [more_cons, next_of_ne h, takeValues_cons_of_ne h, outcome_more flag (value :: rest)]
      cases takeValues flag (value :: rest) with
      | error e => rfl
      | ok found => simp [Except.map]

end Reading

/-- To take out an option with its value at its first occurrence, again and again, is to read the arguments
once from the left. The reading accounts for every argument and keeps no option, and the taking fails, in
one way only, if the reading meets the option as the last argument. -/
theorem takeValues_eq_reading (flag : Text) (args : List Text) :
    takeValues flag args = (Reading.ofArgs flag args).outcome flag ∧
      (Reading.ofArgs flag args).AccountsFor flag args ∧
      ∀ e, takeValues flag args = .error e ↔
        e = .missingValue flag ∧
          ∃ before, args = before ++ [flag] ∧ (Reading.ofArgs flag before).waits = false := by
  have htake : takeValues flag args = (Reading.ofArgs flag args).outcome flag := by
    rw [Reading.ofArgs, Reading.outcome_more flag args [] []]
    cases takeValues flag args <;> rfl
  refine ⟨htake, Reading.accountsFor_ofArgs flag args, fun e => ?_⟩
  rw [htake, ← Reading.waits_ofArgs_iff, Reading.outcome]
  cases (Reading.ofArgs flag args).waits with
  | true => simp [eq_comm]
  | false => simp

/-- The option is the value of the one before it, and what follows is kept. -/
example : takeValues "--rules" ["a", "--rules", "--rules", "b"] = .ok (["--rules"], ["a", "b"]) := by
  cbv

end Arguments

end ElementLint
