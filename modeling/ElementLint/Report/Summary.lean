import ElementLint.Json.Order
import ElementLint.Json.Writer
import ElementLint.Report.Item

/-!
# Summaries

A summary counts the items of a report by severity and by rule. Rules that are alike are counted
together, under the name of the first of them.
-/

namespace ElementLint

/-- How many items there are of each severity and of each rule. -/
structure Summary where
  errors : Nat := 0
  warnings : Nat := 0
  byRule : List (Json × Nat) := []

namespace Summary

def total (s : Summary) : Nat := s.errors + s.warnings

def isWarning (i : Item) : Bool :=
  match i.severity with
  | some (.text t) => t == Text.ofString "warning"
  | _ => false

def countRule (rule : Json) : List (Json × Nat) → List (Json × Nat)
  | [] => [(rule, 1)]
  | (other, n) :: rest =>
    if other.alike rule then (other, n + 1) :: rest else (other, n) :: countRule rule rest

/-- Count an item; one of any other severity than `warning` counts as an error. -/
def count (s : Summary) (i : Item) : Summary where
  errors := if isWarning i then s.errors else s.errors + 1
  warnings := if isWarning i then s.warnings + 1 else s.warnings
  byRule :=
    match i.ruleOf? with
    | some rule => countRule rule s.byRule
    | none => s.byRule

def ofItems (items : List Item) : Summary := items.foldl count {}

theorem total_count (s : Summary) (i : Item) : (s.count i).total = s.total + 1 := by
  simp only [count, total]
  split <;> omega

/-- Every item counts once, as an error or as a warning. -/
theorem total_ofItems (items : List Item) : (ofItems items).total = items.length := by
  have h (s : Summary) : (items.foldl count s).total = s.total + items.length := by
    induction items generalizing s with
    | nil => rfl
    | cons i rest ih => simp [ih, total_count]; omega
  simpa [ofItems, total] using h {}

def toJson (s : Summary) : Json :=
  .object [("error", .int s.errors), ("warning", .int s.warnings), ("total", .int s.total),
    ("by_rule", .object (s.byRule.map fun (rule, n) => (rule.asName, .int n)))]

end Summary

end ElementLint
