import ElementLint.Report.Summary
import Mathlib.Data.List.Induction
import Mathlib.Data.List.Nodup

/-!
# What a summary counts

A summary is made item by item. `count_concat` says what one more item changes, and from it the counts of
a whole report follow by induction from its end: the errors, the warnings, and for every rule that is a
text the number of its items.
-/

namespace ElementLint

namespace Item

def isOf (rule : Text) (i : Item) : Bool := i.rule == some (.text rule)

theorem isOf_eq {i : Item} {rule : Text} (h : i.rule = some (.text rule)) (other : Text) :
    isOf other i = decide (rule = other) := by
  rw [isOf, h, Bool.eq_iff_iff]
  simp

theorem ruleOf?_of_null {i : Item} (h : i.rule = some .null) : i.ruleOf? = none := by
  rw [ruleOf?, h]
  rfl

theorem ruleOf?_of_text {i : Item} {rule : Text} (h : i.rule = some (.text rule)) (hne : rule ≠ []) :
    i.ruleOf? = some (.text rule) := by
  rw [ruleOf?, h, Option.filter_some, if_pos]
  simpa [Json.truthy] using hne

end Item

namespace Summary

theorem ofItems_concat (items : List Item) (i : Item) :
    ofItems (items ++ [i]) = (ofItems items).count i := by
  rw [ofItems, List.foldl_append]
  rfl

theorem warnings_ofItems (items : List Item) : (ofItems items).warnings = items.countP isWarning := by
  induction items using List.reverseRecOn with
  | nil => rfl
  | append_singleton items i ih =>
    rw [ofItems_concat, List.countP_append, List.countP_singleton, ← ih, count]
    cases isWarning i <;> rfl

theorem errors_ofItems (items : List Item) :
    (ofItems items).errors = items.countP fun i => !isWarning i := by
  induction items using List.reverseRecOn with
  | nil => rfl
  | append_singleton items i ih =>
    rw [ofItems_concat, List.countP_append, List.countP_singleton, ← ih, count]
    cases isWarning i <;> rfl

/-- The numbers of items of rules that are texts. -/
def ofTexts (counts : Fields Nat) : List (Json × Nat) :=
  counts.map fun f => (.text f.1, f.2)

/-- To count one more item of a rule is to put the next number in its place. -/
theorem countRule_ofTexts (rule : Text) (counts : Fields Nat) :
    countRule (.text rule) (ofTexts counts) =
      ofTexts (counts.put rule ((counts.get? rule).getD 0 + 1)) := by
  induction counts with
  | nil => rfl
  | cons f counts ih =>
    rw [ofTexts, List.map_cons, countRule, Json.alike_text, Fields.get?_cons]
    by_cases h : f.1 = rule
    · subst h
      simp [ofTexts, Fields.put]
    · rw [← ofTexts, ih]
      simp [ofTexts, Fields.put, h]

/-- Some numbers of items by rule: of each rule that has items their number, and nothing else. -/
structure CountsRules (items : List Item) (counts : Fields Nat) : Prop where
  nodup : counts.names.Nodup
  number : ∀ rule, counts.get? rule =
    if items.any (Item.isOf rule) then some (items.countP (Item.isOf rule)) else none

theorem getD_number {items : List Item} {counts : Fields Nat} (h : CountsRules items counts)
    (rule : Text) : (counts.get? rule).getD 0 = items.countP (Item.isOf rule) := by
  rw [h.number]
  split
  · rfl
  · rename_i hnone
    refine (List.countP_eq_zero.2 fun i hi hrule => hnone ?_).symm
    exact List.any_eq_true.2 ⟨i, hi, hrule⟩

/-- One more item of a rule. -/
theorem CountsRules.concat {items : List Item} {counts : Fields Nat} (h : CountsRules items counts)
    {rule : Text} {i : Item} (hi : i.rule = some (.text rule)) :
    CountsRules (items ++ [i]) (counts.put rule ((counts.get? rule).getD 0 + 1)) where
  nodup := by
    rw [Fields.names_put]
    split
    · exact h.nodup
    · rename_i hnew
      exact List.nodup_append.2 ⟨h.nodup, List.nodup_singleton rule, by
        rintro a ha b hb rfl
        exact hnew (List.mem_singleton.1 hb ▸ ha)⟩
  number := by
    intro other
    rw [Fields.get?_put, getD_number h, List.any_append, List.countP_append, List.countP_singleton,
      List.any_cons, List.any_nil, Bool.or_false, Item.isOf_eq hi]
    by_cases heq : rule = other
    · simp [heq]
    · simp [heq, h.number]

/-- One more item without a rule. -/
theorem CountsRules.concat_of_ne {items : List Item} {counts : Fields Nat}
    (h : CountsRules items counts) {i : Item} (hi : ∀ rule, i.rule ≠ some (.text rule)) :
    CountsRules (items ++ [i]) counts where
  nodup := h.nodup
  number := by
    intro other
    have hof : Item.isOf other i = false := by
      rw [Item.isOf, beq_eq_false_iff_ne]
      exact hi other
    rw [h.number, List.any_append, List.countP_append, List.countP_singleton, List.any_cons,
      List.any_nil, hof]
    simp

/-- An item of a rule with a name, or of no rule. -/
def Named (i : Item) : Prop := i.rule = some .null ∨ ∃ rule : Text, rule ≠ [] ∧ i.rule = some (.text rule)

/-- The summary of a report has for each rule the number of its items. -/
theorem exists_countsRules {items : List Item} (h : ∀ i ∈ items, Named i) :
    ∃ counts, (ofItems items).byRule = ofTexts counts ∧ CountsRules items counts := by
  induction items using List.reverseRecOn with
  | nil => exact ⟨[], rfl, List.nodup_nil, fun _ => rfl⟩
  | append_singleton items i ih =>
    obtain ⟨counts, hcounts, hitems⟩ := ih fun j hj => h j (List.mem_append_left [i] hj)
    rw [ofItems_concat, count, hcounts]
    rcases h i List.mem_concat_self with hi | ⟨rule, hne, hi⟩
    · rw [Item.ruleOf?_of_null hi]
      exact ⟨counts, rfl, hitems.concat_of_ne fun rule => by simp [hi]⟩
    · rw [Item.ruleOf?_of_text hi hne]
      exact ⟨_, countRule_ofTexts rule counts, hitems.concat hi⟩

/-- Items without a rule are counted for none. -/
theorem byRule_eq_nil {items : List Item} (h : ∀ i ∈ items, i.rule = some .null) :
    (ofItems items).byRule = [] := by
  obtain ⟨counts, hcounts, hitems⟩ := exists_countsRules fun i hi => .inl (h i hi)
  cases counts with
  | nil => exact hcounts
  | cons f counts =>
    have hnumber := hitems.number f.1
    rw [Fields.get?_cons, if_pos rfl] at hnumber
    split at hnumber
    · rename_i hany
      obtain ⟨i, hi, hrule⟩ := List.any_eq_true.1 hany
      rw [Item.isOf, h i hi] at hrule
      cases hrule
    · cases hnumber

end Summary

end ElementLint
