import ElementLint.Proofs.Order.StableSort
import ElementLint.Report.Item

/-!
# The orders of a report

Diagnostics are sorted by position, and the items made of them a second time by a finer key. Both tests
are transitive and total, so that what is known of stable sorting holds for them. Items of one rule under
one severity have keys that differ in the position only, so the second sort leaves them as the first one
put them.
-/

namespace ElementLint

theorem Text.le_trans {t u v : Text} (h : t.le u = true) (h' : u.le v = true) : t.le v = true := by
  induction t generalizing u v with
  | nil => rfl
  | cons a t ih =>
    cases u with
    | nil => cases h
    | cons b u =>
      cases v with
      | nil => cases h'
      | cons c v =>
        simp only [Text.le, Bool.or_eq_true, decide_eq_true_eq, Bool.and_eq_true, beq_iff_eq] at h h' ⊢
        rcases h with h | ⟨rfl, h⟩
        · rcases h' with h' | ⟨rfl, -⟩
          · exact .inl (Nat.lt_trans h h')
          · exact .inl h
        · rcases h' with h' | ⟨rfl, h'⟩
          · exact .inl h'
          · exact .inr ⟨rfl, ih h h'⟩

theorem Text.le_total (t u : Text) : (t.le u || u.le t) = true := by
  induction t generalizing u with
  | nil => rfl
  | cons a t ih =>
    cases u with
    | nil => rfl
    | cons b u =>
      have := ih u
      simp only [Text.le, Bool.or_eq_true, decide_eq_true_eq, Bool.and_eq_true, beq_iff_eq] at this ⊢
      rcases Nat.lt_trichotomy a b with h | rfl | h
      · exact .inl (.inl h)
      · rcases this with h | h
        · exact .inl (.inr ⟨rfl, h⟩)
        · exact .inr (.inr ⟨rfl, h⟩)
      · exact .inr (.inl h)

namespace Diagnostic

theorem le_trans (a b c : Diagnostic) (h : a.le b = true) (h' : b.le c = true) : a.le c = true :=
  Position.le_trans h h'

theorem le_total (a b : Diagnostic) : (a.le b || b.le a) = true :=
  Position.le_total a.position b.position

/-- Diagnostics in the order of a report: by position, at one position errors before warnings, and
otherwise in the order in which they were made. -/
structure InReportOrder (made listed : List Diagnostic) : Prop where
  perm : listed.Perm made
  sorted : listed.Pairwise fun a b =>
    a.le b = true ∧ (a.position = b.position → a.severity = .warn → b.severity = .warn)
  stable : ∀ (position : Position) (warns : Bool),
    listed.filter (fun d => d.position = position ∧ (d.severity = .warn ↔ warns = true)) =
      made.filter (fun d => d.position = position ∧ (d.severity = .warn ↔ warns = true))

end Diagnostic

namespace Item

theorem Key.le_iff (a b : Key) :
    a.le b = true ↔ a.line < b.line ∨ (a.line = b.line ∧ (a.column < b.column ∨
      (a.column = b.column ∧ (a.rank < b.rank ∨ (a.rank = b.rank ∧ a.source.le b.source = true))))) := by
  simp [Key.le]

theorem Key.le_trans {a b c : Key} (h : a.le b = true) (h' : b.le c = true) : a.le c = true := by
  rw [Key.le_iff] at *
  have hsource := @Text.le_trans a.source b.source c.source
  grind

theorem Key.le_total (a b : Key) : (a.le b || b.le a) = true := by
  rw [Bool.or_eq_true, Key.le_iff, Key.le_iff]
  have hsource := Text.le_total a.source b.source
  rw [Bool.or_eq_true] at hsource
  grind

theorem key_le_trans (a b c : Item) (h : a.key.le b.key = true) (h' : b.key.le c.key = true) :
    a.key.le c.key = true :=
  Key.le_trans h h'

theorem key_le_total (a b : Item) : (a.key.le b.key || b.key.le a.key) = true := Key.le_total _ _

@[simp] theorem key_line_ofDiagnostic (d : Diagnostic) :
    (ofDiagnostic d).key.line = (d.position.line : Int) := rfl

@[simp] theorem key_column_ofDiagnostic (d : Diagnostic) :
    (ofDiagnostic d).key.column = (d.position.column : Int) := rfl

theorem key_rank_ofDiagnostic (d : Diagnostic) :
    (ofDiagnostic d).key.rank = if d.severity = .warn then 1 else 0 := by
  cases hd : d.severity <;> simp only [key, rank, ofDiagnostic, hd] <;> rfl

/-- As items diagnostics are ordered by position, and at one position errors come before warnings. -/
theorem key_le_ofDiagnostic_iff (a b : Diagnostic) :
    (ofDiagnostic a).key.le (ofDiagnostic b).key = true ↔
      a.le b = true ∧ (a.position = b.position → a.severity = .warn → b.severity = .warn) := by
  have hsource : (ofDiagnostic a).key.source.le (ofDiagnostic b).key.source = true := Text.le_refl _
  have hposition : a.position = b.position ↔
      a.position.line = b.position.line ∧ a.position.column = b.position.column := by
    cases a.position
    cases b.position
    simp
  have hrank : (ofDiagnostic a).key.rank ≤ (ofDiagnostic b).key.rank ↔
      (a.severity = .warn → b.severity = .warn) := by
    rw [key_rank_ofDiagnostic, key_rank_ofDiagnostic]
    by_cases ha : a.severity = .warn <;> by_cases hb : b.severity = .warn <;> simp [ha, hb]
  rw [Key.le_iff, Diagnostic.le, Position.le_iff, hposition, ← hrank, key_line_ofDiagnostic,
    key_line_ofDiagnostic, key_column_ofDiagnostic, key_column_ofDiagnostic]
  simp only [hsource, and_true]
  omega

/-- Diagnostics with the same severity are ordered as items as they are by position. -/
theorem key_le_ofDiagnostic {a b : Diagnostic} (hseverity : a.severity = b.severity)
    (h : a.le b = true) : (ofDiagnostic a).key.le (ofDiagnostic b).key = true :=
  (key_le_ofDiagnostic_iff a b).2 ⟨h, fun _ ha => hseverity ▸ ha⟩

/-- Sorting the items of diagnostics that stand in order and have one severity changes nothing. -/
theorem sort_ofDiagnostic {ds : List Diagnostic} (hsorted : ds.Pairwise fun a b => a.le b = true)
    (hseverity : ∀ a ∈ ds, ∀ b ∈ ds, a.severity = b.severity) :
    sort (ds.map ofDiagnostic) = ds.map ofDiagnostic := by
  apply List.mergeSort_of_pairwise
  rw [List.pairwise_map]
  apply hsorted.imp_of_mem
  intro a b ha hb h
  exact key_le_ofDiagnostic (hseverity a ha b hb) h

theorem pairwise_sort (items : List Item) :
    (sort items).Pairwise fun a b => a.key.le b.key = true :=
  List.pairwise_mergeSort key_le_trans key_le_total items

/-- Leaving items out commutes with the order of a report. -/
theorem filter_sort (p : Item → Bool) (items : List Item) :
    (sort items).filter p = sort (items.filter p) :=
  filter_mergeSort key_le_trans key_le_total p items

/-- The items of diagnostics are the diagnostics in the order of a report. -/
theorem exists_inReportOrder (made : List Diagnostic) :
    ∃ listed, Diagnostic.InReportOrder made listed ∧
      sort (made.map ofDiagnostic) = listed.map ofDiagnostic := by
  refine ⟨made.mergeSort fun a b => (ofDiagnostic a).key.le (ofDiagnostic b).key,
    ⟨List.mergeSort_perm made _, ?_, ?_⟩, ?_⟩
  · refine List.Pairwise.imp (fun {a b} => (key_le_ofDiagnostic_iff a b).1) ?_
    apply List.pairwise_mergeSort
    · exact fun a b c => key_le_trans _ _ _
    · exact fun a b => key_le_total _ _
  · intro position warns
    apply filter_mergeSort_of_tied
    · exact fun a b c => key_le_trans _ _ _
    · exact fun a b => key_le_total _ _
    · intro a b ha hb
      obtain ⟨hpa, hwa⟩ := of_decide_eq_true ha
      obtain ⟨hpb, hwb⟩ := of_decide_eq_true hb
      refine (key_le_ofDiagnostic_iff a b).2 ⟨?_, fun _ h => hwb.2 (hwa.1 h)⟩
      rw [Diagnostic.le, hpa, hpb]
      exact Position.le_refl position
  · symm
    apply List.map_mergeSort
    exact fun _ _ _ _ => rfl

/-- Problems are ordered as items as they are by position. -/
theorem key_le_ofProblem {p q : Problem} (h : p.position.le q.position = true) :
    (ofProblem p).key.le (ofProblem q).key = true := by
  have hline : ∀ p : Problem, (ofProblem p).key.line = (p.position.line : Int) := fun _ => rfl
  have hcolumn : ∀ p : Problem, (ofProblem p).key.column = (p.position.column : Int) := fun _ => rfl
  have hrank : (ofProblem p).key.rank = (ofProblem q).key.rank := rfl
  have hsource : (ofProblem p).key.source.le (ofProblem q).key.source = true := Text.le_refl _
  rw [Position.le_iff] at h
  rw [Key.le_iff, hline, hline, hcolumn, hcolumn]
  simp only [hrank, hsource, or_true, and_true]
  omega

/-- The warning that the rules did not run has no column, so it stands before all problems on its line:
their columns count from one. -/
theorem not_key_le_limited {p : Problem} {line : Nat} (hline : line ≤ p.position.line)
    (hcolumn : 1 ≤ p.position.column) :
    (ofProblem p).key.le (limited (.int line)).key = false := by
  have hpline : (ofProblem p).key.line = (p.position.line : Int) := rfl
  have hpcolumn : (ofProblem p).key.column = (p.position.column : Int) := rfl
  have hlline : (limited (.int line)).key.line = (line : Int) := rfl
  have hlcolumn : (limited (.int line)).key.column = 0 := rfl
  rw [← Bool.not_eq_true, Key.le_iff, hpline, hpcolumn, hlline, hlcolumn]
  omega

/-- The problems of a program are in the order of a report already. -/
theorem sort_ofProblem {problems : List Problem}
    (hsorted : problems.Pairwise fun p q => p.position.le q.position = true) :
    sort (problems.map ofProblem) = problems.map ofProblem := by
  apply List.mergeSort_of_pairwise
  rw [List.pairwise_map]
  exact hsorted.imp key_le_ofProblem

def isFromParser (i : Item) : Bool := i.source == some (.text "parser")

theorem isFromParser_of_mem {problems : List Problem} {i : Item} (h : i ∈ problems.map ofProblem) :
    isFromParser i = true := by
  obtain ⟨p, -, rfl⟩ := List.mem_map.1 h
  exact beq_self_eq_true _

/-- The warning is put after the problems, and the report begins with it. -/
theorem sort_limited {problems : List Problem} {line : Nat}
    (hsorted : problems.Pairwise fun p q => p.position.le q.position = true)
    (hline : ∀ p ∈ problems, line ≤ p.position.line)
    (hcolumn : ∀ p ∈ problems, 1 ≤ p.position.column) :
    sort (problems.map ofProblem ++ [limited (.int line)]) =
      limited (.int line) :: problems.map ofProblem := by
  have hlimited : isFromParser (limited (.int line)) = false := rfl
  have hlast : ∀ i ∈ sort (problems.map ofProblem ++ [limited (.int line)]),
      ∀ j ∈ sort (problems.map ofProblem ++ [limited (.int line)]),
        isFromParser i = true → isFromParser j = false → i.key.le j.key = false := by
    simp only [sort, List.mem_mergeSort, List.mem_append, List.mem_singleton]
    rintro i (hi | rfl) j (hj | rfl) hip hjp
    · rw [isFromParser_of_mem hj] at hjp
      cases hjp
    · obtain ⟨p, hp, rfl⟩ := List.mem_map.1 hi
      exact not_key_le_limited (hline p hp) (hcolumn p hp)
    all_goals
      rw [hlimited] at hip
      cases hip
  have hproblems : (problems.map ofProblem ++ [limited (.int line)]).filter isFromParser =
      problems.map ofProblem := by
    rw [List.filter_append, List.filter_eq_self.2 fun i => isFromParser_of_mem,
      List.filter_cons_of_neg (by simp [hlimited]), List.filter_nil, List.append_nil]
  have hothers : (problems.map ofProblem ++ [limited (.int line)]).filter (!isFromParser ·) =
      [limited (.int line)] := by
    rw [List.filter_append, List.filter_eq_nil_iff.2 fun i hi => by simp [isFromParser_of_mem hi],
      List.filter_cons_of_pos (by simp [hlimited]), List.filter_nil, List.nil_append]
  -- The sorted list falls into what is not from the parser and what is, and each part is known.
  rw [← filter_append_filter_of_pairwise (pairwise_sort _) hlast, filter_sort, filter_sort, hproblems,
    hothers, sort_ofProblem hsorted, sort, List.mergeSort_singleton, List.singleton_append]

end Item

end ElementLint
