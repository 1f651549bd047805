import ElementLint.Proofs.Lint.FileResult
import ElementLint.Proofs.Order.Insertion
import ElementLint.Report.Given

/-!
# Items that are given back

The items of a report can be read again from their JSON. What is then made of them is what was made of them
before: an item is the same and is written out the same way, the summary counts the same, and the order is
the order of a report. Items whose fields could not be counted or compared are not among those that the
linter makes, which are all `Regular`.
-/

namespace ElementLint

/-- An item with texts for its severity and its source, and with a text or nothing for its rule. -/
structure Item.Regular (i : Item) : Prop where
  severity : ∃ t, i.severity = some (.text t)
  source : ∃ t, i.source = some (.text t)
  rule : Summary.Named i

namespace Item

theorem regular_ofProblem (p : Problem) : (ofProblem p).Regular := ⟨⟨_, rfl⟩, ⟨_, rfl⟩, .inl rfl⟩

theorem regular_limited (line : Json) : (limited line).Regular := ⟨⟨_, rfl⟩, ⟨_, rfl⟩, .inl rfl⟩

theorem regular_failure (message : Text) : (failure message).Regular := ⟨⟨_, rfl⟩, ⟨_, rfl⟩, .inl rfl⟩

theorem regular_ofDiagnostic {d : Diagnostic} (h : Summary.Named (ofDiagnostic d)) :
    (ofDiagnostic d).Regular := ⟨⟨_, rfl⟩, ⟨_, rfl⟩, h⟩

end Item

namespace Given

/-! ## One item -/

theorem get?_filterMap_cons (n : String) (value : Option Json) (rest : List (String × Option Json))
    (name : Text) :
    Fields.get? (((n, value) :: rest).filterMap fun f => f.2.map fun j => (Text.ofString f.1, j)) name =
      let others := Fields.get? (rest.filterMap fun f => f.2.map fun j => (Text.ofString f.1, j)) name
      if Text.ofString n = name then value.or others else others := by
  cases value with
  | none => simp
  | some j => simp [Fields.get?_cons]

/-- Reading an item from what it is written as gives it back. -/
theorem item_toJson (i : Item) : item i.toJson = .ok i := by
  have hget (name : Text) : i.toJson.get? name = Fields.get? (
      [("severity", i.severity), ("source", i.source), ("rule", i.rule), ("message_id", i.messageId),
        ("line", i.line), ("column", i.column), ("message", i.message)].filterMap
        fun f => f.2.map fun j => (Text.ofString f.1, j)) name := rfl
  have hitem : item i.toJson = .ok {
      severity := i.toJson.get? "severity", source := i.toJson.get? "source"
      rule := i.toJson.get? "rule", messageId := i.toJson.get? "message_id"
      line := i.toJson.get? "line", column := i.toJson.get? "column"
      message := i.toJson.get? "message" } := rfl
  rw [hitem]
  simp only [hget, get?_filterMap_cons, List.filterMap_nil, Fields.get?_nil]
  simp +decide only [if_true, if_false, Option.or_none]

theorem format_toJson (file : Text) (i : Item) :
    format file i.toJson = (i.format file).mapError .missing := by
  rw [format, item_toJson]
  rfl

/-! ## Counting -/

theorem countable_of_text {value : Option Json} {t : Text} (h : value = some (.text t)) :
    countable value = .ok () := by
  rw [h]
  rfl

theorem countable_ruleOf? {i : Item} (h : Summary.Named i) : countable i.ruleOf? = .ok () := by
  rcases h with hnull | ⟨rule, hne, hrule⟩
  · rw [Item.ruleOf?_of_null hnull]
    rfl
  · exact countable_of_text (Item.ruleOf?_of_text hrule hne)

theorem count_toJson (s : Summary) {i : Item} (h : i.Regular) : count s i.toJson = .ok (s.count i) := by
  obtain ⟨severity, hseverity⟩ := h.severity
  rw [count, item_toJson]
  simp only [Attempt.ok_bind, countable_of_text hseverity, countable_ruleOf? h.rule]
  rfl

/-- The summary of items that are given back is their summary. -/
theorem summary_toJson {items : List Item} (h : ∀ i ∈ items, i.Regular) :
    summary (items.map Item.toJson) = .ok (Summary.ofItems items) := by
  have hall (s : Summary) : (items.map Item.toJson).foldlM count s = .ok (items.foldl Summary.count s) := by
    induction items generalizing s with
    | nil => rfl
    | cons i items ih =>
      obtain ⟨hi, hitems⟩ := List.forall_mem_cons.1 h
      rw [List.map_cons, List.foldlM_cons, count_toJson s hi, Attempt.ok_bind, ih hitems, List.foldl_cons]
  exact hall {}

end Given

/-! ## Putting in order -/

namespace Place

theorem unit_pos : 0 < (unit : Int) := by
  unfold unit
  -- The power is too large to be worked out.
  generalize 1074 = n
  exact Int.natCast_pos.2 (Nat.pow_pos (Nat.zero_lt_succ 1))

theorem ofInt_inj {a b : Int} : ofInt a = ofInt b ↔ a = b := by
  refine ⟨fun h => ?_, fun h => h ▸ rfl⟩
  exact Int.eq_of_mul_eq_mul_right unit_pos.ne' (congrArg count h)

theorem before_ofInt (a b : Int) : (ofInt a).before (ofInt b) = decide (a < b) := by
  unfold before ofInt
  have hunit := unit_pos
  generalize (unit : Int) = unit at hunit ⊢
  simp [Int.mul_lt_mul_right hunit]

end Place

namespace Json

theorem alike_int (a b : Int) : alike (.int a) (.int b) = decide (a = b) := by
  have halike : alike (.int a) (.int b) = (Place.ofInt a == Place.ofInt b) := by
    simp only [alike, comparePlaces, place?]
  rw [halike, Bool.beq_eq_decide_eq, decide_eq_decide.2 Place.ofInt_inj]

theorem less_int (a b : Int) : less (.int a) (.int b) = .ok (decide (a < b)) := by
  have hless : less (.int a) (.int b) = .ok ((Place.ofInt a).before (Place.ofInt b)) := by
    simp only [less, comparePlaces, place?, isNumber, Bool.and_self, ↓reduceIte]
  rw [hless, Place.before_ofInt]

end Json

namespace Given

/-- The values by which an item with a key is compared. -/
def valuesOf (k : Item.Key) : List Json := [.int k.line, .int k.column, .int k.rank, .text k.source]

/-- The key that some values stand for. -/
def keyOf : List Json → Item.Key
  | [.int line, .int column, .int rank, .text source] => ⟨line, column, rank.toNat, source⟩
  | _ => ⟨0, 0, 0, []⟩

theorem lessLists_valuesOf (a b : Item.Key) :
    Json.lessLists (valuesOf a) (valuesOf b) = .ok (!b.le a) := by
  simp only [valuesOf, Json.lessLists, Json.alike_int, Json.less_int, Json.alike_text, Json.less_text,
    decide_eq_true_eq, beq_iff_eq, Int.natCast_inj, Int.ofNat_lt]
  split_ifs with hline hcolumn hrank hsource
  · simp [Item.Key.le, hline, hcolumn, hrank, hsource, Text.le_refl]
  · simp [Item.Key.le, hline, hcolumn, hrank]
  all_goals
    rw [Except.ok.injEq, Bool.eq_iff_iff, decide_eq_true_iff, Bool.not_eq_true', ← Bool.not_eq_true,
      Item.Key.le_iff]
    omega

theorem key_toJson {i : Item} (h : i.Regular) : key i.toJson = .ok (valuesOf i.key) := by
  obtain ⟨severity, hseverity⟩ := h.severity
  obtain ⟨source, hsource⟩ := h.source
  have hkey : i.key.source = source := by rw [Item.key, hsource]
  rw [key, item_toJson]
  simp only [Attempt.ok_bind, countable_of_text hseverity]
  rw [valuesOf, hkey, hsource]
  rfl

/-- The items with their places, in the order of a report. -/
def placed (items : List Item) : List (Item × Nat) :=
  items.zipIdx.mergeSort fun o o' => o.1.key.le o'.1.key

theorem map_fst_placed (items : List Item) : (placed items).map Prod.fst = Item.sort items := by
  have hsort : (placed items).map Prod.fst =
      (items.zipIdx.map Prod.fst).mergeSort fun i i' => i.key.le i'.key :=
    List.map_mergeSort fun _ _ _ _ => rfl
  rw [hsort, List.zipIdx_map_fst, Item.sort]

theorem getElem?_of_mem_placed {items : List Item} {o : Item × Nat} (h : o ∈ placed items) :
    items[o.2]? = some o.1 :=
  List.mem_zipIdx_iff_getElem?.1 (List.mem_mergeSort.1 h)

/-- What an item with its place is sorted by, with the place. -/
def valued (o : Item × Nat) : List Json × Nat := (valuesOf o.1.key, o.2)

/-- The comparison of values puts strictly first what the order of keys does. -/
theorem decides_valuesOf :
    Insertion.Decides (fun a b : List Json × Nat => Json.lessLists a.1 b.1)
      (fun a b => (keyOf a.1).le (keyOf b.1)) fun a => ∃ k, a.1 = valuesOf k where
  trans _ _ _ := Item.Key.le_trans
  total _ _ := Item.Key.le_total _ _
  less_eq := by
    rintro ⟨_, n⟩ ⟨_, m⟩ ⟨a, rfl⟩ ⟨b, rfl⟩
    exact lessLists_valuesOf a b

theorem sort_valued (items : List Item) :
    Insertion.sort (fun a b => Json.lessLists a.1 b.1) (items.zipIdx.map valued) =
      .ok ((placed items).map valued) := by
  rw [Insertion.sort_eq_mergeSort decides_valuesOf]
  · congr 1
    symm
    apply List.map_mergeSort
    exact fun _ _ _ _ => rfl
  · intro a ha
    obtain ⟨o, -, rfl⟩ := List.mem_map.1 ha
    exact ⟨_, rfl⟩

/-- The places of items that are given back are those at which they stand in the order of a report. -/
theorem order_toJson {items : List Item} (h : ∀ i ∈ items, i.Regular) :
    ∃ places, order (items.map Item.toJson) = .ok places ∧
      places.map (items[·]?) = (Item.sort items).map some := by
  have hkeys : (items.map Item.toJson).mapM key = .ok (items.map fun i => valuesOf i.key) := by
    rw [List.mapM_map]
    exact Attempt.mapM_eq_ok_map fun i hi => key_toJson (h i hi)
  have hzip : (items.map fun i => valuesOf i.key).zipIdx = items.zipIdx.map valued :=
    List.zipIdx_map ..
  refine ⟨(placed items).map Prod.snd, ?_, ?_⟩
  · rw [order, hkeys, Attempt.ok_bind, hzip, sort_valued]
    simp only [Except.mapError, Attempt.ok_bind, List.map_map]
    rfl
  · rw [← map_fst_placed, List.map_map, List.map_map]
    exact List.map_congr_left fun o ho => getElem?_of_mem_placed ho

end Given

/-! ## The items of a result -/

namespace Lint

variable {reader : Reader} {files : FileSystem} {file : Text} {e : Engine} {r : LintResult}

/-- The items of a result: the one of a file that cannot be loaded, or those of a program. -/
theorem items_of_lintFile (hr : (lintFile reader files e file).2 = .ok r) :
    (∃ message, r.items = [Item.failure message]) ∨
      ∃ visits problems, itemsOf e visits problems = .ok r.items := by
  unfold lintFile at hr
  split at hr
  · cases hr
  · split at hr
    · dsimp only at hr
      split at hr
      · cases hr
        exact .inl ⟨_, rfl⟩
      · cases hr
    · dsimp only at hr
      split at hr
      · cases hr
      · rename_i hitems
        cases hr
        exact .inr ⟨_, _, hitems⟩

/-- The items of a program are regular, and in the order of a report. -/
theorem regular_of_itemsOf {s : Settings} (hbuild : s.build = .ok e) {visits : List Visit}
    {problems : List Problem} {items : List Item} (h : itemsOf e visits problems = .ok items) :
    (∀ i ∈ items, i.Regular) ∧ Item.sort items = items := by
  have hsorted (items : List Item) : Item.sort (Item.sort items) = Item.sort items :=
    List.mergeSort_of_pairwise (Item.pairwise_sort items)
  unfold itemsOf at h
  split at h
  · cases h
    refine ⟨fun i hi => ?_, hsorted _⟩
    rcases List.mem_append.1 (List.mem_mergeSort.1 hi) with hi | hi
    · obtain ⟨p, -, rfl⟩ := List.mem_map.1 hi
      exact Item.regular_ofProblem p
    · cases List.mem_singleton.1 hi
      exact Item.regular_limited _
  · split at h
    · cases h
    · rename_i hrun
      cases h
      refine ⟨fun i hi => ?_, hsorted _⟩
      obtain ⟨d, hd, rfl⟩ := List.mem_map.1 (List.mem_mergeSort.1 hi)
      exact Item.regular_ofDiagnostic (named_of_run hbuild hrun d hd)

/-- The items of a result that are given back are counted as in its summary, and they stand in the order in
which they would be put. -/
theorem given_items_of_lintFile {s : Settings} (hbuild : s.build = .ok e)
    (hr : (lintFile reader files e file).2 = .ok r) :
    Given.summary (r.items.map Item.toJson) = .ok r.summary ∧
      ∃ places, Given.order (r.items.map Item.toJson) = .ok places ∧
        places.map (r.items[·]?) = r.items.map some := by
  obtain ⟨hregular, hsorted⟩ : (∀ i ∈ r.items, i.Regular) ∧ Item.sort r.items = r.items := by
    rcases items_of_lintFile hr with ⟨message, hitems⟩ | ⟨visits, problems, hitems⟩
    · rw [hitems]
      exact ⟨List.forall_mem_singleton.2 (Item.regular_failure message), List.mergeSort_singleton _⟩
    · exact regular_of_itemsOf hbuild hitems
  obtain ⟨places, horder, hplaces⟩ := Given.order_toJson hregular
  exact ⟨Given.summary_toJson hregular, places, horder, hplaces.trans (by rw [hsorted])⟩

end Lint

end ElementLint
