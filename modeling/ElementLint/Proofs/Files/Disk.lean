import Mathlib.Data.List.Infix
import ElementLint.Files.Disk

/-!
# What a disk remembers

A file that is written is read back under the same path as long as the path goes through directories, which
it does if its parts are names; the files at other places stay as they are; and what is taken away is no
file any more. A path that reaches a file has the place of that file for its real path. To deny a path
hides the file under that path alone, whatever other paths lead to it.
-/

namespace ElementLint

namespace Disk

variable {d : Disk}

/-- Where the parts of a path are read from. -/
def startOf (d : Disk) (path : Text) : List Text := if Path.isAbsolute path then [] else d.current

/-! ## Going through directories -/

/-- The parts are followed to the place that the path is resolved to. -/
theorem eq_foldl_of_walk {place r : List Text} {parts : List Text} (h : d.walk place parts = some r) :
    r = parts.foldl Path.follow place := by
  induction parts generalizing place with
  | nil => exact (Option.some.inj h).symm
  | cons part rest ih =>
    rw [walk] at h
    split at h
    · exact ih h
    · cases h

theorem walk_mono {d' : Disk} (hmono : ∀ p, d.isDirectory p = true → d'.isDirectory p = true)
    {place r : List Text} {parts : List Text} (h : d.walk place parts = some r) :
    d'.walk place parts = some r := by
  induction parts generalizing place with
  | nil => exact h
  | cons part rest ih =>
    rw [walk] at h ⊢
    split at h
    · rename_i hplace
      rw [if_pos (hmono place hplace)]
      exact ih h
    · cases h

theorem isDirectory_iff {p : List Text} :
    d.isDirectory p = true ↔ p <+: d.current ∨ (∃ q ∈ d.directories, p <+: q) ∨
      ∃ f ∈ d.files, p <+: f.1 ∧ p ≠ f.1 := by
  simp [isDirectory, or_assoc]

/-- What reaches a file. -/
theorem lookup_eq_file_iff {path : Text} {bytes : List UInt8} :
    d.lookup path = .file bytes ↔
      path ≠ [] ∧ Path.fault? path = none ∧ path ∉ d.denied ∧
        ∃ place, d.walk (d.startOf path) (Path.parts path) = some place ∧ d.file? place = some bytes := by
  rw [lookup]
  by_cases hbad : path = [] ∨ (Path.fault? path).isSome
  · rw [if_pos hbad]
    refine iff_of_false (by simp) ?_
    rintro ⟨hne, hfault, -⟩
    simp [hne, hfault] at hbad
  · obtain ⟨hne, hfault⟩ := not_or.1 hbad
    rw [if_neg hbad, ← startOf]
    cases hwalk : d.walk (d.startOf path) (Path.parts path) with
    | none => simp
    | some place =>
      dsimp only
      cases hfile : d.file? place with
      | none =>
        dsimp only
        split <;> simp [hfile]
      | some bytes' =>
        have hgood : path ≠ [] ∧ Path.fault? path = none := ⟨hne, by simpa using hfault⟩
        dsimp only
        split
        · rename_i hdenied
          exact iff_of_false (by simp) fun h => h.2.2.1 (by simpa using hdenied)
        · rename_i hdenied
          have hopen : path ∉ d.denied := by simpa using hdenied
          simp [hgood, hopen, hfile]

/-- The real path of a file is made of the place where the file is. -/
theorem realPath_of_lookup {path : Text} {bytes : List UInt8} (h : d.lookup path = .file bytes) :
    d.file? (Path.resolve d.current path) = some bytes ∧
      d.realPath path = .ok (Path.ofParts (Path.resolve d.current path)) := by
  obtain ⟨-, hfault, -, place, hwalk, hfile⟩ := lookup_eq_file_iff.1 h
  constructor
  · rw [Path.resolve, ← startOf, ← eq_foldl_of_walk hwalk]
    exact hfile
  · rw [realPath, hfault]

/-! ## Writing -/

theorem file?_write (path : Text) (bytes : List UInt8) :
    (d.write path bytes).file? (Path.resolve d.current path) = some bytes := by
  have hothers : (d.files.filter (·.1 != Path.resolve d.current path)).find?
      (fun f => f.1 == Path.resolve d.current path) = none := by
    simp [List.find?_eq_none]
  simp only [file?, write, List.find?_append, hothers]
  simp

theorem file?_write_of_ne {path : Text} {bytes : List UInt8} {place : List Text}
    (h : place ≠ Path.resolve d.current path) : (d.write path bytes).file? place = d.file? place := by
  have hnew : ¬Path.resolve d.current path = place := fun heq => h heq.symm
  have hothers : (d.files.filter (·.1 != Path.resolve d.current path)).find? (fun f => f.1 == place) =
      d.files.find? fun f => f.1 == place := by
    rw [List.find?_filter]
    congr 1
    funext f
    by_cases hf : f.1 = place <;> simp [hf, h]
  simp only [file?, write, List.find?_append, hothers]
  simp [hnew]

/-- A directory stays one: the file that is written has the places above it in common with the one that it
takes the place of. -/
theorem isDirectory_write (path : Text) (bytes : List UInt8) {p : List Text} (h : d.isDirectory p = true) :
    (d.write path bytes).isDirectory p = true := by
  rw [isDirectory_iff] at h ⊢
  rcases h with h | ⟨q, hq, h⟩ | ⟨f, hf, h⟩
  · exact .inl h
  · exact .inr (.inl ⟨q, List.mem_append_left _ hq, h⟩)
  · refine .inr (.inr ?_)
    by_cases hplace : f.1 = Path.resolve d.current path
    · refine ⟨(Path.resolve d.current path, bytes), List.mem_append_right _ (List.mem_singleton_self _), ?_⟩
      rwa [hplace] at h
    · exact ⟨f, List.mem_append_left _ (List.mem_filter.2 ⟨hf, by simpa using hplace⟩), h⟩

/-- The files at other places stay as they are. -/
theorem lookup_write_of_ne {path other : Text} {bytes bytes' : List UInt8}
    (h : d.lookup other = .file bytes') (hne : Path.resolve d.current other ≠ Path.resolve d.current path) :
    (d.write path bytes).lookup other = .file bytes' := by
  obtain ⟨hpath, hfault, hdenied, place, hwalk, hfile⟩ := lookup_eq_file_iff.1 h
  refine lookup_eq_file_iff.2 ⟨hpath, hfault, hdenied, place, ?_, ?_⟩
  · exact walk_mono (fun p => isDirectory_write path bytes) hwalk
  · rw [file?_write_of_ne, hfile]
    rwa [eq_foldl_of_walk hwalk, startOf, ← Path.resolve]

/-- A part that leads one level down. -/
def IsName (part : Text) : Prop := part ≠ [] ∧ part ≠ "." ∧ part ≠ ".."

theorem follow_of_isName {place : List Text} {part : Text} (h : IsName part) :
    Path.follow place part = place ++ [part] := by
  obtain ⟨hempty, hpoint, hpoints⟩ := h
  rw [Path.follow, if_neg (not_or.2 ⟨hempty, hpoint⟩), if_neg hpoints]

theorem foldl_follow_of_isName {parts : List Text} (h : ∀ part ∈ parts, IsName part) (place : List Text) :
    parts.foldl Path.follow place = place ++ parts := by
  induction parts generalizing place with
  | nil => rw [List.append_nil, List.foldl_nil]
  | cons part rest ih =>
    obtain ⟨hpart, hrest⟩ := List.forall_mem_cons.1 h
    rw [List.foldl_cons, follow_of_isName hpart, ih hrest, List.append_assoc, List.singleton_append]

/-- Names are followed as long as there are directories on the way. -/
theorem walk_of_isName {parts : List Text} (h : ∀ part ∈ parts, IsName part) {place : List Text}
    (hdirs : ∀ k, k < parts.length → d.isDirectory (place ++ parts.take k) = true) :
    d.walk place parts = some (place ++ parts) := by
  induction parts generalizing place with
  | nil => rw [List.append_nil, walk]
  | cons part rest ih =>
    obtain ⟨hpart, hrest⟩ := List.forall_mem_cons.1 h
    have hplace : d.isDirectory place = true := by simpa using hdirs 0 (Nat.zero_lt_succ _)
    rw [walk, if_pos hplace, follow_of_isName hpart, ih hrest, List.append_assoc, List.singleton_append]
    intro k hk
    simpa using hdirs (k + 1) (Nat.succ_lt_succ hk)

/-- A file that is written under a path made of names is read back. -/
theorem lookup_write {path : Text} (bytes : List UInt8) (hnames : ∀ part ∈ Path.parts path, IsName part)
    (hrelative : Path.isAbsolute path = false) (hfault : Path.fault? path = none)
    (hdenied : path ∉ d.denied) : (d.write path bytes).lookup path = .file bytes := by
  have hpath : path ≠ [] := by
    rintro rfl
    exact (hnames [] (List.mem_singleton_self [])).1 rfl
  have hplace : Path.resolve d.current path = d.current ++ Path.parts path := by
    rw [Path.resolve, hrelative]
    exact foldl_follow_of_isName hnames d.current
  refine lookup_eq_file_iff.2 ⟨hpath, hfault, hdenied, d.current ++ Path.parts path, ?_, ?_⟩
  · rw [startOf, hrelative]
    apply walk_of_isName hnames
    intro k hk
    -- The directory of the file is made, and those above it with it.
    have hne : Path.parts path ≠ [] := List.ne_nil_of_length_pos (Nat.zero_lt_of_lt hk)
    have hmade : d.current ++ (Path.parts path).dropLast ∈ (d.write path bytes).directories := by
      rw [← List.dropLast_append_of_ne_nil hne, ← hplace]
      exact List.mem_append_right _ (List.mem_singleton_self _)
    refine isDirectory_iff.2 (.inr (.inl ⟨_, hmade, ?_⟩))
    rw [List.dropLast_eq_take]
    exact (List.prefix_append_right_inj _).2 (List.take_prefix_take_left (by omega))
  · rw [← hplace, file?_write]

theorem isDirectory_makeDirectory (path : Text) :
    (d.makeDirectory path).isDirectory (Path.resolve d.current path) = true :=
  isDirectory_iff.2 (.inr (.inl ⟨_, List.mem_append_right _ (List.mem_singleton_self _), List.prefix_rfl⟩))

/-! ## Denying -/

theorem mem_denied_setDenied {path other : Text} :
    other ∈ (d.setDenied path true).denied ↔ other ∈ d.denied ∨ other = path := by
  simp only [setDenied, ↓reduceIte, List.mem_append, List.mem_filter, bne_iff_ne, List.mem_singleton]
  tauto

/-- A denied path reaches no file, and every other path reaches what it did. -/
theorem lookup_setDenied {path other : Text} {bytes : List UInt8} :
    (d.setDenied path true).lookup other = .file bytes ↔ other ≠ path ∧ d.lookup other = .file bytes := by
  have hwalk (place parts : List Text) : (d.setDenied path true).walk place parts = d.walk place parts := by
    induction parts generalizing place with
    | nil => rw [walk, walk]
    | cons part rest ih =>
      rw [walk, walk, ih]
      rfl
  rw [lookup_eq_file_iff, lookup_eq_file_iff, mem_denied_setDenied, not_or, hwalk]
  constructor
  · rintro ⟨hpath, hfault, ⟨hopen, hne⟩, hfound⟩
    exact ⟨hne, hpath, hfault, hopen, hfound⟩
  · rintro ⟨hne, hpath, hfault, hopen, hfound⟩
    exact ⟨hpath, hfault, ⟨hopen, hne⟩, hfound⟩

/-! ## Taking away -/

/-- What is taken away is no file any more. -/
theorem lookup_remove_ne_file (path : Text) (bytes : List UInt8) :
    (d.remove path).lookup path ≠ .file bytes := by
  intro h
  obtain ⟨hfile, -⟩ := realPath_of_lookup h
  obtain ⟨f, hf, -⟩ := Option.map_eq_some_iff.1 hfile
  have hkept := List.of_mem_filter (List.mem_of_find?_eq_some hf)
  have hplace : f.1 = Path.resolve d.current path := by simpa [remove] using List.find?_some hf
  have hprefix : (Path.resolve d.current path).isPrefixOf (Path.resolve d.current path) = true :=
    List.isPrefixOf_iff_prefix.2 (List.prefix_refl _)
  rw [hplace, hprefix] at hkept
  cases hkept

end Disk

end ElementLint
