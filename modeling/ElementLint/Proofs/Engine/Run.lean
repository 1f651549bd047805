import Mathlib.Data.List.Nodup
import ElementLint.Engine.Settings
import ElementLint.Proofs.Attempt

/-!
# Runs of engines

A rule may stop a run: its options may give no check, the check may fail at a node, and it may report
a message that the rule does not have. An entry is *steady* if none of this happens. Then a run
succeeds, and `run_eq_ok` says what it gives: at each node in turn what each rule in turn finds there,
sorted by position. The rules of the registry are steady under all options, and the entries of an engine
that was built from settings are rules of the registry, each at most once.
-/

namespace ElementLint

namespace Entry

/-- What an entry reports at a node, if its check can be made and succeeds. -/
def reports (x : Entry) (n : Node) : List Report :=
  match x.rule.check x.options with
  | .error _ => []
  | .ok check => ((check n).toOption).getD []

def diagnostic (x : Entry) (r : Report) : Diagnostic where
  rule := x.rule.id
  messageId := r.messageId
  message := (x.rule.messages.get? r.messageId).getD .null
  severity := x.severity
  position := r.position

def found (x : Entry) (n : Node) : List Diagnostic := (x.reports n).map x.diagnostic

/-- An entry whose rule never stops a run. -/
def Steady (x : Entry) : Prop :=
  ∃ check : Check, x.rule.check x.options = .ok check ∧
    ∀ n, ∃ rs, check n = .ok rs ∧ ∀ r ∈ rs, ∃ message, x.rule.messages.get? r.messageId = some message

end Entry

namespace Engine

open Attempt

theorem diagnose_eq_ok {x : Entry} {r : Report} {message : Json}
    (h : x.rule.messages.get? r.messageId = some message) : diagnose x r = .ok (x.diagnostic r) := by
  simp [diagnose, Entry.diagnostic, h]

theorem findAt_eq_ok {x : Entry} {check : Check} (hx : x.Steady)
    (hcheck : x.rule.check x.options = .ok check) (n : Node) :
    findAt n (x, check) = .ok (x.found n) := by
  obtain ⟨check', hcheck', hall⟩ := hx
  rw [hcheck] at hcheck'
  cases hcheck'
  obtain ⟨rs, hrs, hmessages⟩ := hall n
  have hreports : x.reports n = rs := by
    simp [Entry.reports, hcheck, hrs, Except.toOption]
  have hall : rs.mapM (diagnose x) = .ok (rs.map x.diagnostic) := by
    apply mapM_eq_ok_map
    intro r hr
    obtain ⟨message, hmessage⟩ := hmessages r hr
    exact diagnose_eq_ok hmessage
  rw [findAt, Entry.found, hreports]
  exact bind_eq_ok_iff.2 ⟨rs, hrs, hall⟩

/-- A run of steady entries: at each node in turn what each of them in turn finds there. -/
theorem run_eq_ok {e : Engine} (h : ∀ x ∈ e.active, x.Steady) (nodes : List Node) :
    e.run nodes =
      .ok ((nodes.flatMap fun n => e.active.flatMap fun x => x.found n).mergeSort Diagnostic.le) := by
  obtain ⟨checks, hchecks⟩ : ∃ checks, e.active.mapM checkOf = .ok checks := by
    have hsome : ∀ x ∈ e.active, ∃ c, checkOf x = .ok c := by
      intro x hx
      obtain ⟨check, hcheck, -⟩ := h x hx
      exact ⟨(x, check), map_eq_ok_iff.2 ⟨check, hcheck, rfl⟩⟩
    choose! f hf using hsome
    exact ⟨e.active.map f, mapM_eq_ok_map hf⟩
  have hfinds : ∀ n, checks.mapM (findAt n) = .ok (e.active.map fun x => x.found n) := by
    intro n
    rw [mapM_eq_ok_iff, List.forall₂_map_right_iff]
    apply List.Forall₂.flip
    have hmade := (List.forall₂_and_left _ _).2 ⟨h, mapM_eq_ok_iff.1 hchecks⟩
    apply hmade.imp
    rintro x c ⟨hx, hc⟩
    obtain ⟨check, hcheck, rfl⟩ := map_eq_ok_iff.1 hc
    exact findAt_eq_ok hx hcheck n
  have hvisits : nodes.mapM (visit checks) =
      .ok (nodes.map fun n => e.active.flatMap fun x => x.found n) := by
    apply mapM_eq_ok_map
    intro n _
    rw [visit, hfinds n, List.flatMap]
    rfl
  rw [run]
  refine bind_eq_ok_iff.2 ⟨checks, hchecks, bind_eq_ok_iff.2 ⟨_, hvisits, ?_⟩⟩
  rw [List.flatMap]
  rfl

/-- A run of one steady entry that is not off. -/
theorem run_singleton {x : Entry} (h : x.Steady) (hseverity : x.severity ≠ .off) (nodes : List Node) :
    Engine.run ⟨[x]⟩ nodes = .ok ((nodes.flatMap x.found).mergeSort Diagnostic.le) := by
  have hactive : Engine.active ⟨[x]⟩ = [x] := by simp [active, hseverity]
  have hsteady : ∀ y ∈ Engine.active ⟨[x]⟩, y.Steady := by
    rw [hactive]
    exact List.forall_mem_singleton.2 h
  rw [run_eq_ok hsteady, hactive]
  simp only [List.flatMap_cons, List.flatMap_nil, List.append_nil]

end Engine

/-! ## Rules of the registry -/

theorem GuardSuperCall.steady {x : Entry} (h : x.rule = GuardSuperCall.rule) : x.Steady := by
  refine ⟨GuardSuperCall.check, by rw [h]; rfl, ?_⟩
  intro n
  have hmessages (rs : List Report) (hrs : ∀ r ∈ rs, r.messageId = GuardSuperCall.messageId) :
      ∀ r ∈ rs, ∃ message, x.rule.messages.get? r.messageId = some message := by
    intro r hr
    rw [hrs r hr, h]
    exact ⟨_, rfl⟩
  rw [GuardSuperCall.check.eq_def]
  split
  · refine ⟨_, rfl, hmessages _ ?_⟩
    intro r hr
    split at hr
    · obtain ⟨call, -, rfl⟩ := List.mem_map.1 hr
      rfl
    · cases hr
  · exact ⟨[], rfl, by simp⟩

theorem InvalidElementName.steady {x : Entry} (h : x.rule = InvalidElementName.rule) : x.Steady := by
  refine ⟨InvalidElementName.check validName x.options, by rw [h]; rfl, ?_⟩
  intro n
  rw [InvalidElementName.check]
  split
  · exact ⟨[], rfl, by simp⟩
  · refine ⟨_, rfl, ?_⟩
    intro r hr
    split at hr
    · cases List.mem_singleton.1 hr
      rw [h]
      exact ⟨_, rfl⟩
    · cases hr

/-- No rule of the registry stops a run, whatever its options. -/
theorem steady_of_mem_registry {x : Entry} {name : Text} (h : (name, x.rule) ∈ registry) :
    x.Steady := by
  simp only [registry, List.mem_cons, List.not_mem_nil, or_false, Prod.mk.injEq] at h
  rcases h with ⟨-, h⟩ | ⟨-, h⟩
  · exact InvalidElementName.steady h
  · exact GuardSuperCall.steady h

/-- A rule of the registry stands under its id. -/
theorem id_of_mem_registry {name : Text} {rule : Rule} (h : (name, rule) ∈ registry) :
    rule.id = .text name := by
  simp only [registry, List.mem_cons, List.not_mem_nil, or_false, Prod.mk.injEq] at h
  rcases h with ⟨rfl, rfl⟩ | ⟨rfl, rfl⟩
  · rfl
  · rfl

theorem nodup_registry : (registry.map Prod.fst).Nodup := by
  decide +kernel

namespace Settings

open Attempt

theorem selected_sublist {enabled : Json} {rules : List (Text × Rule)}
    (h : selected enabled = .ok rules) : rules.Sublist registry := by
  obtain ⟨values, _, h⟩ := bind_eq_ok_iff.1 h
  obtain ⟨_, _, h⟩ := bind_eq_ok_iff.1 h
  cases h
  split
  · exact List.Sublist.refl _
  · exact List.filter_sublist

theorem rule_of_accept {r : Request} {x : Entry} (h : Engine.accept r = .ok x) : x.rule = r.rule := by
  unfold Engine.accept at h
  repeat' split at h
  all_goals cases h
  rfl

theorem rule_of_request {s : Settings} {r : Text × Rule} {q : Request} (h : s.request r = .ok q) :
    q.rule = r.2 := by
  obtain ⟨_, _, h⟩ := bind_eq_ok_iff.1 h
  obtain ⟨_, _, h⟩ := bind_eq_ok_iff.1 h
  cases h
  rfl

/-- The entries of an engine that settings describe are rules of the registry, in its order. -/
theorem exists_sublist_of_build {s : Settings} {e : Engine} (h : s.build = .ok e) :
    ∃ rules : List (Text × Rule), rules.Sublist registry ∧ e.entries.map Entry.rule = rules.map Prod.snd := by
  obtain ⟨_, _, h⟩ := bind_eq_ok_iff.1 h
  obtain ⟨_, _, h⟩ := bind_eq_ok_iff.1 h
  obtain ⟨_, _, h⟩ := bind_eq_ok_iff.1 h
  obtain ⟨rules, hrules, h⟩ := bind_eq_ok_iff.1 h
  obtain ⟨requests, hrequests, h⟩ := bind_eq_ok_iff.1 h
  obtain ⟨entries, hentries, rfl⟩ := map_eq_ok_iff.1 h
  refine ⟨rules, selected_sublist hrules, ?_⟩
  calc entries.map Entry.rule
      = requests.map Request.rule := map_eq_map_of_mapM hentries fun _ _ => rule_of_accept
    _ = rules.map Prod.snd := map_eq_map_of_mapM hrequests fun _ _ => rule_of_request

theorem mem_registry_of_build {s : Settings} {e : Engine} (h : s.build = .ok e) {x : Entry}
    (hx : x ∈ e.entries) : ∃ name, (name, x.rule) ∈ registry := by
  obtain ⟨rules, hsub, heq⟩ := exists_sublist_of_build h
  have hmem : x.rule ∈ rules.map Prod.snd := heq ▸ List.mem_map_of_mem hx
  obtain ⟨⟨name, rule⟩, hrule, hr⟩ := List.mem_map.1 hmem
  exact ⟨name, hsub.subset (hr ▸ hrule)⟩

/-- An engine that settings describe has no two entries with the same id. -/
theorem nodup_ids_of_build {s : Settings} {e : Engine} (h : s.build = .ok e) :
    (e.entries.map fun x => x.rule.id).Nodup := by
  obtain ⟨rules, hsub, heq⟩ := exists_sublist_of_build h
  have hids : (e.entries.map fun x => x.rule.id) = (rules.map Prod.fst).map Json.text := by
    calc (e.entries.map fun x => x.rule.id)
        = (e.entries.map Entry.rule).map Rule.id := by rw [List.map_map]; rfl
      _ = rules.map fun r => r.2.id := by rw [heq, List.map_map]; rfl
      _ = rules.map fun r => Json.text r.1 :=
          List.map_congr_left fun r hr => id_of_mem_registry (hsub.subset hr)
      _ = (rules.map Prod.fst).map Json.text := by rw [List.map_map]; rfl
  rw [hids]
  exact List.Nodup.map (fun _ _ hab => Json.text.inj hab) ((hsub.map Prod.fst).nodup nodup_registry)

theorem steady_of_build {s : Settings} {e : Engine} (h : s.build = .ok e) :
    ∀ x ∈ e.active, x.Steady := by
  intro x hx
  obtain ⟨name, hname⟩ := mem_registry_of_build h (List.mem_of_mem_filter hx)
  exact steady_of_mem_registry hname

end Settings

end ElementLint
