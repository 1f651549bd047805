import Mathlib.Data.List.TakeWhile
import ElementLint.CommandLine.Console
import ElementLint.Proofs.Json.Ascii

/-!
# What a console takes

A run on a console that takes all the texts of the run ends as the run does, and all of them are written. On
any other console the run stops at the first text that is refused, with what came before it written and no
status. Without `--text` all that is printed is ASCII, so that such a run can only be stopped by a console
that refuses ASCII; with `--text` a lone surrogate in the arguments is enough for a console of UTF-8.
-/

namespace ElementLint

namespace Console

/-- The console refuses none of some texts. -/
def Takes (console : Console) (texts : List Text) : Prop := ∀ t ∈ texts, console.refusal? t = none

def TakesAscii (console : Console) : Prop := ∀ t : Text, t.IsAscii → console.refusal? t = none

variable {console : Console}

theorem print_of_takes {texts : List Text} (h : console.Takes texts) :
    console.print texts = (Text.unlines texts, none) := by
  induction texts with
  | nil => rfl
  | cons t rest ih =>
    obtain ⟨ht, hrest⟩ := List.forall_mem_cons.1 h
    simp only [print, ht, ih hrest, Text.unlines, List.flatMap_cons]

/-- A console of UTF-8 refuses exactly the texts with a surrogate. -/
theorem utf8_refusal?_eq_none {t : Text} :
    utf8.refusal? t = none ↔ ∀ c ∈ t, Utf8.isSurrogate c = false := by
  have hdrop : t.dropWhile (!Utf8.isSurrogate ·) = [] ↔ ∀ c ∈ t, Utf8.isSurrogate c = false := by
    simp [List.dropWhile_eq_nil_iff]
  rw [← hdrop]
  unfold utf8 Utf8.refusal?
  dsimp only
  cases t.dropWhile (!Utf8.isSurrogate ·) <;> simp

theorem utf8_takesAscii : utf8.TakesAscii := by
  intro t ht
  refine utf8_refusal?_eq_none.2 fun c hc => ?_
  have hascii := ht c hc
  simp only [Utf8.isSurrogate, Bool.and_eq_false_iff, decide_eq_false_iff_not]
  omega

end Console

namespace CommandLine

variable {console : Console} {reader : Reader} {files : FileSystem} {args : List Text}

/-- On a console that takes what is printed, a run ends as it does by itself. -/
theorem runOn_of_takes (h : console.Takes (run reader files args).prints) :
    (runOn console reader files args).stdout = Text.unlines (run reader files args).prints ∧
      (runOn console reader files args).status = (run reader files args).status.mapError .failure := by
  unfold runOn Outcome.on
  rw [Console.print_of_takes h]
  exact ⟨rfl, rfl⟩

/-- Without `--text` a run prints nothing but ASCII. -/
theorem takes_prints_of_ascii (hconsole : console.TakesAscii) (hjson : Text.ofString "--text" ∉ args) :
    console.Takes (run reader files args).prints := by
  have hnot : args.elem (Text.ofString "--text") = false := by simpa using hjson
  have hwritten (j : Json) : console.Takes [j.write] :=
    List.forall_mem_singleton.2 (hconsole _ (Json.isAscii_write j))
  unfold run
  rw [hnot]
  dsimp only
  split
  · split
    · exact hwritten _
    · exact List.forall_mem_nil _
  · split
    · exact List.forall_mem_nil _
    · exact hwritten _

end CommandLine

end ElementLint
