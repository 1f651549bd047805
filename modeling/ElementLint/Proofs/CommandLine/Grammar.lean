import ElementLint.Proofs.CommandLine.Assignment
import ElementLint.Proofs.CommandLine.Scan
import Mathlib.Data.Option.Basic

/-!
# The grammar of the command line

A command line is a list of flags, of settings with their values and of files, in any order, written one
after the other. The program finds them in several passes, each of which takes out one flag or one
setting and leaves the rest for the next. `takeFlag_words` and `takeValues_words` say that a pass takes
out exactly its own arguments, so that what it leaves is again a command line; `parse_words` puts the
passes together.

`parse_words_iff` is the meaning of a command line: when it is accepted and what it then asks for.
-/

namespace ElementLint

namespace Arguments

open Attempt

/-- A word that stands for itself. -/
inductive Flag where
  | text
  | debug
  | loose
deriving DecidableEq

/-- A word that is followed by a value. -/
inductive Setting where
  | rules
  | ruleOption
  | severity
deriving DecidableEq

def Flag.word : Flag → Text
  | .text => "--text"
  | .debug => "--debug"
  | .loose => "--loose"

def Setting.word : Setting → Text
  | .rules => "--rules"
  | .ruleOption => "--rule-option"
  | .severity => "--severity"

def reserved : List Text :=
  [Flag.text, .debug, .loose].map Flag.word ++ [Setting.rules, .ruleOption, .severity].map Setting.word

/-- One argument of a command line. A value may look like a flag or a file, as long as it is none of the
reserved words. -/
inductive Argument where
  | flag (f : Flag)
  | setting (o : Setting) (value : Text) (unreserved : value ∉ reserved)
  | file (name : Text) (plain : isFlag name = false)
deriving DecidableEq

theorem Flag.word_mem_reserved (f : Flag) : f.word ∈ reserved := by
  cases f <;> decide

theorem Setting.word_mem_reserved (o : Setting) : o.word ∈ reserved := by
  cases o <;> decide

theorem isFlag_of_mem_reserved {t : Text} (h : t ∈ reserved) : isFlag t = true :=
  (by decide : ∀ t ∈ reserved, isFlag t = true) t h

theorem Flag.word_inj {f g : Flag} : f.word = g.word ↔ f = g := by
  cases f <;> cases g <;> decide

theorem Setting.word_inj {o p : Setting} : o.word = p.word ↔ o = p := by
  cases o <;> cases p <;> decide

theorem Flag.word_ne_word (f : Flag) (o : Setting) : f.word ≠ o.word := by
  cases f <;> cases o <;> decide

theorem ne_of_plain {name word : Text} (h : isFlag name = false) (hword : word ∈ reserved) :
    name ≠ word := by
  rintro rfl
  rw [isFlag_of_mem_reserved hword] at h
  cases h

namespace Argument

def words : Argument → List Text
  | flag f => [f.word]
  | setting o value _ => [o.word, value]
  | file name _ => [name]

/-- The value that an argument gives to a setting. -/
def valueOf? (o : Setting) : Argument → Option Text
  | setting o' value _ => if o' = o then some value else none
  | _ => none

def file? : Argument → Option Text
  | file name _ => some name
  | _ => none

def isSetting (o : Setting) : Argument → Bool
  | setting o' _ _ => o' = o
  | _ => false

@[simp] theorem isSetting_setting (o o' : Setting) (value : Text) (h : value ∉ reserved) :
    (setting o' value h).isSetting o = decide (o' = o) := rfl

end Argument

def words (line : List Argument) : List Text :=
  line.flatMap Argument.words

/-- The values that a command line gives to a setting, in order. -/
def valuesOf (o : Setting) (line : List Argument) : List Text :=
  line.filterMap (Argument.valueOf? o)

def filesOf (line : List Argument) : List Text :=
  line.filterMap Argument.file?

theorem words_cons (a : Argument) (line : List Argument) :
    words (a :: line) = a.words ++ words line := List.flatMap_cons

section

variable (line : List Argument)

theorem words_flag (f : Flag) : words (.flag f :: line) = f.word :: words line := rfl

theorem words_setting (o : Setting) (value : Text) (h : value ∉ reserved) :
    words (.setting o value h :: line) = o.word :: value :: words line := rfl

theorem words_file (name : Text) (h : isFlag name = false) :
    words (.file name h :: line) = name :: words line := rfl

end

section Pass

variable (line : List Argument)

theorem takeFlag_append (flag : Text) (args args' : List Text) :
    takeFlag flag (args ++ args') =
      ((takeFlag flag args).1 || (takeFlag flag args').1,
        (takeFlag flag args).2 ++ (takeFlag flag args').2) := by
  simp [takeFlag]

theorem takeFlag_of_notMem {flag : Text} {args : List Text} (h : flag ∉ args) :
    takeFlag flag args = (false, args) := by
  rw [takeFlag, List.elem_eq_mem, decide_eq_false h, List.filter_eq_self.2]
  exact fun arg harg => bne_iff_ne.2 (ne_of_mem_of_not_mem harg h)

/-- An argument is the flag, or the flag is not in it. -/
theorem takeFlag_argument (f : Flag) (a : Argument) :
    takeFlag f.word a.words =
      (decide (a = .flag f), if a = .flag f then [] else a.words) := by
  by_cases ha : a = .flag f
  · subst ha
    simp [takeFlag, Argument.words]
  · rw [if_neg ha, decide_eq_false ha]
    refine takeFlag_of_notMem ?_
    cases a with
    | flag g => simpa [Argument.words, Flag.word_inj, eq_comm] using ha
    | setting o value h =>
      have hvalue : f.word ≠ value := fun e => h (e ▸ f.word_mem_reserved)
      simp [Argument.words, f.word_ne_word o, hvalue]
    | file name h =>
      simpa [Argument.words] using (ne_of_plain h f.word_mem_reserved).symm

/-- To take out a flag is to leave out its arguments. -/
theorem takeFlag_words (f : Flag) :
    takeFlag f.word (words line) =
      (decide (.flag f ∈ line), words (line.filter (· ≠ .flag f))) := by
  induction line with
  | nil => rfl
  | cons a line ih =>
    rw [words_cons, takeFlag_append, takeFlag_argument, ih, List.filter_cons]
    by_cases h : a = .flag f
    · simp [h]
    · simp [h, Ne.symm h, words_cons]

/-- To take out a setting is to leave out its arguments. -/
theorem takeValues_words (o : Setting) :
    takeValues o.word (words line) =
      .ok (valuesOf o line, words (line.filter (!·.isSetting o))) := by
  induction line with
  | nil => exact takeValues_nil o.word
  | cons a line ih =>
    cases a with
    | flag f =>
      rw [words_flag, takeValues_cons_of_ne (f.word_ne_word o), ih]
      rfl
    | setting p value h =>
      rw [words_setting]
      by_cases hp : p = o
      · subst hp
        rw [takeValues_cons_self, ih]
        simp [Except.map, valuesOf, Argument.valueOf?, Argument.isSetting]
      · -- The value is no reserved word either, so both words stay, next to each other.
        have hvalue : value ≠ o.word := fun e => h (e ▸ o.word_mem_reserved)
        rw [takeValues_cons_of_ne (mt Setting.word_inj.1 hp), takeValues_cons_of_ne hvalue, ih]
        simp [Except.map, valuesOf, Argument.valueOf?, Argument.isSetting, hp, words_setting]
    | file name h =>
      rw [words_file, takeValues_cons_of_ne (ne_of_plain h o.word_mem_reserved), ih]
      rfl

/-- What a pass takes out has no value for another setting. -/
theorem valuesOf_filter {o : Setting} {p : Argument → Bool}
    (h : ∀ value unreserved, p (.setting o value unreserved) = true) :
    valuesOf o (line.filter p) = valuesOf o line := by
  rw [valuesOf, List.filterMap_filter]
  refine List.filterMap_congr fun a _ => ?_
  cases a with
  | setting o' value hvalue =>
    by_cases ho : o' = o
    · subst ho
      simp [h]
    · simp [Argument.valueOf?, ho]
  | flag f => simp [Argument.valueOf?]
  | file name hname => simp [Argument.valueOf?]

/-- When all flags and settings are taken out the files are left. -/
theorem words_leftover :
    words ((((((line.filter (· ≠ .flag .text)).filter (· ≠ .flag .debug)).filter
      (· ≠ .flag .loose)).filter (!·.isSetting .rules)).filter (!·.isSetting .ruleOption)).filter
        (!·.isSetting .severity)) = filesOf line := by
  simp only [List.filter_filter]
  induction line with
  | nil => rfl
  | cons a line ih =>
    cases a with
    | flag f => cases f <;> exact ih
    | setting o value h => cases o <;> exact ih
    | file name h => exact congrArg (name :: ·) ih

end Pass

theorem isFlag_of_mem_filesOf {line : List Argument} {name : Text} (h : name ∈ filesOf line) :
    isFlag name = false := by
  obtain ⟨a, -, ha⟩ := List.mem_filterMap.1 h
  cases a with
  | file name' hname =>
    cases ha
    exact hname
  | _ => cases ha

/-- All passes together: nothing that one of them reads depends on where in the command line the
arguments of the others stand. -/
theorem parse_words (line : List Argument) :
    parse (words line) = (do
      let options ← (valuesOf .ruleOption line).foldlM putOptions
        (if .flag .loose ∈ line then looseOptions else [])
      let severities ← (valuesOf .severity line).foldlM putSeverity []
      if filesOf line = [] then throw .noFiles
      else return {
        debug := decide (.flag .debug ∈ line)
        enabled := (valuesOf .rules line).getLast?.map splitNames
        options, severities
        files := filesOf line }) := by
  have hfiles : (filesOf line).filter isFlag = [] :=
    List.filter_eq_nil_iff.2 fun name hname => by simp [isFlag_of_mem_filesOf hname]
  -- Every pass reads the command line that the passes before it have left.
  have htext := takeFlag_words line .text
  have hdebug := fun line => takeFlag_words line .debug
  have hloose := fun line => takeFlag_words line .loose
  have hrules := fun line => takeValues_words line .rules
  have hoption := fun line => takeValues_words line .ruleOption
  have hseverity := fun line => takeValues_words line .severity
  simp only [Flag.word, Setting.word] at htext hdebug hloose hrules hoption hseverity
  have hok : ∀ {α β : Type} (a : α) (f : α → Except UsageError β), (Except.ok a >>= f) = f a :=
    fun _ _ => rfl
  simp only [parse, htext, hdebug, hloose, hrules, hoption, hseverity, hok, words_leftover, hfiles]
  simp only [valuesOf_filter, Argument.isSetting_setting, ne_eq, reduceCtorEq, not_false_eq_true,
    decide_true, implies_true, List.mem_filter, and_true, decide_false, Bool.not_false,
    Argument.flag.injEq, decide_eq_true_eq, List.isEmpty_iff]

/-- When a command line is accepted. -/
structure Acceptable (line : List Argument) : Prop where
  file : filesOf line ≠ []
  options : ∀ raw ∈ valuesOf .ruleOption line,
    ∃ rule value, Assigns raw rule value ∧ ∃ options, Json.read value = .ok options
  severities : ∀ raw ∈ valuesOf .severity line, ∃ rule level, Assigns raw rule level ∧ level ∈ levels

/-- What a command line asks for. The place of a flag does not matter, the last list of rules counts, and
assignments are made in order, so that the last one to a rule counts. -/
structure Asks (line : List Argument) (c : Config) : Prop where
  debug : c.debug = true ↔ .flag .debug ∈ line
  enabled : Option.Rel ListsNames (valuesOf .rules line).getLast? c.enabled
  options : ∃ assigned, List.Forall₂ GivesOptions (valuesOf .ruleOption line) assigned ∧
    c.options = Fields.puts (if .flag .loose ∈ line then
      [("no-invalid-element-name", .object [("loose", .bool true)])] else []) assigned ∧
    ∀ rule, Fields.get? c.options rule = (Fields.get? assigned.reverse rule).or
      (if .flag .loose ∈ line ∧ rule = Text.ofString "no-invalid-element-name" then
        some (.object [("loose", .bool true)]) else none)
  severities : ∃ assigned, List.Forall₂ GivesSeverity (valuesOf .severity line) assigned ∧
    c.severities = Fields.puts [] assigned ∧
    ∀ rule, Fields.get? c.severities rule = Fields.get? assigned.reverse rule
  files : c.files = filesOf line

/-- What a rule is given in the end: the last assignment to it, or what the flag stands for. -/
theorem get?_puts_loose {line : List Argument} (assigned : Fields Json) (rule : Text) :
    Fields.get? (Fields.puts (if .flag .loose ∈ line then looseOptions else []) assigned) rule =
      (Fields.get? assigned.reverse rule).or
        (if .flag .loose ∈ line ∧ rule = Text.ofString "no-invalid-element-name" then
          some (.object [("loose", .bool true)]) else none) := by
  have hentry : Fields.get? looseOptions rule =
      if rule = Text.ofString "no-invalid-element-name" then some (.object [("loose", .bool true)])
      else none := by
    rw [looseOptions, Fields.get?_cons, Fields.get?_nil]
    simp only [eq_comm]
  rw [Fields.get?_puts]
  by_cases hloose : .flag .loose ∈ line
  · simp only [hloose, if_true, true_and, hentry]
  · simp only [hloose, if_false, false_and, Fields.get?_nil]

theorem listsNames_rel_iff {raw? : Option Text} {names? : Option (List Text)} :
    Option.Rel ListsNames raw? names? ↔ raw?.map splitNames = names? := by
  cases raw? <;> cases names? <;> simp [listsNames_iff]

/-- The arguments are read as a command line with at least one file that asks for what they give. -/
theorem parse_words_eq_ok_iff (line : List Argument) (c : Config) :
    parse (words line) = .ok c ↔ filesOf line ≠ [] ∧ Asks line c := by
  rw [parse_words, bind_eq_ok_iff]
  constructor
  · rintro ⟨options, hoptions, h⟩
    obtain ⟨severities, hseverities, h⟩ := bind_eq_ok_iff.1 h
    split at h
    · cases h
    · rename_i hfile
      cases h
      obtain ⟨assigned, hassigned, hput⟩ := (foldlM_put_eq_ok_iff putOptions_eq_ok_iff).1 hoptions
      obtain ⟨levels, hlevels, rfl⟩ := (foldlM_put_eq_ok_iff putSeverity_eq_ok_iff).1 hseverities
      refine ⟨hfile, ?_, listsNames_rel_iff.2 rfl,
        ⟨assigned, hassigned, hput, fun rule => hput ▸ get?_puts_loose assigned rule⟩,
        ⟨levels, hlevels, rfl, Fields.get?_puts_nil levels⟩, rfl⟩
      exact decide_eq_true_iff
  · rintro ⟨hfile, hdebug, henabled, ⟨assigned, hassigned, hput, -⟩, ⟨levels, hlevels, hputs, -⟩,
      hfiles⟩
    refine ⟨c.options, (foldlM_put_eq_ok_iff putOptions_eq_ok_iff).2 ⟨assigned, hassigned, hput⟩,
      bind_eq_ok_iff.2 ⟨c.severities,
        (foldlM_put_eq_ok_iff putSeverity_eq_ok_iff).2 ⟨levels, hlevels, hputs⟩, ?_⟩⟩
    have hdebug' : decide (.flag .debug ∈ line) = c.debug := by
      rw [Bool.eq_iff_iff, decide_eq_true_iff, hdebug]
    rw [if_neg hfile, hdebug', listsNames_rel_iff.1 henabled, ← hfiles]
    rfl

/-- A command line asks for something if every one of its assignments can be made. -/
theorem exists_asks_iff (line : List Argument) :
    (∃ c, filesOf line ≠ [] ∧ Asks line c) ↔ Acceptable line := by
  constructor
  · rintro ⟨c, hfile, hasks⟩
    obtain ⟨assigned, hassigned, -⟩ := hasks.options
    obtain ⟨levels, hlevels, -⟩ := hasks.severities
    refine ⟨hfile, ?_, ?_⟩
    · intro raw hraw
      obtain ⟨given, value, hassigns, hread⟩ := exists_forall₂_iff.1 ⟨_, hassigned⟩ raw hraw
      exact ⟨given.1, value, hassigns, given.2, hread⟩
    · intro raw hraw
      obtain ⟨given, hgives⟩ := exists_forall₂_iff.1 ⟨_, hlevels⟩ raw hraw
      exact ⟨given.1, given.2, hgives⟩
  · rintro ⟨hfile, hoptions, hseverities⟩
    obtain ⟨assigned, hassigned⟩ := exists_forall₂_iff (R := GivesOptions).2 fun raw hraw => by
      obtain ⟨rule, value, hassigns, options, hread⟩ := hoptions raw hraw
      exact ⟨(rule, options), value, hassigns, hread⟩
    obtain ⟨levels, hlevels⟩ := exists_forall₂_iff (R := GivesSeverity).2 fun raw hraw => by
      obtain ⟨rule, level, hgives⟩ := hseverities raw hraw
      exact ⟨(rule, level), hgives⟩
    refine ⟨{
      debug := decide (.flag .debug ∈ line)
      enabled := (valuesOf .rules line).getLast?.map splitNames
      options := Fields.puts (if .flag .loose ∈ line then looseOptions else []) assigned
      severities := Fields.puts [] levels
      files := filesOf line }, hfile, decide_eq_true_iff, listsNames_rel_iff.2 rfl,
      ⟨assigned, hassigned, rfl, get?_puts_loose assigned⟩,
      ⟨levels, hlevels, rfl, Fields.get?_puts_nil levels⟩, rfl⟩

/-- A command line is accepted if it names a file and all its assignments can be made, and then the
arguments give exactly what it asks for. -/
theorem parse_words_iff (line : List Argument) :
    (Succeeds (parse (words line)) ↔ Acceptable line) ∧
      ∀ c, parse (words line) = .ok c ↔ Acceptable line ∧ Asks line c := by
  have hsucceeds : Succeeds (parse (words line)) ↔ Acceptable line :=
    (exists_congr fun c => parse_words_eq_ok_iff line c).trans (exists_asks_iff line)
  refine ⟨hsucceeds, fun c => ?_⟩
  constructor
  · intro h
    exact ⟨hsucceeds.1 ⟨c, h⟩, ((parse_words_eq_ok_iff line c).1 h).2⟩
  · rintro ⟨hacceptable, hasks⟩
    exact (parse_words_eq_ok_iff line c).2 ⟨hacceptable.file, hasks⟩

/-- A flag after the option that it does not override, two levels for one rule, and a value that looks
like a file between two files. -/
def overridingLine : List Argument := [
  .setting .ruleOption "no-invalid-element-name = false" (by decide),
  .file "a.js" (by decide),
  .setting .severity "guard-super-call=off" (by decide),
  .setting .rules "c.js, ,guard-super-call" (by decide),
  .flag .loose,
  .setting .severity "guard-super-call= warn" (by decide),
  .file "b.js" (by decide)]

/-- What it asks for: the option stands, and the later level counts. -/
def overridingConfig : Config where
  enabled := some ["c.js", "guard-super-call"]
  options := [("no-invalid-element-name", .bool false)]
  severities := [("guard-super-call", "warn")]
  files := ["a.js", "b.js"]

theorem acceptable_overridingLine : Acceptable overridingLine where
  file := nofun
  options := by
    intro raw hraw
    cases List.mem_singleton.1 hraw
    exact ⟨"no-invalid-element-name", "false",
      ⟨"no-invalid-element-name ", " false", by decide, by decide, by decide, by decide, by decide⟩,
      .bool false, by cbv⟩
  severities := by
    intro raw hraw
    rcases List.mem_pair.1 hraw with rfl | rfl
    · exact ⟨"guard-super-call", "off",
        ⟨"guard-super-call", "off", by decide, by decide, by decide, by decide, by decide⟩, by decide⟩
    · exact ⟨"guard-super-call", "warn",
        ⟨"guard-super-call", " warn", by decide, by decide, by decide, by decide, by decide⟩, by decide⟩

/-- The flag, written after the options for another rule. -/
def looseLine : List Argument := [
  .setting .ruleOption "guard-super-call=null" (by decide),
  .flag .loose,
  .file "a.js" (by decide)]

/-- What it asks for: what the flag stands for comes first, and stands. -/
def looseConfig : Config where
  options := [("no-invalid-element-name", .object [("loose", .bool true)]), ("guard-super-call", .null)]
  files := ["a.js"]

theorem acceptable_looseLine : Acceptable looseLine where
  file := nofun
  options := by
    intro raw hraw
    cases List.mem_singleton.1 hraw
    exact ⟨"guard-super-call", "null",
      ⟨"guard-super-call", "null", by decide, by decide, by decide, by decide, by decide⟩, .null, by cbv⟩
  severities := nofun

/-- These command lines are accepted, and they ask for nothing else: a later option overrides what the flag
stands for, and without one it stands. -/
theorem parse_words_iff_overriding :
    (Acceptable overridingLine ∧ parse (words overridingLine) = .ok overridingConfig ∧
      Asks overridingLine overridingConfig ∧ ∀ c, Asks overridingLine c → c = overridingConfig) ∧
    Acceptable looseLine ∧ parse (words looseLine) = .ok looseConfig ∧
      Asks looseLine looseConfig ∧ ∀ c, Asks looseLine c → c = looseConfig := by
  obtain ⟨-, hoverriding⟩ := parse_words_iff overridingLine
  obtain ⟨-, hloose⟩ := parse_words_iff looseLine
  have hparse : parse (words overridingLine) = .ok overridingConfig := by
    cbv
  have hparse' : parse (words looseLine) = .ok looseConfig := by
    cbv
  refine ⟨⟨acceptable_overridingLine, hparse, ((hoverriding _).1 hparse).2, ?_⟩,
    acceptable_looseLine, hparse', ((hloose _).1 hparse').2, ?_⟩
  · intro c hc
    cases hparse.symm.trans ((hoverriding c).2 ⟨acceptable_overridingLine, hc⟩)
    rfl
  · intro c hc
    cases hparse'.symm.trans ((hloose c).2 ⟨acceptable_looseLine, hc⟩)
    rfl

end Arguments

end ElementLint
