import ElementLint.CommandLine.Run

/-!
# Consoles

A run prints to a console, which takes only texts that it can encode. `CommandLine.runOn` is a run with what
comes of its prints: the first text that the console refuses ends the run, and there is no status.
-/

namespace ElementLint

/-- A console, by the words in which it refuses a text, if it does. -/
structure Console where
  refusal? : Text → Option Text

namespace Console

/-- A console that takes every text without surrogates. -/
def utf8 : Console := ⟨Utf8.refusal? Utf8.isSurrogate⟩

/-- Print texts up to the first that is refused: what is written, and the words of the refusal. -/
def print (console : Console) : List Text → Text × Option Text
  | [] => ([], none)
  | t :: rest =>
    match console.refusal? t with
    | some words => ([], some words)
    | none =>
      let (written, refused) := console.print rest
      (t ++ "\n" ++ written, refused)

end Console

/-- Why a run on a console ends without a status. -/
inductive Stop where
  | failure (e : RunFailure)
  | unencodable (words : Text)

def Stop.message : Stop → Text
  | .failure e => e.message
  | .unencodable words => words

/-- What is written on a console, and how the run ends. -/
structure Ending where
  stdout : Text
  stderr : Text
  status : Except Stop (Option Nat)

def Outcome.on (o : Outcome) (console : Console) : Ending :=
  match console.print o.prints with
  | (stdout, some words) => { stdout, stderr := o.stderr, status := .error (.unencodable words) }
  | (stdout, none) => { stdout, stderr := o.stderr, status := o.status.mapError .failure }

def CommandLine.runOn (console : Console) (reader : Reader) (files : FileSystem) (args : List Text) :
    Ending :=
  (run reader files args).on console

end ElementLint
