import ElementLint.CommandLine.Run

/-!
# Listing the nodes of a file

The listing of a file is asked for by its name and, if not all of it is wanted, by the numbers of a
first and a last line. The problems of the file come before its nodes.
-/

namespace ElementLint

namespace Dump

def usage : Text := "Usage: python3 -m wclint.debug_dump <file> [line_start] [line_end]"

def problemLine (file : Text) (p : Problem) : Text :=
  file ++ ":" ++ Text.ofNat p.position.line ++ ":" ++ Text.ofNat p.position.column ++
    ": syntax error " ++ p.message

def bound (arg : Option Text) : Except RunFailure Json :=
  match arg with
  | none => .ok .null
  | some t => ((Numeral.read 10 10 t).mapError .numeral).map .int

def listing (reader : Reader) (files : FileSystem) (file : Text) (args : List Text) :
    Except RunFailure (List Text) := do
  let first ← bound args[0]?
  let last ← bound args[1]?
  let program ← (Program.ofFile reader files file).mapError .load
  let shown ← (Listing.lines (program.root.walk 0) first last).mapError .bound
  return program.problems.map (problemLine file) ++ shown

def run (reader : Reader) (files : FileSystem) (args : List Text) : Outcome :=
  match args with
  | [] => { prints := [usage], status := .ok (some 1) }
  | file :: rest =>
    match listing reader files file rest with
    | .ok texts => { prints := texts, status := .ok none }
    | .error e => { status := .error e }

end Dump

end ElementLint
