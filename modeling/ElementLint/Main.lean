import ElementLint.CommandLine.Console
import ElementLint.CommandLine.Dump
import ElementLint.Grammar.Parse

/-!
# The commands

The outer layer: it looks up the files that the arguments name, runs the linter or the listing over what
it found, and writes what comes out.
-/

namespace ElementLint

def readFailure : IO.Error → Text
  | .permissionDenied .. => "Permission denied"
  | _ => "Input/output error"

def lookUp (path : String) : IO (Contents × Text) := do
  let real ← IO.FS.realPath path
  let contents ←
    if path.isEmpty || !(← real.pathExists) then pure .missing
    else if ← real.isDir then pure .directory
    else
      try
        let bytes ← IO.FS.readBinFile path
        pure (.file bytes.toList)
      catch e => pure (.unreadable (readFailure e))
  return (contents, Text.ofString real.toString)

def fileSystemOf (args : List String) : IO FileSystem := do
  let found ← args.mapM fun path => do return (Text.ofString path, ← lookUp path)
  let entry (path : Text) := Fields.get? found path
  return {
    lookup := fun path => ((entry path).map (·.1)).getD .missing
    realPath := fun path => .ok (((entry path).map (·.2)).getD path)
    exists_realPath := fun _ _ => ⟨_, rfl⟩ }

/-- Write what a run writes, and give its status; a run that stops short has status 1. -/
def finish (e : Ending) : IO UInt32 := do
  IO.print e.stdout.toDisplay
  IO.eprint e.stderr.toDisplay
  match e.status with
  | .ok status => return (status.getD 0).toUInt32
  | .error e =>
    IO.eprintln e.message.toDisplay
    return 1

def dumpMain (args : List String) : IO UInt32 := do
  finish ((Dump.run parse (← fileSystemOf args) (args.map Text.ofString)).on .utf8)

end ElementLint

open ElementLint in
def main (args : List String) : IO UInt32 := do
  finish (CommandLine.runOn .utf8 parse (← fileSystemOf args) (args.map Text.ofString))
