import ElementLint.Files.Basic
import ElementLint.Node.OfTree
import ElementLint.Tree.Problem

/-!
# Loading programs

A program is loaded by handing its bytes to a grammar and turning the tree that comes back into nodes.
What does this is a parameter: `Reader` holds the grammar, which gives the concrete tree of any bytes, or
nothing if they nest too deeply for it, and how many levels down a tree may nest.
-/

namespace ElementLint

/-- What turns source bytes into a concrete tree. -/
abbrev Grammar := List UInt8 → Option Tree

/-- What programs are read with. -/
structure Reader where
  grammar : Grammar
  depth : Nat := Node.maxDepth

instance : Coe Grammar Reader := ⟨fun grammar => { grammar }⟩

/-- A program and the places at which its text breaks the grammar. -/
structure Program where
  root : Node
  problems : List Problem

inductive LoadError where
  | noFile (path : Text)
  | notFile (path : Text)
  | unreadable (name reason : Text)
  | undecodable (name : Text)
  | tooDeep (name : Text)
  /-- The system cannot be asked for the path. -/
  | noPath (e : PathError)
  /-- The concrete tree has a construct without a meaning. -/
  | meaningless (e : ConvertError)
deriving DecidableEq

namespace LoadError

/-- Whether an error is about the file as a whole, so that a run reports it and goes on. -/
def isReported : LoadError → Bool
  | .noPath _ | .meaningless _ => false
  | _ => true

end LoadError

def ConvertError.message : ConvertError → Text
  | .tooDeep => "maximum recursion depth exceeded"
  | .missingOperator => "'NoneType' object has no attribute 'type'"
  | .escape e => e.message
  | .numeral e => e.message

def LoadError.message : LoadError → Text
  | .noFile path => "Input file does not exist: " ++ path
  | .notFile path => "Input path is not a file: " ++ path
  | .unreadable name reason => "Could not read '" ++ name ++ "': " ++ reason ++ "."
  | .undecodable name => "Could not decode '" ++ name ++ "' as UTF-8."
  | .tooDeep name => "'" ++ name ++ "' is nested too deeply to analyse."
  | .noPath e => e.message
  | .meaningless e => e.message

namespace Program

def sourceName : Option Text → Text
  | none | some [] => "source"
  | some path => Path.baseName path

/-- The program of a source text; `path` is where the text comes from, if it is from a file. -/
def ofBytes (reader : Reader) (path : Option Text) (bytes : List UInt8) :
    Except LoadError Program :=
  match reader.grammar bytes with
  | none => .error (.tooDeep (sourceName path))
  | some tree =>
    let source := Source.ofBytes bytes
    match Node.ofTree (Node.View.ofSource source) reader.depth tree with
    | .error .tooDeep => .error (.tooDeep (sourceName path))
    | .error e => .error (.meaningless e)
    | .ok root => .ok ⟨root, Problem.ofTree source tree⟩

def ofFile (reader : Reader) (files : FileSystem) (path : Text) : Except LoadError Program :=
  match files.lookup path with
  | .missing => .error (.noFile path)
  | .directory => .error (.notFile path)
  | .unreadable reason => .error (.unreadable (Path.baseName path) reason)
  | .file bytes =>
    match Utf8.decode? bytes with
    | none => .error (.undecodable (Path.baseName path))
    | some _ => ofBytes reader (some path) bytes

end Program

end ElementLint
