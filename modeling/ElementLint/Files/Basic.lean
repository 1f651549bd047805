import ElementLint.Text.Utf8

/-!
# Files

All that a run asks of the files is what stands at a path and which path it really is; `FileSystem` holds
these two answers. Paths are texts with `/` between their parts. Some texts are no paths at all: the
system cannot be asked where they lead.
-/

namespace ElementLint

inductive Contents where
  | missing
  | directory
  | unreadable (reason : Text)
  | file (bytes : List UInt8)
deriving DecidableEq

/-- Why a text is no path. -/
inductive PathError where
  | nullByte
  | unencodable (words : Text)
deriving DecidableEq

def PathError.message : PathError → Text
  | .nullByte => "embedded null byte"
  | .unencodable words => words

/-- What a run knows about files. Where something stands, there is a path to it. -/
structure FileSystem where
  lookup : Text → Contents
  realPath : Text → Except PathError Text
  exists_realPath : ∀ path, lookup path ≠ .missing → ∃ real, realPath path = .ok real

namespace Path

def slash : Nat := 0x2F

def baseName (path : Text) : Text :=
  (path.reverse.takeWhile (· != slash)).reverse

/-- Why a text is no path, if it is none. A surrogate that stands for a byte can be handed on, any other
one cannot. -/
def fault? (path : Text) : Option PathError :=
  let isLone (c : Nat) : Bool := Utf8.isSurrogate c && !(0xDC80 ≤ c && c ≤ 0xDCFF)
  match Utf8.refusal? isLone path with
  | some words => some (.unencodable words)
  | none => if path.elem 0 then some .nullByte else none

def isAbsolute (path : Text) : Bool := path.head? == some slash

/-- The parts of a path, some of which may be empty. -/
def parts (path : Text) : List Text := Text.splitOn slash path

/-- Follow one part of a path from a directory: a point stays and two points go up. -/
def follow (directory : List Text) (part : Text) : List Text :=
  if part = [] ∨ part = "." then directory
  else if part = ".." then directory.dropLast
  else directory ++ [part]

/-- The parts of the absolute path that a path stands for when it is read in a directory. -/
def resolve (directory : List Text) (path : Text) : List Text :=
  (parts path).foldl follow (if isAbsolute path then [] else directory)

def ofParts (parts : List Text) : Text :=
  "/" ++ Text.joinWith "/" parts

end Path

end ElementLint
