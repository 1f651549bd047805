import ElementLint.Files.Basic

/-!
# A disk in memory

A disk holds files and directories by their absolute paths, and a current directory in which other
paths are read. A path reaches something only if every part before the last is a directory, so
`a.js/` and `a.js/../b.js` reach nothing when `a.js` is a file.
-/

namespace ElementLint

structure Disk where
  /-- The directory in which relative paths are read. -/
  current : List Text
  /-- The files, by the parts of their absolute paths. -/
  files : List (List Text × List UInt8) := []
  /-- The directories that were made; a directory that holds something needs no mention. -/
  directories : List (List Text) := []
  /-- The paths under which a file cannot be opened, as they are written. -/
  denied : List Text := []

namespace Disk

def file? (d : Disk) (path : List Text) : Option (List UInt8) :=
  (d.files.find? fun f => f.1 == path).map (·.2)

/-- Whether there is a directory with a path: one that was made, or one that leads to something. -/
def isDirectory (d : Disk) (path : List Text) : Bool :=
  path.isPrefixOf d.current || d.directories.any (path.isPrefixOf ·) ||
    d.files.any fun f => path.isPrefixOf f.1 && path != f.1

/-- Follow the parts of a path, as long as they lead through directories. -/
def walk (d : Disk) : (place : List Text) → (parts : List Text) → Option (List Text)
  | place, [] => some place
  | place, part :: rest =>
    if d.isDirectory place then d.walk (Path.follow place part) rest else none

def lookup (d : Disk) (path : Text) : Contents :=
  if path = [] ∨ (Path.fault? path).isSome then .missing
  else
    match d.walk (if Path.isAbsolute path then [] else d.current) (Path.parts path) with
    | none => .missing
    | some place =>
      match d.file? place with
      | some bytes => if d.denied.elem path then .unreadable "Permission denied" else .file bytes
      | none => if d.isDirectory place then .directory else .missing

def realPath (d : Disk) (path : Text) : Except PathError Text :=
  match Path.fault? path with
  | some e => .error e
  | none => .ok (Path.ofParts (Path.resolve d.current path))

theorem exists_realPath (d : Disk) {path : Text} (h : d.lookup path ≠ .missing) :
    ∃ real, d.realPath path = .ok real := by
  rw [realPath]
  cases hfault : Path.fault? path with
  | none => exact ⟨_, rfl⟩
  | some e =>
    refine absurd ?_ h
    rw [lookup, hfault, if_pos (.inr rfl)]

def fileSystem (d : Disk) : FileSystem where
  lookup := d.lookup
  realPath := d.realPath
  exists_realPath _ := d.exists_realPath

def remove (d : Disk) (path : Text) : Disk :=
  let place := Path.resolve d.current path
  { d with
    files := d.files.filter fun f => !place.isPrefixOf f.1
    directories := d.directories.filter (!place.isPrefixOf ·) }

def makeDirectory (d : Disk) (path : Text) : Disk :=
  { d with directories := d.directories ++ [Path.resolve d.current path] }

def setDenied (d : Disk) (path : Text) (deny : Bool) : Disk :=
  let others := d.denied.filter (· != path)
  { d with denied := if deny then others ++ [path] else others }

/-- Write a file; the directory in which it stands stays when the file goes. -/
def write (d : Disk) (path : Text) (bytes : List UInt8) : Disk :=
  let place := Path.resolve d.current path
  { d with
    files := d.files.filter (·.1 != place) ++ [(place, bytes)]
    directories := d.directories ++ [place.dropLast] }

end Disk

end ElementLint
