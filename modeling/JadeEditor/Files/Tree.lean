import JadeEditor.Files.Entry

/-!
# A tree of files

The files and directories below a working directory. A path is followed part by
part: every part but the last has to be a directory, `.` and an empty part stay,
`..` goes up, and above the working directory nothing is known but the way back
up.
-/

namespace JadeEditor

set_option autoImplicit false

/-- The parts of a path from the working directory down. -/
abbrev Location := List Text

structure FileTree where
  workingDirectory : Text
  files : List (Location × Utf8.Bytes)
  directories : List Location
  /-- Those of the files that cannot be read. -/
  unreadable : List (Location × ReadProblem) := []
  /-- Those of the files that cannot be written. -/
  unwritable : List (Location × WriteProblem) := []

namespace FileTree

/-- What is at a location. A directory is there if it was made or holds something. -/
def entryAt (tree : FileTree) (l : Location) : Entry :=
  match tree.files.find? fun f => f.1 = l with
  | some (_, bytes) =>
    match tree.unreadable.find? fun u => u.1 = l with
    | some (_, problem) => .closed true problem
    | none => .file bytes
  | none =>
    if l = [] ∨ tree.directories.any (fun d => d.take l.length = l)
        ∨ tree.files.any (fun f => f.1.take l.length = l) then .directory
    else .missing

/-- Where a path has led so far: inside the tree, or above it. -/
inductive Place where
  | inside (l : Location)
  | above

/-- Where one part of a path leads from a directory of the tree. -/
def Place.under (l : Location) (part : Text) : Place :=
  if part = [] ∨ part = Path.here then .inside l
  else if part = Path.parent then if l.isEmpty then .above else .inside l.dropLast
  else .inside (l ++ [part])

/-- Follows the parts of a path from a place; gives what is there and, inside the
tree, where. -/
def follow (tree : FileTree) (place : Place) : List Text → Entry × Option Location
  | [] =>
    match place with
    | .inside l => (tree.entryAt l, some l)
    | .above => (.directory, none)
  | part :: parts =>
    match place with
    | .above =>
      if part = [] ∨ part = Path.here ∨ part = Path.parent then follow tree .above parts
      else (.missing, none)
    | .inside l =>
      if tree.entryAt l = .directory then follow tree (.under l part) parts
      else (if tree.entryAt l = .missing then .missing else .blocked, none)

/-- What a path leads to, and where in the tree that is. -/
def resolve (tree : FileTree) (path : Text) : Entry × Option Location :=
  match Text.after? tree.workingDirectory path with
  | some [] => tree.follow (.inside []) []
  | some (c :: rest) =>
    if c = CodeUnit.slash then tree.follow (.inside []) (Path.parts rest) else relative
  | none => relative
where
  relative : Entry × Option Location :=
    if path.isEmpty then (.missing, none)
    else tree.follow (if Path.isAbsolute path then .above else .inside []) (Path.parts path)

/-- Why what a path leads to cannot be written. -/
def writeProblem? (tree : FileTree) (path : Text) : Option WriteProblem :=
  (tree.resolve path).2.bind fun l =>
    (tree.unwritable.find? fun u => u.1 = l).map Prod.snd

def fileSystem (tree : FileTree) : FileSystem where
  workingDirectory := tree.workingDirectory
  entry path := (tree.resolve path).1
  writeProblem? path _ := tree.writeProblem? path

/-- Puts other bytes into the file at a location. -/
def put (tree : FileTree) (l : Location) (bytes : Utf8.Bytes) : FileTree :=
  { tree with files := tree.files.map fun f => if f.1 = l then (l, bytes) else f }

/-- Writes to the file a path leads to, as far as it can be written; other paths change
nothing. -/
def write (tree : FileTree) (path : Text) (bytes : Utf8.Bytes) : FileTree :=
  match tree.resolve path with
  | (.file _, some l) =>
    match tree.writeProblem? path with
    | none => tree.put l bytes
    | some problem =>
      match problem.written? with
      | none => tree
      | some n => tree.put l (bytes.take n)
  | _ => tree

end FileTree

end JadeEditor
