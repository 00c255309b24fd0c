import JadeEditor.Files.Path
import JadeEditor.Text.Utf8

/-!
# Files as a program sees them

What a path leads to, why it cannot be read, and what comes of an attempt to write to
it. A `FileSystem` answers for every path relative to a working directory; it is only
ever asked, never changed.
-/

namespace JadeEditor

set_option autoImplicit false

/-- Why a file cannot be read. -/
inductive ReadProblem where
  | missing
  /-- Some part of the path that should be a directory is a file. -/
  | blocked
  | directory
  /-- It may not be opened, or a directory on the way to it may not be entered. -/
  | denied
  /-- Anything else, in the words of the system. -/
  | other (words : Text)
  deriving DecidableEq

/-- The words of the system for a problem with the given path. -/
def ReadProblem.message (path : Text) : ReadProblem → Text
  | missing => utf16 "ENOENT: no such file or directory, open '" ++ path ++ utf16 "'"
  | blocked => utf16 "ENOTDIR: not a directory, open '" ++ path ++ utf16 "'"
  | directory => utf16 "EISDIR: illegal operation on a directory, read"
  | denied => utf16 "EACCES: permission denied, open '" ++ path ++ utf16 "'"
  | other words => words

/-- Why a file cannot be written. -/
inductive WriteProblem where
  /-- It may not be opened for writing. -/
  | denied
  /-- It cannot be opened for writing for another reason, in the words of the system. -/
  | refused (words : Text)
  /-- It was opened, which empties it, and the writing broke off after some bytes. -/
  | brokenOff (words : Text) (written : Nat)
  deriving DecidableEq

namespace WriteProblem

/-- The words of the system for a problem with the given path. -/
def message (path : Text) : WriteProblem → Text
  | denied => utf16 "EACCES: permission denied, open '" ++ path ++ utf16 "'"
  | refused words => words
  | brokenOff words _ => words

/-- How many bytes were written; none if the file was never opened, so that it stays as
it is. -/
def written? : WriteProblem → Option Nat
  | brokenOff _ written => some written
  | _ => none

end WriteProblem

/-- What a path leads to. -/
inductive Entry where
  | file (bytes : Utf8.Bytes)
  /-- No file that can be read, though something may be found there. -/
  | closed (found : Bool) (problem : ReadProblem)
  deriving DecidableEq

namespace Entry

@[match_pattern]
abbrev missing : Entry := closed false .missing

@[match_pattern]
abbrev blocked : Entry := closed false .blocked

@[match_pattern]
abbrev directory : Entry := closed true .directory

end Entry

structure FileSystem where
  workingDirectory : Text
  entry : Text → Entry
  /-- Why the file at a path cannot be made to hold these bytes. -/
  writeProblem? : Text → Utf8.Bytes → Option WriteProblem := fun _ _ => none

namespace FileSystem

def hasEntry (fs : FileSystem) (path : Text) : Bool :=
  match fs.entry path with
  | .file _ => true
  | .closed found _ => found

def read (fs : FileSystem) (path : Text) : Except ReadProblem Text :=
  match fs.entry path with
  | .file bytes => .ok (Utf8.decode bytes)
  | .closed _ problem => .error problem

end FileSystem

end JadeEditor
