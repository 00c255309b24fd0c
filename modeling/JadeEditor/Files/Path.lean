import JadeEditor.Text.Basic

/-!
# Paths

Paths are texts with slashes between their parts. Joining simplifies a path
without looking at any file: empty and `.` parts go away, and a `..` takes the
part before it along.
-/

namespace JadeEditor.Path

set_option autoImplicit false

/-- The parts between slashes. -/
def parts (path : Text) : List Text :=
  let (part, more) := Text.splitOn CodeUnit.slash path
  part :: more

def isAbsolute (path : Text) : Bool := path.head? == some CodeUnit.slash

def here : Text := [CodeUnit.dot]

def parent : Text := [CodeUnit.dot, CodeUnit.dot]

/-- Adds a part to a simplified path, whose parts are given last first. -/
def push (absolute : Bool) (done : List Text) (part : Text) : List Text :=
  if part = [] ∨ part = here then done
  else if part = parent then
    match done with
    | last :: rest => if last = parent then parent :: done else rest
    | [] => if absolute then [] else [parent]
  else part :: done

/-- The simplified form of a path that ends in a name. -/
def simplify (path : Text) : Text :=
  let kept := ((parts path).foldl (push (isAbsolute path)) []).reverse
  (if isAbsolute path then [CodeUnit.slash] else []) ++ Text.join [CodeUnit.slash] kept

/-- A file name under a directory; the empty directory stands for the current one. -/
def join (directory name : Text) : Text :=
  simplify (if directory.isEmpty then name else directory ++ CodeUnit.slash :: name)

/-- The last part that is not empty. -/
def baseName (path : Text) : Text :=
  ((path.reverse.dropWhile (· == CodeUnit.slash)).takeWhile (· != CodeUnit.slash)).reverse

/-- The part of the file name from its last dot on. A name that starts with its last
dot has none, and neither has `..`. -/
def extension (path : Text) : Text :=
  let name := baseName path
  let suffix := (name.reverse.takeWhile (· != CodeUnit.dot)).reverse
  if name = parent ∨ suffix.length = name.length ∨ suffix.length + 1 = name.length then []
  else CodeUnit.dot :: suffix

end JadeEditor.Path
