import JadeEditor.Text.Utf8
import JadeEditor.Yaml.Schema

/-!
# Directives and tags

A directive stands on a line of its own before a document. It names the version
of the notation, or what a handle at the start of a tag stands for; others are
passed over.
-/

namespace JadeEditor.Yaml

set_option autoImplicit false

structure Directives where
  version : Version := .v1_2
  /-- What the handles stand for, the latest first. -/
  handles : List (Text × Text) := [(utf16 "!!", utf16 "tag:yaml.org,2002:")]

namespace Directives

/-- The parts of a text between blanks. -/
def words (t : Text) : List Text :=
  let (first, more) :=
    Text.splitOn CodeUnit.space (t.map fun c => if c.isBlank then CodeUnit.space else c)
  (first :: more).filter (!·.isEmpty)

/-- Two numbers with a point between them. -/
def isVersion (t : Text) : Bool :=
  match splitAt? CodeUnit.dot t with
  | some (major, minor) =>
    !major.isEmpty && !minor.isEmpty && major.all CodeUnit.isDigit && minor.all CodeUnit.isDigit
  | none => false

/-- Takes a directive into account. -/
def add (d : Directives) (line : Text) : Except Problem Directives :=
  match words line.trim with
  | name :: parts =>
    if name = utf16 "%YAML" then
      match parts with
      | [version] =>
        if version = utf16 "1.1" then .ok { d with version := .v1_1 }
        else if version = utf16 "1.2" then .ok { d with version := .v1_2 }
        else if isVersion version then .ok d
        else .error (.badDirective line)
      | _ => .error (.badDirective line)
    else if name = utf16 "%TAG" then
      match parts with
      | [handle, target] => .ok { d with handles := (handle, target) :: d.handles }
      | _ => .error (.badDirective line)
    else .ok d
  | [] => .ok d

def ofLines (lines : List Text) : Except Problem Directives := lines.foldlM add {}

end Directives

/-- The bytes of a text in which a percent sign stands before two hexadecimal
digits; the next `skip` units have been read. -/
def percentBytes (skip : Nat) : Text → Utf8.Bytes
  | [] => []
  | c :: t =>
    match skip with
    | k + 1 => percentBytes k t
    | 0 =>
      if c = CodeUnit.ofChar '%' then
        ((digitsTo? 16 (t.take 2)).getD 0).toUInt8 :: percentBytes 2 t
      else c.toNat.toUInt8 :: percentBytes 0 t

/-- The text with its escapes resolved, if they make up characters. -/
def percentDecoded? (t : Text) : Option Text :=
  let decoded := Utf8.decode (percentBytes 0 t)
  if decoded.contains (Utf8.replacement.toUInt16) then none else some decoded

/-- The full name of a tag, as it is written in the document. -/
def Directives.tagName (d : Directives) (t : Text) : Except Problem Text :=
  let mark := CodeUnit.ofChar '!'
  if t = [mark] then .ok t
  else if t.startsWith (utf16 "!<") then
    let name := (t.drop 2).dropLast
    if name = [mark] ∨ name = [mark, mark] ∨ t.getLast? ≠ some (CodeUnit.ofChar '>') then
      .error (.badTag t)
    else .ok name
  else
    let suffix := (t.reverse.takeWhile (· ≠ mark)).reverse
    let handle := t.take (t.length - suffix.length)
    if suffix.isEmpty then .error (.badTag t)
    else
      match d.handles.find? fun h => h.1 == handle with
      | some (_, target) =>
        match percentDecoded? suffix with
        | some suffix => .ok (target ++ suffix)
        | none => .error (.badTag t)
      | none => if handle = [mark] then .ok t else .error (.badTag t)

end JadeEditor.Yaml
