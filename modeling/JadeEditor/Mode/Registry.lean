import JadeEditor.Fault.Basic
import JadeEditor.Files.Path
import JadeEditor.Text.LowerCase

/-!
# The registry of modes

Modes are found by their id and by the extension of a file. No two modes share an
id, and a mode cannot claim an extension that another one owns; an owner with an
empty id counts as none. A mode that is refused leaves the registry as it was.
-/

namespace JadeEditor

set_option autoImplicit false

structure Mode where
  id : Text
  name : Text
  extensions : List Text
  deriving DecidableEq

/-- The mode for Jade files. -/
def Mode.jade : Mode := ⟨utf16 "jade", utf16 "Jade", [utf16 "jade"]⟩

/-- An extension without its leading dot, in lower case. -/
def normalExtension (e : Text) : Text :=
  Text.toLower (if e.head? = some CodeUnit.dot then e.drop 1 else e)

/-- The normal form of a path's extension. -/
def Path.normalExtension (path : Text) : Text :=
  Text.toLower ((Path.extension path).drop 1)

structure Registry where
  /-- In the order of registration. -/
  modes : List Mode
  /-- Every extension with the id of its owner, in the order they were first claimed. -/
  owners : List (Text × Text)

/-- Why a mode is refused. -/
inductive Conflict where
  | sameId (id : Text)
  | sameExtension (id extension owner : Text)
  deriving DecidableEq

namespace Conflict

def message : Conflict → Text
  | sameId id => utf16 "Duplicate mode ID in registry: " ++ id
  | sameExtension id extension owner =>
    utf16 "Duplicate extension \"" ++ extension ++ utf16 "\" registered by \"" ++ id
      ++ utf16 "\" (already claimed by \"" ++ owner ++ utf16 "\")"

def context : Conflict → Data
  | sameId id => .record [(utf16 "id", .text id)]
  | sameExtension id extension owner =>
    .record [(utf16 "id", .text id), (utf16 "extension", .text extension),
      (utf16 "owner", .text owner)]

def toFault (c : Conflict) : Fault :=
  { message := c.message, code := .duplicateMode, context := some c.context }

end Conflict

namespace Registry

def empty : Registry := ⟨[], []⟩

def get? (r : Registry) (id : Text) : Option Mode := r.modes.find? fun m => m.id = id

def owner? (r : Registry) (extension : Text) : Option Text :=
  (r.owners.find? fun e => e.1 = extension).map Prod.snd

/-- The owner of an extension, if it has an id. -/
def claimant? (r : Registry) (extension : Text) : Option Text :=
  (r.owner? extension).filter fun id => !id.isEmpty

/-- Gives an extension an owner; one that is listed keeps its place. -/
def claim (id : Text) (owners : List (Text × Text)) (extension : Text) : List (Text × Text) :=
  if owners.any fun e => e.1 = extension then
    owners.map fun e => if e.1 = extension then (extension, id) else e
  else owners ++ [(extension, id)]

/-- The first extension that is taken, as a conflict. -/
def extensionConflict? (r : Registry) (id : Text) : List Text → Option Conflict
  | [] => none
  | e :: es =>
    match r.claimant? e with
    | some owner => some (.sameExtension id e owner)
    | none => extensionConflict? r id es

/-- What keeps a mode from being registered. -/
def conflict? (r : Registry) (m : Mode) : Option Conflict :=
  if (r.get? m.id).isSome then some (.sameId m.id)
  else r.extensionConflict? m.id (m.extensions.map normalExtension)

/-- A registration works on a registry and may be refused. What it did to the registry
stays either way. -/
abbrev Registration := EStateM Conflict Registry Unit

/-- Registers a mode unless there is a conflict: first the mode, then its extensions one
by one. -/
def enrol (m : Mode) : Registration := do
  match (← get).conflict? m with
  | some c => throw c
  | none =>
    modify fun r => { r with modes := r.modes ++ [m] }
    (m.extensions.map normalExtension).forM fun e =>
      modify fun r => { r with owners := claim m.id r.owners e }

/-- The registry with one more mode, or why the mode is refused. -/
def register (r : Registry) (m : Mode) : Except Conflict Registry :=
  match enrol m r with
  | .ok _ r => .ok r
  | .error c _ => .error c

/-- The mode for a file, by its extension. -/
def detect? (r : Registry) (path : Text) : Option Mode :=
  (r.claimant? (Path.normalExtension path)).bind r.get?

/-- The extensions that are listed, in the order they were first claimed. -/
def extensions (r : Registry) : List Text := r.owners.map Prod.fst

end Registry

end JadeEditor
