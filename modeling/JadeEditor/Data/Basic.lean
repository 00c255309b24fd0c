import JadeEditor.Number.Shortest

/-!
# Structured data

The values a settings file holds, the context an error carries and what commands
print as JSON. A record keeps its fields in order: names that are array indices
come first and ascend, the others stand as they were first given.
-/

namespace JadeEditor

set_option autoImplicit false

inductive Data where
  | null
  | boolean (b : Bool)
  | number (n : Number)
  | text (t : Text)
  /-- A point in time, as it is written. -/
  | moment (written : Text)
  | list (items : List Data)
  | record (fields : List (Text × Data))
  deriving Inhabited

namespace Data

def ofInt (n : Int) : Data := number (Number.ofInt n)

def ofNat (n : Nat) : Data := ofInt n

/-- One more than the greatest array index. -/
def indexLimit : Nat := 0xFFFFFFFF

/-- The array index a field name spells, if it spells one. -/
def index? (name : Text) : Option Nat :=
  let n := Text.digitsValue name
  if !name.isEmpty && name.all CodeUnit.isDigit && n < indexLimit && Text.ofNat n == name then
    some n
  else none

/-- Whether a new field goes before a field that is there. -/
def goesBefore (new old : Text) : Bool :=
  match index? new, index? old with
  | some n, some m => n < m
  | some _, none => true
  | none, _ => false

/-- Puts a new field in its place. -/
def place (name : Text) (value : Data) : List (Text × Data) → List (Text × Data)
  | [] => [(name, value)]
  | (other, v) :: fields =>
    if goesBefore name other then (name, value) :: (other, v) :: fields
    else (other, v) :: place name value fields

/-- Gives a field a value: in its old place if it is there, else in its new one. -/
def setField (fields : List (Text × Data)) (name : Text) (value : Data) : List (Text × Data) :=
  if fields.any fun f => f.1 == name then
    fields.map fun f => if f.1 == name then (name, value) else f
  else place name value fields

/-- The record of the given fields; of two with one name the later value counts. -/
def ofFields (fields : List (Text × Data)) : Data :=
  record (fields.foldl (fun done f => setField done f.1 f.2) [])

/-- The value of a field of a record. -/
def field? (name : Text) : Data → Option Data
  | record fields => (fields.find? fun f => f.1 == name).map Prod.snd
  | _ => none

/-- The members of a value by name. The items of a list and the units of a text go
by their indices; other values have no members. -/
def members : Data → List (Text × Data)
  | record fields => fields
  | list items => items.zipIdx.map fun (d, i) => (Text.ofNat i, d)
  | text t => t.zipIdx.map fun (c, i) => (Text.ofNat i, text [c])
  | _ => []

/-- Null, false, the empty text and the numbers zero and NaN count as nothing. -/
def isNothing : Data → Bool
  | null => true
  | boolean b => !b
  | text t => t.isEmpty
  | number (.finite _ significand _) => significand == 0
  | number .nan => true
  | _ => false

mutual

/-- The plain text of a value: the items of a list stand between commas, a null
among them leaves its place empty, and a record shows nothing of its fields. -/
def plain : Data → Text
  | null => utf16 "null"
  | boolean b => if b then utf16 "true" else utf16 "false"
  | number n => n.text
  | text t => t
  | moment written => written
  | list items => Text.join [CodeUnit.comma] (plainItems items)
  | record _ => utf16 "[object Object]"

def plainItems : List Data → List Text
  | [] => []
  | d :: items => plainItem d :: plainItems items

def plainItem : Data → Text
  | null => []
  | boolean b => if b then utf16 "true" else utf16 "false"
  | number n => n.text
  | text t => t
  | moment written => written
  | list items => Text.join [CodeUnit.comma] (plainItems items)
  | record _ => utf16 "[object Object]"

end

end Data

end JadeEditor
