import JadeEditor.Data.Basic

/-!
# Settings

The settings have one field, the width of a level of indentation: an integer from
one to sixteen, four when it is not given. Validation names everything that is
wrong with a value, the fields first and unknown fields last.
-/

namespace JadeEditor

set_option autoImplicit false

structure Settings where
  indentOffset : Nat
  deriving DecidableEq

namespace Settings

def defaultOffset : Nat := 4

def maxOffset : Nat := 16

def default : Settings := ⟨defaultOffset⟩

/-- The name of the only field. -/
def offsetField : Text := utf16 "indentOffset"

/-- The name of the settings file. -/
def fileName : Text := utf16 ".jade-mode.yml"

def toData (s : Settings) : Data := .record [(offsetField, .ofNat s.indentOffset)]

/-- What a value is, as an issue names it. -/
def typeName : Data → Text
  | .null => utf16 "null"
  | .boolean _ => utf16 "boolean"
  | .number .nan => utf16 "nan"
  | .number _ => utf16 "number"
  | .text _ => utf16 "string"
  | .moment _ => utf16 "date"
  | .list _ => utf16 "array"
  | .record _ => utf16 "object"

/-- What is wrong with a value. -/
inductive Problem where
  | missing
  | notRecord (found : Text)
  | notNumber (found : Text)
  | notInteger
  | notPositive
  | tooLarge
  | unknownFields (names : List Text)
  deriving DecidableEq

/-- A name between apostrophes. -/
def quoteName (name : Text) : Text := CodeUnit.apostrophe :: name ++ [CodeUnit.apostrophe]

def Problem.message : Problem → Text
  | missing => utf16 "Required"
  | notRecord found => utf16 "Expected object, received " ++ found
  | notNumber found => utf16 "Expected number, received " ++ found
  | notInteger => utf16 "Expected integer, received float"
  | notPositive => utf16 "Number must be greater than 0"
  | tooLarge => utf16 "Number must be less than or equal to " ++ .ofNat maxOffset
  | unknownFields names =>
    utf16 "Unrecognized key(s) in object: " ++ Text.join (utf16 ", ") (names.map quoteName)

/-- A problem and the field it is about; the empty path is the value as a whole. -/
structure Issue where
  path : Text
  problem : Problem
  deriving DecidableEq

/-- What is wrong with the width of a level. -/
def offsetProblems : Data → List Problem
  | .number .nan => [.notNumber (typeName (.number .nan))]
  | .number n =>
    (if n.toInt?.isSome then [] else [.notInteger])
      ++ (if n.isPositive then [] else [.notPositive])
      ++ (if n.isAtMost maxOffset then [] else [.tooLarge])
  | d => [.notNumber (typeName d)]

/-- Everything that is wrong with a record of settings. -/
def fieldIssues (fields : List (Text × Data)) : List Issue :=
  let offset := (Data.record fields).field? offsetField
  let unknown := (fields.map Prod.fst).filter (· ≠ offsetField)
  ((offset.map offsetProblems).getD []).map (⟨offsetField, ·⟩)
    ++ (if unknown.isEmpty then [] else [⟨[], .unknownFields unknown⟩])

/-- The width of a level in a record without issues. -/
def offsetOf (fields : List (Text × Data)) : Nat :=
  match (Data.record fields).field? offsetField with
  | some (.number n) => (n.toInt?.getD 0).toNat
  | _ => defaultOffset

/-- Reads settings from data, or says what is wrong. -/
def validate : Data → Except (List Issue) Settings
  | .record fields =>
    match fieldIssues fields with
    | [] => .ok ⟨offsetOf fields⟩
    | issues => .error issues
  | d => .error [⟨[], .notRecord (typeName d)⟩]

/-- Reads settings from data that may be missing altogether. -/
def validate? : Option Data → Except (List Issue) Settings
  | some d => validate d
  | none => .error [⟨[], .missing⟩]

end Settings

end JadeEditor
