import JadeEditor.Data.Basic

/-!
# JSON layout

Values are written with one item or field a line, indented by two spaces a
level; an empty list or record stays on its line.
-/

namespace JadeEditor.Data

set_option autoImplicit false

/-- A hexadecimal digit in lower case. -/
def hexDigit (n : Nat) : CodeUnit := CodeUnit.ofChar (Nat.digitChar n)

/-- A unit inside a JSON string: quotes, backslashes and control units are escaped. -/
def escapeUnit (c : CodeUnit) : Text :=
  if c = CodeUnit.quote ∨ c = CodeUnit.backslash then [CodeUnit.backslash, c]
  else if c = 0x08 then utf16 "\\b"
  else if c = 0x09 then utf16 "\\t"
  else if c = 0x0A then utf16 "\\n"
  else if c = 0x0C then utf16 "\\f"
  else if c = 0x0D then utf16 "\\r"
  else if c < 0x20 then utf16 "\\u00" ++ [hexDigit (c.toNat / 16), hexDigit (c.toNat % 16)]
  else [c]

def quoted (t : Text) : Text := CodeUnit.quote :: (t.flatMap escapeUnit ++ [CodeUnit.quote])

/-- A line break and the margin of the given level. -/
def newLine (level : Nat) : Text := CodeUnit.lineFeed :: Text.spaces (2 * level)

/-- Encloses the lines of a list or record. -/
def enclose (open_ close : CodeUnit) (level : Nat) : List Text → Text
  | [] => [open_, close]
  | parts =>
    open_ :: (newLine (level + 1)
      ++ Text.join (CodeUnit.comma :: newLine (level + 1)) parts
      ++ newLine level ++ [close])

mutual

/-- The JSON text of a value that stands at the given level. A number that is not
finite is written as null. -/
def jsonAt (level : Nat) : Data → Text
  | null => utf16 "null"
  | boolean b => if b then utf16 "true" else utf16 "false"
  | number (.finite s m e) => (Number.finite s m e).text
  | number _ => utf16 "null"
  | text t => quoted t
  | moment written => quoted written
  | list items =>
    enclose CodeUnit.openBracket CodeUnit.closeBracket level (jsonItems (level + 1) items)
  | record fields =>
    enclose CodeUnit.openBrace CodeUnit.closeBrace level (jsonFields (level + 1) fields)

def jsonItems (level : Nat) : List Data → List Text
  | [] => []
  | d :: items => jsonAt level d :: jsonItems level items

def jsonFields (level : Nat) : List (Text × Data) → List Text
  | [] => []
  | (name, d) :: fields =>
    (quoted name ++ CodeUnit.colon :: CodeUnit.space :: jsonAt level d) :: jsonFields level fields

end

def json (d : Data) : Text := jsonAt 0 d

end JadeEditor.Data
