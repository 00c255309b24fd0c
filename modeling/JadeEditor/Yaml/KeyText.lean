import JadeEditor.Data.Json
import JadeEditor.Yaml.Node

/-!
# Collections as keys

A field has a name, so that a collection that is a key gives its text: the
collection in flow style, on one line if it fits and otherwise with an item a
line.
-/

namespace JadeEditor.Yaml

set_option autoImplicit false

/-- The most units of a collection on one line. -/
def maxLineWidth : Nat := 80

/-- Encloses the items of a collection, which stands at the given level. -/
def encloseItems (left right : CodeUnit) (level : Nat) (items : List Text) : Text :=
  let comma (t : Text) : Text := t ++ [CodeUnit.comma]
  let lines := items.dropLast.map comma ++ (items.getLast?.map fun t => [t]).getD []
  let width := lines.foldl (fun n line => n + line.length + 2) 2
  if lines.isEmpty then [left, right]
  else if maxLineWidth < width || lines.any fun line => line.contains CodeUnit.lineFeed then
    let newLine (level : Nat) : Text := CodeUnit.lineFeed :: Text.spaces (2 * level)
    left :: lines.flatMap (fun line => newLine (level + 1) ++ line) ++ newLine level ++ [right]
  else
    left :: CodeUnit.space :: Text.join [CodeUnit.space] lines ++ [CodeUnit.space, right]

/-- A text between single quotes. -/
def singleQuote (t : Text) : Text :=
  CodeUnit.apostrophe :: Text.replaceAll (utf16 "'") (utf16 "''") t ++ [CodeUnit.apostrophe]

def Scalar.flowText (s : Scalar) : Text :=
  match s.kind, s.value with
  | .singleQuoted, .text t => singleQuote t
  | .plain, .number (.infinite negative) => if negative then utf16 "-.inf" else utf16 ".inf"
  | .plain, .number .nan => utf16 ".nan"
  | .plain, .number n => n.text
  | .plain, _ => s.text
  | _, .text t =>
    if t.contains CodeUnit.quote && !t.contains CodeUnit.apostrophe && s.kind.isBlock then
      singleQuote t
    else Data.quoted t
  | _, _ => s.text

/-- The anchor in front of a node. -/
def anchorText : Option Text → Text
  | some name => CodeUnit.ofChar '&' :: name ++ [CodeUnit.space]
  | none => []

namespace Node

mutual

/-- A node inside a collection, with its anchor. -/
def flowText (level : Nat) : Node → Text
  | .scalar anchor s => anchorText anchor ++ s.flowText
  | .reference name => CodeUnit.ofChar '*' :: name
  | .mapping anchor fields =>
    anchorText anchor ++ encloseItems CodeUnit.openBrace CodeUnit.closeBrace level
      (fieldTexts (level + 1) fields)
  | .sequence anchor items =>
    anchorText anchor ++ encloseItems CodeUnit.openBracket CodeUnit.closeBracket level
      (itemTexts (level + 1) items)

def itemTexts (level : Nat) : List Node → List Text
  | [] => []
  | node :: more => flowText level node :: itemTexts level more

def fieldTexts (level : Nat) : List (Node × Option Node) → List Text
  | [] => []
  | field :: more => fieldText level field :: fieldTexts level more

/-- A field. A key without a value stands alone. -/
def fieldText (level : Nat) : Node × Option Node → Text
  | (key, value) =>
    let name := flowText level key
    match valueText? level value with
    | none => if name.isEmpty then utf16 "?" else name
    | some shown =>
      name ++ CodeUnit.colon :: (if shown.isEmpty then [] else CodeUnit.space :: shown)

def valueText? (level : Nat) : Option Node → Option Text
  | none => none
  | some node => some (flowText level node)

end

/-- The text of a collection that is a key, without its own anchor. -/
def keyText : Node → Text
  | .mapping _ fields => flowText 0 (.mapping none fields)
  | .sequence _ items => flowText 0 (.sequence none items)
  | node => flowText 0 node

end Node

end JadeEditor.Yaml
