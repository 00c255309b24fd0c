import JadeEditor.Yaml.Lexeme

/-!
# The tree of a document

A tree keeps every lexeme, the idle ones included, since where space, comments
and line ends stand decides whether a document is well formed. Items are kept
with the latest first, so that a tree grows at the head of its lists.
-/

namespace JadeEditor.Yaml

set_option autoImplicit false

/-- An item of a collection. A row of lexemes stands in front of it and, in a
mapping, another one between its key and its value. -/
structure Item (α : Type) where
  before : List Lexeme
  key : Option α := none
  between : Option (List Lexeme) := none
  value : Option α := none
  /-- The key stands behind a question mark. -/
  isExplicit : Bool := false

inductive Tree where
  /-- A scalar or an alias, and what follows it on its line. -/
  | scalar (lexeme : Lexeme) (trail : List Lexeme)
  | mapping (indent : Nat) (items : List (Item Tree))
  | sequence (indent : Nat) (items : List (Item Tree))
  /-- A flow collection. Its ending starts with the closing bracket. -/
  | flow (opening : Lexeme) (items : List (Item Tree)) (ending : List Lexeme)

namespace Tree

/-- A mapping whose first item has been read up to its colon. -/
def startMapping (indent : Nat) (before : List Lexeme) (key : Option Tree)
    (between : List Lexeme) : Tree :=
  .mapping indent [{ before := before, key := key, between := some between }]

/-- A mapping that starts with the question mark in front of a key. -/
def startExplicit (indent : Nat) (before : List Lexeme) : Tree :=
  .mapping indent [{ before := before, isExplicit := true }]

def isMapping : Tree → Bool
  | mapping _ _ => true
  | _ => false

def isSequence : Tree → Bool
  | sequence _ _ => true
  | _ => false

def isFlow : Tree → Bool
  | flow _ _ _ => true
  | _ => false

def isBlockCollection (t : Tree) : Bool := t.isMapping || t.isSequence

def isBlockScalar : Tree → Bool
  | scalar x _ => x.kind.isBlock
  | _ => false

/-- The indentation the node starts at. -/
def indent : Tree → Nat
  | scalar x _ => x.indent
  | mapping indent _ => indent
  | sequence indent _ => indent
  | flow opening _ _ => opening.indent

/-- What follows a node on its line and may still be added to. -/
def trail? : Tree → Option (List Lexeme)
  | scalar _ trail => if trail.isEmpty then none else some trail
  | flow _ _ ending => some ending
  | _ => none

def extendTrail (more : List Lexeme) : Tree → Tree
  | scalar x trail => scalar x (trail ++ more)
  | flow opening items ending => flow opening items (ending ++ more)
  | t => t

end Tree

/-- Whether a row has a lexeme of the given kind. -/
def holds (kind : Kind) (row : List Lexeme) : Bool := row.any (·.kind = kind)

mutual

/-- Whether a key goes on over several lines. What follows a flow collection does
not count. -/
def spansLines : Tree → Bool
  | .scalar x trail =>
    x.kind.isBlock || x.text.contains CodeUnit.lineFeed || holds .newline trail
  | .flow _ items _ => anyItemSpansLines items
  | _ => true

def anyItemSpansLines : List (Item Tree) → Bool
  | [] => false
  | item :: earlier => itemSpansLines item || anyItemSpansLines earlier

def itemSpansLines : Item Tree → Bool
  | ⟨before, key, between, value, _⟩ =>
    holds .newline before || holds .newline (between.getD []) || partSpansLines key
      || partSpansLines value

def partSpansLines : Option Tree → Bool
  | none => false
  | some t => spansLines t

end

end JadeEditor.Yaml
