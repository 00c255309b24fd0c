import JadeEditor.Text.Basic

/-!
# Lexemes

A document is a row of lexemes that leave nothing out. Each knows where it starts
and the indentation it stands at: the spaces at the start of its line together
with the indicators and spaces behind them, up to the first other lexeme.
-/

namespace JadeEditor.Yaml

set_option autoImplicit false

/-- What becomes of the line ends at the end of a block scalar. -/
inductive Chomping where
  /-- One of them stays. -/
  | clip
  | strip
  | keep
  deriving DecidableEq

/-- What the header of a block scalar says. An indentation of zero is not given. -/
structure BlockStyle where
  folded : Bool
  indent : Nat
  chomping : Chomping
  deriving DecidableEq

inductive Kind where
  | byteOrderMark
  | directive
  /-- The start of a document that has no marker; it takes up no text. -/
  | contentStart
  | documentStart
  | documentEnd
  | space
  | comment
  | newline
  | dash
  | question
  | colon
  | comma
  | openMapping
  | closeMapping
  | openSequence
  | closeSequence
  | anchor
  | tag
  /-- An alias, which stands for the node with its anchor. -/
  | reference
  | plain
  | singleQuoted
  | doubleQuoted
  | block (style : BlockStyle)
  deriving DecidableEq

/-- A lexeme whose place is not known yet. -/
structure Piece where
  kind : Kind
  text : Text
  deriving DecidableEq

structure Lexeme extends Piece where
  /-- The units of the lexemes before this one. -/
  start : Nat
  indent : Nat
  deriving DecidableEq

namespace Kind

/-- Space, comments and line ends say nothing about the value. -/
def isIdle : Kind → Bool
  | space | comment | newline => true
  | _ => false

def isBlock : Kind → Bool
  | block _ => true
  | _ => false

/-- What stands between the key of a line and anything before it. -/
def startsKeyLine : Kind → Bool
  | documentStart | question | colon | dash | newline => true
  | _ => false

end Kind

namespace Lexeme

def isIdle (x : Lexeme) : Bool := x.kind.isIdle

end Lexeme

/-- The lexemes of a row of pieces. `fresh` says that only indentation and
indicators have come on this line. -/
def place (start indent : Nat) (fresh : Bool) : List Piece → List Lexeme
  | [] => []
  | p :: rest =>
    let stop := start + p.text.length
    ⟨p, start, indent⟩ ::
      match p.kind with
      | .newline => place stop 0 true rest
      | .block _ => place stop 0 true rest
      | .contentStart => place stop indent fresh rest
      | .space =>
        let counts := fresh && p.text.head? == some CodeUnit.space
        place stop (if counts then indent + p.text.length else indent) fresh rest
      | .dash | .question | .colon =>
        place stop (if fresh then indent + p.text.length else indent) fresh rest
      | _ => place stop indent false rest

end JadeEditor.Yaml
