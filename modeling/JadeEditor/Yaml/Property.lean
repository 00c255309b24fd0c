import JadeEditor.Yaml.Problem
import JadeEditor.Yaml.Tree

/-!
# What stands in front of a node

The row of lexemes in front of a node holds at most one anchor and one tag, the
indicator of its place and, inside a flow collection, a comma. The rules about
space, tabs and line ends around them are checked here as well.
-/

namespace JadeEditor.Yaml

set_option autoImplicit false

structure Properties where
  indicator : Option Lexeme := none
  anchor : Option Lexeme := none
  tag : Option Lexeme := none
  hasComma : Bool := false
  hasNewline : Bool := false
  /-- A line ends behind an anchor or tag. -/
  isOpenLine : Bool := false
  /-- A line ends behind the last anchor or tag. -/
  isOwnLine : Bool := false
  deriving DecidableEq

namespace Properties

def isBare (p : Properties) : Bool := p.anchor.isNone && p.tag.isNone

/-- Where the anchor and the tag start. -/
def start? (p : Properties) : Option Nat :=
  match p.anchor, p.tag with
  | some a, some t => some (min a.start t.start)
  | some a, none => some a.start
  | none, t => t.map (·.start)

end Properties

/-- What follows a row, as far as the row is concerned. -/
inductive Follower where
  | none
  /-- Space, a line end, a comma or an empty scalar. -/
  | gap
  | flow
  | blockCollection
  | other
  deriving DecidableEq

namespace Follower

def isGapKind : Kind → Bool
  | .space | .newline | .comma => true
  | _ => false

def ofLexeme (x : Lexeme) : Follower := if isGapKind x.kind then gap else other

def ofTree : Tree → Follower
  | .flow _ _ _ => flow
  | .mapping _ _ | .sequence _ _ => blockCollection
  | .scalar x _ => if x.kind = .plain ∧ x.text.isEmpty then gap else other

/-- The value, or else the first lexeme of the row behind it. -/
def ofParts (t : Option Tree) (row : Option (List Lexeme)) : Follower :=
  match t with
  | some t => ofTree t
  | .none => ((row.bind List.head?).map ofLexeme).getD none

end Follower

/-- The place a row stands in. -/
structure Station where
  inFlow : Bool
  /-- The kind of the indicator that belongs there. -/
  expects : Kind
  follower : Follower
  /-- The indentation of the collection. -/
  margin : Nat
  /-- The row starts at the start of a line. -/
  startsLine : Bool

/-- A row that has been read in part. -/
structure PartialRow where
  found : Properties := {}
  atNewline : Bool
  hasSpace : Bool
  /-- The last lexeme was an anchor or tag. -/
  needsSpace : Bool := false
  /-- The last lexeme was space with a tab in it. -/
  tab : Option Lexeme := none

namespace PartialRow

def addAnchor (p : PartialRow) (x : Lexeme) : Except Problem PartialRow :=
  if p.found.anchor.isSome then .error .repeatedProperty
  else .ok { p with
    found := { p.found with anchor := some x, isOwnLine := false }
    atNewline := false, hasSpace := false, needsSpace := true }

def addTag (p : PartialRow) (x : Lexeme) : Except Problem PartialRow :=
  if p.found.tag.isSome then .error .repeatedProperty
  else .ok { p with
    found := { p.found with tag := some x, isOwnLine := false }
    atNewline := false, hasSpace := false, needsSpace := true }

def addNewline (p : PartialRow) : PartialRow :=
  let behind := !p.found.isBare
  { p with
    found := { p.found with
      hasNewline := true
      isOpenLine := p.found.isOpenLine || behind
      isOwnLine := p.found.isOwnLine || behind }
    atNewline := true, hasSpace := true }

def addIndicator (p : PartialRow) (x : Lexeme) : Except Problem PartialRow :=
  if !p.found.isBare then .error .misplacedProperty
  else if p.found.indicator.isSome then .error (.unexpected x.text)
  else .ok { p with
    found := { p.found with indicator := some x }
    atNewline := x.kind = .dash || x.kind = .question, hasSpace := false }

def addComma (p : PartialRow) (x : Lexeme) : Except Problem PartialRow :=
  if p.found.hasComma then .error (.unexpected x.text)
  else .ok { p with
    found := { p.found with hasComma := true }, atNewline := false, hasSpace := false }

def add (s : Station) (p : PartialRow) (x : Lexeme) : Except Problem PartialRow :=
  if p.needsSpace && !Follower.isGapKind x.kind then .error .missingSpace
  else if p.tab.isSome && p.atNewline && x.kind ≠ .comment && x.kind ≠ .newline then
    .error .tabIndentation
  else
    let p := { p with needsSpace := false, tab := none }
    match x.kind with
    | .space =>
      let mayIndent := !s.inFlow && (s.expects ≠ .documentStart || s.follower ≠ .flow)
      let isTab := mayIndent && x.text.contains CodeUnit.tab
      .ok { p with hasSpace := true, tab := if isTab then some x else none }
    | .comment => if p.hasSpace then .ok { p with atNewline := false } else .error .missingSpace
    | .newline => .ok p.addNewline
    | .anchor => p.addAnchor x
    | .tag => p.addTag x
    | _ =>
      if x.kind = s.expects then p.addIndicator x
      else if s.inFlow && x.kind = .comma then p.addComma x
      else .error (.unexpected x.text)

def finish (s : Station) (p : PartialRow) : Except Problem Properties :=
  if p.needsSpace && s.follower ≠ .none && s.follower ≠ .gap then .error .missingSpace
  else
    let isIndentation := p.tab.any fun tab => p.atNewline && tab.indent ≤ s.margin
    if isIndentation || (p.tab.isSome && s.follower = .blockCollection) then
      .error .tabIndentation
    else .ok p.found

end PartialRow

/-- The properties in a row. -/
def Properties.ofRow (s : Station) (row : List Lexeme) : Except Problem Properties := do
  let p ← row.foldlM (PartialRow.add s) { atNewline := s.startsLine, hasSpace := s.startsLine }
  p.finish s

/-- What follows a node is space, line ends and comments that space parts from it. -/
def checkTrail (hasSpace : Bool) : List Lexeme → Except Problem Unit
  | [] => .ok ()
  | x :: trail =>
    match x.kind with
    | .space | .newline => checkTrail true trail
    | .comment => if hasSpace then checkTrail true trail else .error .missingSpace
    | _ => .error (.unexpected x.text)

end JadeEditor.Yaml
