import JadeEditor.Yaml.Span

/-!
# From text to lexemes

The text is read from the left. What an indicator, a quote or a colon means there
depends on where the reading stands: between documents, in block context or in a
flow collection. Every round takes at least one unit or changes the context once,
so that three rounds for each unit are enough.
-/

namespace JadeEditor.Yaml

set_option autoImplicit false

/-- Where the reading stands. -/
inductive Context where
  /-- Before the first document or behind the end of one, at the start of a line. -/
  | stream
  /-- In block context. -/
  | document
  /-- Inside a flow collection. -/
  | flow
  deriving DecidableEq

structure Reading where
  context : Context
  rest : Text
  /-- The least indentation of a line that goes on with the node being read. -/
  margin : Nat
  /-- The indentation of the line, with the indicators of nested collections. -/
  column : Nat
  /-- The number of flow collections that are open. -/
  depth : Nat
  /-- A quoted scalar or a flow collection has just ended, so that a colon right
  behind it is a colon. -/
  behindKey : Bool
  /-- The latest first. -/
  pieces : List Piece

namespace Reading

def start (t : Text) : Reading := ⟨.stream, t, 0, 0, 0, false, []⟩

/-- Makes the next `n` units a piece; an empty one is left out. -/
def take (r : Reading) (kind : Kind) (n : Nat) : Reading :=
  if n = 0 then r
  else { r with rest := r.rest.drop n, pieces := ⟨kind, r.rest.take n⟩ :: r.pieces }

def takeBlanks (r : Reading) : Reading := r.take .space (countBlanks r.rest)

def takeNewline (r : Reading) : Reading :=
  match r.rest with
  | [] => r
  | c :: _ =>
    if atLineEnd r.rest then r.take .newline (if c = CodeUnit.lineFeed then 1 else 2) else r

/-- A comment up to the end of the line. -/
def takeComment (r : Reading) : Reading := r.take .comment (restOfLine r.rest).length

/-- The next unit, if it belongs to the line. -/
def next? (r : Reading) : Option CodeUnit := if atLineEnd r.rest then none else r.rest.head?

/-- The unit behind the next one. -/
def second? (r : Reading) : Option CodeUnit := (r.rest.drop 1).head?

/-- What an indicator of a nested collection stands for. -/
def indicator? (c : CodeUnit) : Option Kind :=
  if c = CodeUnit.hyphen then some .dash
  else if c = CodeUnit.ofChar '?' then some .question
  else if c = CodeUnit.colon then some .colon
  else none

/-- The indicators at the start of a line, with the spaces behind each. -/
def takeNesting : (fuel : Nat) → Reading → Reading
  | 0, r => r
  | fuel + 1, r =>
    match r.rest.head?.bind indicator? with
    | some kind =>
      if !isGap r.second? then r
      else
        let width := 1 + countBlanks (r.rest.drop 1)
        takeNesting fuel { (r.take kind 1).takeBlanks with
          margin := r.column + 1, column := r.column + width }
    | none => r

/-- A marker, or the indentation of the line and the indicators behind it. -/
def takeLineStart (r : Reading) : Reading :=
  match marker? r.rest with
  | some kind =>
    let context := if kind = .documentEnd then Context.stream else .document
    { r.take kind 3 with context := context, margin := 0, column := 0 }
  | none =>
    let column := countSpaces r.rest
    let r := { r.take .space column with context := .document, column := column }
    let margin := if column < r.margin ∧ !isGap r.second? then column else r.margin
    takeNesting (restOfLine r.rest).length { r with margin := margin }

/-- The units a name of a tag is made of, without escapes. -/
def isTagUnit (c : CodeUnit) : Bool :=
  c.isWord || (utf16 "-#;/?:@&=+$.!~*'()").contains c

/-- The length of a tag's name; a percent sign is followed by two hexadecimal
digits. -/
def tagLength : Text → Nat
  | [] => 0
  | c :: t =>
    if isTagUnit c then tagLength t + 1
    else if c = CodeUnit.ofChar '%' then
      match t with
      | d :: e :: t =>
        if d.hexValue?.isSome && e.hexValue?.isSome then tagLength t + 3 else 0
      | _ => 0
    else 0

/-- A tag, which is written out between angle brackets or as a name. -/
def takeTag (r : Reading) : Reading :=
  if r.second? = some (CodeUnit.ofChar '<') then
    let name := (r.rest.drop 2).takeWhile fun c =>
      !isGap (some c) && c != CodeUnit.ofChar '>'
    let isClosed := (r.rest.drop (2 + name.length)).head? == some (CodeUnit.ofChar '>')
    r.take .tag (2 + name.length + (if isClosed then 1 else 0))
  else r.take .tag (1 + tagLength (r.rest.drop 1))

/-- The length of the name of an anchor or alias, with the unit before it. -/
def nameLength (t : Text) : Nat :=
  (t.takeWhile fun c => !isGap (some c) && !isFlowMark c).length

/-- Tags, anchors and indicators in front of a node, with the spaces behind each. -/
def takeProperties : (fuel : Nat) → Reading → Reading
  | 0, r => r
  | fuel + 1, r =>
    match r.rest with
    | [] => r
    | c :: _ =>
      if c = CodeUnit.ofChar '!' then takeProperties fuel r.takeTag.takeBlanks
      else if c = CodeUnit.ofChar '&' then
        takeProperties fuel (r.take .anchor (nameLength r.rest)).takeBlanks
      else
        let inFlow := 0 < r.depth
        match indicator? c with
        | some kind =>
          if !endsIndicator inFlow r.second? then r
          else
            let margin := if inFlow then r.margin else r.column + 1
            let inner := { r with margin := margin, behindKey := r.behindKey && !inFlow }
            takeProperties fuel (inner.take kind 1).takeBlanks
        | none => r

/-- Back to the context a scalar stands in. -/
def resume (r : Reading) : Reading :=
  { r with context := if 0 < r.depth then .flow else .document }

/-- A plain scalar. It is empty when a comma follows an anchor or tag. -/
def takePlain (r : Reading) : Reading :=
  let n := plainLength (0 < r.depth) r.margin r.rest
  resume { r with rest := r.rest.drop n, pieces := ⟨.plain, r.rest.take n⟩ :: r.pieces }

def takeQuoted (r : Reading) : Reading :=
  let isDouble := r.rest.head? == some CodeUnit.quote
  let length := quotedLength isDouble r.margin (r.rest.drop 1)
  (r.take (if isDouble then .doubleQuoted else .singleQuoted) length).resume

/-- A block scalar with its header; the piece is its lines. -/
def takeBlock (r : Reading) : Except Problem Reading :=
  let line := restOfLine r.rest
  let header := line.takeWhile fun c => !isGap (some c) && c != CodeUnit.hash
  let behind := line.drop header.length
  let comment := behind.dropWhile CodeUnit.isBlank
  let isFolded := header.head? == some (CodeUnit.ofChar '>')
  match blockStyle? ⟨isFolded, 0, .clip⟩ (header.drop 1) with
  | none => .error .badBlockHeader
  | some style =>
    let isComment := comment.head? = some CodeUnit.hash ∧ comment.length < behind.length
    if comment ≠ [] ∧ ¬isComment then .error .badBlockHeader
    else do
      let below := ({ r with rest := r.rest.drop line.length, pieces := [] } : Reading).takeNewline
      let (lines, margin) ← blockLines style r.margin below.rest
      let body := lines.flatten
      let piece : Piece := ⟨.block style, body⟩
      let r := { r with rest := below.rest.drop body.length, pieces := piece :: r.pieces }
      return takeLineStart { r with margin := margin }

/-- One step in block context. -/
def readDocument (r : Reading) : Except Problem Reading :=
  let r := takeProperties (restOfLine r.rest).length r.takeBlanks
  match r.next? with
  | none => .ok r.takeNewline.takeLineStart
  | some c =>
    if c = CodeUnit.hash then .ok r.takeComment.takeNewline.takeLineStart
    else if c = CodeUnit.openBrace then
      .ok { r.take .openMapping 1 with context := .flow, depth := 1, behindKey := false }
    else if c = CodeUnit.openBracket then
      .ok { r.take .openSequence 1 with context := .flow, depth := 1, behindKey := false }
    else if c = CodeUnit.closeBrace then .ok (r.take .closeMapping 1)
    else if c = CodeUnit.closeBracket then .ok (r.take .closeSequence 1)
    else if c = CodeUnit.ofChar '*' then .ok (r.take .reference (nameLength r.rest))
    else if c = CodeUnit.quote ∨ c = CodeUnit.apostrophe then .ok r.takeQuoted
    else if c = CodeUnit.ofChar '|' ∨ c = CodeUnit.ofChar '>' then r.takeBlock
    else .ok r.takePlain

/-- Line ends and blanks inside a flow collection. The result also says how far the
last line is indented, if it starts there. -/
def takeFlowGap (indent : Option Nat) : (fuel : Nat) → Reading → Option Nat × Reading
  | 0, r => (indent, r)
  | fuel + 1, r =>
    let blanks := countBlanks r.rest
    if !r.rest.isEmpty && atLineEnd r.rest then
      let below := r.takeNewline
      let indent := countSpaces below.rest
      takeFlowGap (some indent) fuel
        ({ below with column := indent }.take .space indent).takeBlanks
    else if blanks = 0 then (indent, r)
    else takeFlowGap indent fuel (r.take .space blanks)

/-- The commas at the start of a line inside a flow collection. -/
def takeCommas : (fuel : Nat) → Reading → Reading
  | 0, r => r
  | fuel + 1, r =>
    if r.rest.head? = some CodeUnit.comma then
      takeCommas fuel { (r.take .comma 1).takeBlanks with behindKey := false }
    else r

/-- Whether a line at the given indentation ends a flow collection that is still
open. The end of the outermost one may stand one level to the left. -/
def cutsFlow (r : Reading) (indent : Nat) : Bool :=
  let first := r.next?
  let isEnd := indent + 1 == r.margin && r.depth == 1
    && (first == some CodeUnit.closeBracket || first == some CodeUnit.closeBrace)
  ((indent < r.margin && first != some CodeUnit.hash)
    || (indent == 0 && (marker? r.rest).isSome)) && !isEnd

def closeFlow (r : Reading) (kind : Kind) : Reading :=
  let depth := r.depth - 1
  { r.take kind 1 with
    context := if depth = 0 then .document else .flow, depth := depth, behindKey := true }

/-- One step inside a flow collection. -/
def readFlow (r : Reading) : Except Problem Reading :=
  let (indent, r) := takeFlowGap none (blankLines r.rest).length r
  if indent.any r.cutsFlow then .error .unclosedFlow
  else
    let width := (restOfLine r.rest).length
    let r := takeProperties width (takeCommas width r)
    match r.next? with
    | none => .ok r
    | some c =>
      if c = CodeUnit.hash then .ok r.takeComment
      else if c = CodeUnit.openBrace then
        .ok { r.take .openMapping 1 with depth := r.depth + 1, behindKey := false }
      else if c = CodeUnit.openBracket then
        .ok { r.take .openSequence 1 with depth := r.depth + 1, behindKey := false }
      else if c = CodeUnit.closeBrace then .ok (r.closeFlow .closeMapping)
      else if c = CodeUnit.closeBracket then .ok (r.closeFlow .closeSequence)
      else if c = CodeUnit.ofChar '*' then .ok (r.take .reference (nameLength r.rest))
      else if c = CodeUnit.quote ∨ c = CodeUnit.apostrophe then
        .ok { r with behindKey := true }.takeQuoted
      else if c = CodeUnit.colon ∧ (r.behindKey ∨ isGap r.second?) then
        .ok ({ r with behindKey := false }.take .colon 1).takeBlanks
      else .ok { r with behindKey := false }.takePlain

/-- A line up to a comment that a blank parts from the rest. -/
def upToComment : Text → Text
  | [] => []
  | [c] => [c]
  | c :: d :: t => if c.isBlank && d == CodeUnit.hash then [] else c :: upToComment (d :: t)

/-- The length of a directive without the blanks at its end. -/
def directiveLength (line : Text) : Nat :=
  ((upToComment line).reverse.dropWhile CodeUnit.isBlank).length

/-- One step between documents. -/
def readStream (r : Reading) : Reading :=
  let r := if r.rest.head? = some 0xFEFF then r.take .byteOrderMark 1 else r
  if r.rest.head? = some (CodeUnit.ofChar '%') then
    (r.take .directive (directiveLength (restOfLine r.rest))).takeBlanks.takeComment
  else
    let line := restOfLine r.rest
    let behind := line.dropWhile CodeUnit.isBlank
    if behind.isEmpty ∨ behind.head? = some CodeUnit.hash then
      r.takeBlanks.takeComment.takeNewline
    else takeLineStart { r with pieces := ⟨.contentStart, []⟩ :: r.pieces }

/-- Reads on until the text ends. -/
def run : (fuel : Nat) → Reading → Except Problem (List Piece)
  | 0, r => .error (.unexpected r.rest)
  | fuel + 1, r =>
    if r.rest.isEmpty then .ok r.pieces.reverse
    else do
      let r ← match r.context with
        | .stream => .ok r.readStream
        | .document => r.readDocument
        | .flow => r.readFlow
      run fuel r

end Reading

/-- The lexemes of a text. -/
def scan (t : Text) : Except Problem (List Lexeme) := do
  let pieces ← (Reading.start t).run (3 * t.length + 3)
  return place 0 0 true pieces

end JadeEditor.Yaml
