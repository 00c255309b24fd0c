import JadeEditor.Yaml.Lexeme
import JadeEditor.Yaml.Problem

/-!
# How far a scalar reaches

A scalar may go on over several lines. Whether a line goes on with the scalar
depends on the least indentation it needs; at the left margin only a document
marker ends it.
-/

namespace JadeEditor.Yaml

set_option autoImplicit false

/-- Blanks, the units of a line end and the end of the text. -/
def isGap : Option CodeUnit → Bool
  | none => true
  | some c => c.isBlank || c == CodeUnit.lineFeed || c == CodeUnit.carriageReturn

/-- The units that mean something everywhere inside a flow collection. -/
def isFlowMark (c : CodeUnit) : Bool :=
  c == CodeUnit.comma || c == CodeUnit.openBracket || c == CodeUnit.closeBracket
    || c == CodeUnit.openBrace || c == CodeUnit.closeBrace

/-- The units that may follow an indicator; inside a flow collection these are more. -/
def endsIndicator (inFlow : Bool) (c : Option CodeUnit) : Bool :=
  isGap c || (inFlow && c.any isFlowMark)

def countSpaces (t : Text) : Nat := (t.takeWhile (· == CodeUnit.space)).length

def countBlanks (t : Text) : Nat := (t.takeWhile CodeUnit.isBlank).length

/-- The end of the text, a line feed, or a carriage return right before one. -/
def atLineEnd : Text → Bool
  | [] => true
  | c :: t =>
    c == CodeUnit.lineFeed
      || (c == CodeUnit.carriageReturn && t.head? == some CodeUnit.lineFeed)

/-- The blanks and line ends at the start of a text. -/
def blankLines : Text → Text
  | [] => []
  | c :: t =>
    if c.isBlank || c == CodeUnit.lineFeed
        || (c == CodeUnit.carriageReturn && t.head? == some CodeUnit.lineFeed) then
      c :: blankLines t
    else []

/-- The rest of the line, without its end. -/
def restOfLine : Text → Text
  | [] => []
  | c :: t => if atLineEnd (c :: t) then [] else c :: restOfLine t

/-- The marker of a document's start or end, if the text starts with one. -/
def marker? (t : Text) : Option Kind :=
  if !isGap (t.drop 3).head? then none
  else if t.take 3 = utf16 "---" then some .documentStart
  else if t.take 3 = utf16 "..." then some .documentEnd
  else none

/-- Whether a scalar goes on with the line at the start of the text, and with how
much of it at least. `margin` is the indentation the line needs. -/
def continued? (margin : Nat) (t : Text) : Option Nat :=
  if margin = 0 then if (marker? t).isSome then none else some 0
  else
    let indent := countSpaces t
    let rest := t.drop indent
    if rest.head? = some CodeUnit.carriageReturn ∧ atLineEnd rest then some (indent + 1)
    else if rest.head? = some CodeUnit.lineFeed ∨ margin ≤ indent then some indent
    else none

/-- The length of a plain scalar. `passed` units have been looked at, of which
`kept` belong to the scalar, and the next `skip` are indentation. -/
def plainLengthFrom (inFlow : Bool) (margin skip passed kept : Nat) : Text → Nat
  | [] => kept
  | c :: t =>
    match skip with
    | k + 1 => plainLengthFrom inFlow margin k (passed + 1) kept t
    | 0 =>
      if isGap (some c) then
        if c = CodeUnit.carriageReturn ∧ t.head? = some CodeUnit.lineFeed then
          plainLengthFrom inFlow margin 0 (passed + 1) kept t
        else
          let kept := if c = CodeUnit.carriageReturn then passed + 1 else kept
          if t.head? = some CodeUnit.hash ∨ (inFlow ∧ t.head?.any isFlowMark) then kept
          else if c = CodeUnit.lineFeed then
            match continued? margin t with
            | some n => plainLengthFrom inFlow margin (n - 1) (passed + 1) kept t
            | none => kept
          else plainLengthFrom inFlow margin 0 (passed + 1) kept t
      else if c = CodeUnit.colon ∧ endsIndicator inFlow t.head? then kept
      else if inFlow ∧ isFlowMark c then kept
      else plainLengthFrom inFlow margin 0 (passed + 1) (passed + 1) t

def plainLength (inFlow : Bool) (margin : Nat) (t : Text) : Nat :=
  plainLengthFrom inFlow margin 0 0 0 t

/-- The place of the quote that closes a single-quoted scalar; a quote written
twice does not. -/
def singleEnd? (passed : Nat) : Text → Option Nat
  | [] => none
  | [c] => if c = CodeUnit.apostrophe then some passed else none
  | c :: d :: t =>
    if c ≠ CodeUnit.apostrophe then singleEnd? (passed + 1) (d :: t)
    else if d = CodeUnit.apostrophe then singleEnd? (passed + 2) t
    else some passed

/-- The place of the quote that closes a double-quoted scalar; a quote behind a
backslash does not. -/
def doubleEnd? (passed : Nat) : Text → Option Nat
  | [] => none
  | [c] => if c = CodeUnit.quote then some passed else none
  | c :: d :: t =>
    if c = CodeUnit.quote then some passed
    else if c = CodeUnit.backslash then doubleEnd? (passed + 2) t
    else doubleEnd? (passed + 1) (d :: t)

/-- The first of the next `left` units at which a line ends and the scalar does not
go on with the one below. -/
def brokenAt? (margin passed left : Nat) : Text → Option Nat
  | [] => none
  | c :: t =>
    match left with
    | 0 => none
    | k + 1 =>
      if c = CodeUnit.lineFeed ∧ (continued? margin t).isNone then some passed
      else brokenAt? margin (passed + 1) k t

/-- The length of a quoted scalar whose opening quote the text follows, both quotes
included. One that is never closed takes up everything, and one whose lines are
not indented enough ends with the last that is. -/
def quotedLength (isDouble : Bool) (margin : Nat) (t : Text) : Nat :=
  match if isDouble then doubleEnd? 0 t else singleEnd? 0 t with
  | none => t.length + 1
  | some stop =>
    match brokenAt? margin 0 stop t with
    | none => stop + 2
    | some n => if t[n - 1]? = some CodeUnit.carriageReturn ∧ n ≠ 0 then n else n + 1

/-- The header of a block scalar behind its first unit: an indentation from one to
nine and a sign, each at most once. -/
def blockStyle? (style : BlockStyle) : Text → Option BlockStyle
  | [] => some style
  | c :: t =>
    if style.chomping = .clip ∧ c = CodeUnit.hyphen then
      blockStyle? { style with chomping := .strip } t
    else if style.chomping = .clip ∧ c = CodeUnit.plus then
      blockStyle? { style with chomping := .keep } t
    else if style.indent = 0 ∧ c.isDigit ∧ c ≠ CodeUnit.zero then
      blockStyle? { style with indent := c.toNat - CodeUnit.zero.toNat } t
    else none

/-- The lines of a text, each with its end. -/
def rawLines : Text → List Text
  | [] => []
  | c :: t =>
    if c = CodeUnit.lineFeed then [c] :: rawLines t
    else
      match rawLines t with
      | [] => [[c]]
      | line :: below => (c :: line) :: below

/-- A line without its end. -/
def bareLine (line : Text) : Text :=
  let line := if line.getLast? = some CodeUnit.lineFeed then line.dropLast else line
  if line.getLast? = some CodeUnit.carriageReturn then line.dropLast else line

/-- Spaces and nothing else. -/
def isHollow (t : Text) : Bool := t.all (· == CodeUnit.space)

/-- Leaves out the lines at the end of a row that hold at most `indent` spaces; the
first line stays. -/
def dropHollow (indent : Nat) (lines : List Text) : List Text :=
  match lines with
  | [] => []
  | first :: more =>
    let isLoose (line : Text) : Bool :=
      isHollow (bareLine line) && (bareLine line).length ≤ indent
    first :: (more.reverse.dropWhile isLoose).reverse

/-- The lines of a block scalar at the start of the text, and the indentation that
lines below it need to go on with anything. -/
def blockLines (style : BlockStyle) (margin : Nat) (t : Text) :
    Except Problem (List Text × Nat) :=
  let isEmptyLine (line : Text) : Bool :=
    line.getLast? == some CodeUnit.lineFeed && isHollow (bareLine line)
  let lines := rawLines t
  let leading := lines.takeWhile isEmptyLine
  let below := lines.dropWhile isEmptyLine
  let indent := countSpaces (below.head?.getD [])
  let (body, margin) :=
    if indent < margin then (leading, margin)
    else
      let inner :=
        if style.indent = 0 then indent
        else style.indent - 1 + (if margin = 0 then 1 else margin)
      (leading ++ below.takeWhile fun line => (continued? inner line).isSome, inner)
  let next := (lines.drop body.length).head?.getD []
  if (next.drop (countSpaces next)).head? = some CodeUnit.tab then .error .tabIndentation
  else .ok (if style.chomping = .keep then body else dropHollow indent body, margin)

end JadeEditor.Yaml
