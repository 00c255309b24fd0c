import JadeEditor.Line.Shape

/-!
# Tokens of a line

Highlighting rules are data: a category, a pattern and the part of a match that
becomes the token. A rule is applied at every column from left to right, going on
behind each match; rules are tried in order, and a span that overlaps an earlier
token is dropped.
-/

namespace JadeEditor.Line

set_option autoImplicit false

inductive Category where
  | comment
  | functionName
  | keyword
  | typeName
  deriving DecidableEq

/-- Columns `start` up to but not including `stop`. -/
structure Span where
  start : Nat
  stop : Nat
  deriving DecidableEq

namespace Span

/-- The two spans have a column in common. -/
def overlaps (a b : Span) : Bool := a.start < b.stop && b.start < a.stop

def shift (n : Nat) (s : Span) : Span := ⟨n + s.start, n + s.stop⟩

end Span

structure Token where
  category : Category
  span : Span
  deriving DecidableEq

/-- What a rule looks for. -/
inductive Pattern where
  /-- Two slashes and everything behind them up to the end of the text, which no
  line terminator may interrupt. -/
  | comment
  /-- A definition header at the start of the line; captures the name. -/
  | header
  /-- One of the words, the first that fits, with no word unit on either side. -/
  | word (choices : List Text) (anyCase : Bool)
  /-- A run of digits, which may be empty. -/
  | digits
  /-- The first unit with or without the second behind it; captures the second. -/
  | optional (lead tail : CodeUnit)

/-- A match at some column: its length, and the captured part counted from there. -/
structure Match where
  length : Nat
  capture : Option Span

namespace Pattern

/-- Whether exactly one of two neighbours is a word unit. -/
def isBoundary (before after : Option CodeUnit) : Bool :=
  before.any CodeUnit.isWord != after.any CodeUnit.isWord

/-- The word stands at the start of the text and does not go on behind it. -/
def wordAt (anyCase : Bool) (rest word : Text) : Bool :=
  let seen := rest.take word.length
  (seen == word || (anyCase && seen.map CodeUnit.asciiLower == word.map CodeUnit.asciiLower))
    && isBoundary word.getLast? (rest.drop word.length).head?

/-- The match of the pattern at the start of `rest`, where `before` is the unit to
the left, if any. -/
def matchAt (before : Option CodeUnit) (rest : Text) : Pattern → Option Match
  | comment =>
    if rest.startsWith [CodeUnit.slash, CodeUnit.slash] && !rest.any CodeUnit.isLineTerminator then
      some ⟨rest.length, none⟩
    else none
  | header =>
    match before with
    | some _ => none
    | none => (Header.parse? rest).map fun h => ⟨h.length, some ⟨h.nameStart, h.nameStop⟩⟩
  | word choices anyCase =>
    if isBoundary before rest.head? then
      (choices.find? (wordAt anyCase rest)).map fun w => ⟨w.length, none⟩
    else none
  | digits => some ⟨(rest.takeWhile CodeUnit.isDigit).length, none⟩
  | optional lead tail =>
    match rest with
    | [] => none
    | c :: rest =>
      if c ≠ lead then none
      else if rest.head? = some tail then some ⟨2, some ⟨1, 2⟩⟩
      else some ⟨1, none⟩

end Pattern

/-- The part of a match that becomes the token. -/
inductive Part where
  | whole
  | capture
  deriving DecidableEq

def Part.of (part : Part) (m : Match) : Option Span :=
  match part with
  | .whole => some ⟨0, m.length⟩
  | .capture => m.capture

structure Rule where
  category : Category
  pattern : Pattern
  part : Part

namespace Rule

/-- The spans of the successive matches, empty ones left out. `skip` units belong
to the match before. -/
def spansFrom (rule : Rule) (before : Option CodeUnit) (column skip : Nat) : Text → List Span
  | [] => []
  | c :: rest =>
    match skip with
    | k + 1 => spansFrom rule (some c) (column + 1) k rest
    | 0 =>
      match rule.pattern.matchAt before (c :: rest) with
      | none => spansFrom rule (some c) (column + 1) 0 rest
      | some m =>
        let here := (rule.part.of m).toList.filter fun s => s.start < s.stop
        here.map (Span.shift column) ++ spansFrom rule (some c) (column + 1) (m.length - 1) rest

def spans (rule : Rule) (line : Text) : List Span := rule.spansFrom none 0 0 line

/-- The span of every comment. -/
def comment : Rule := ⟨.comment, .comment, .whole⟩

def functionName : Rule := ⟨.functionName, .header, .capture⟩

def keyword : Rule :=
  ⟨.keyword, .word [[CodeUnit.ofChar 'f', CodeUnit.ofChar 'n'],
    ['r', 'e', 't', 'u', 'r', 'n'].map CodeUnit.ofChar] false, .whole⟩

def typeName : Rule := ⟨.typeName, .word [['i', '3', '2'].map CodeUnit.ofChar] false, .whole⟩

/-- The rules of the language, most specific first, so that the name in
`fn return_value()` stays a function name. -/
def standard : List Rule := [comment, functionName, keyword, typeName]

end Rule

namespace Token

/-- Adds a token of the given category unless it overlaps one that is there. -/
def add (category : Category) (tokens : List Token) (span : Span) : List Token :=
  if tokens.any fun t => span.overlaps t.span then tokens else tokens ++ [⟨category, span⟩]

/-- Adds what one rule finds in the line. -/
def addRule (line : Text) (tokens : List Token) (rule : Rule) : List Token :=
  (rule.spans line).foldl (add rule.category) tokens

/-- Puts a token in its place by start column, behind those that start there too. -/
def insertByStart (t : Token) : List Token → List Token
  | [] => [t]
  | u :: us => if t.span.start < u.span.start then t :: u :: us else u :: insertByStart t us

def sortByStart (tokens : List Token) : List Token :=
  tokens.foldl (fun sorted t => insertByStart t sorted) []

end Token

/-- The tokens of a line under the given rules, from left to right. -/
def classify (rules : List Rule) (line : Text) : List Token :=
  Token.sortByStart (rules.foldl (Token.addRule line) [])

end JadeEditor.Line
