import JadeEditor.Yaml.Span

/-!
# The text of a scalar

Line ends inside a scalar are folded: one of them stands for a space, and of
several the first stands for nothing. In a literal block scalar they stand for
themselves.
-/

namespace JadeEditor.Yaml

set_option autoImplicit false

def dropBlanks (t : Text) : Text := t.dropWhile CodeUnit.isBlank

/-- Without the blanks at the end. -/
def trimBlanks (t : Text) : Text := (t.reverse.dropWhile CodeUnit.isBlank).reverse

/-- Without one carriage return at the end. -/
def dropReturn (t : Text) : Text :=
  if t.getLast? = some CodeUnit.carriageReturn then t.dropLast else t

/-- The lines behind the first one. `gap` is what stands for the line ends read
last. -/
def foldLinesFrom (gap : Text) : List Text → Text
  | [] => gap
  | [last] => gap ++ dropBlanks last
  | line :: below =>
    let content := dropBlanks (trimBlanks (dropReturn line))
    if content ≠ [] then gap ++ content ++ foldLinesFrom [CodeUnit.space] below
    else if gap = [CodeUnit.lineFeed] then CodeUnit.lineFeed :: foldLinesFrom gap below
    else foldLinesFrom [CodeUnit.lineFeed] below

/-- Folds the lines of a plain or single-quoted scalar. -/
def foldLines (t : Text) : Text :=
  match Text.splitOn CodeUnit.lineFeed t with
  | (_, []) => t
  | (first, below) =>
    trimBlanks (dropReturn first) ++ foldLinesFrom [CodeUnit.space] below

/-- The units that cannot start a plain scalar. -/
def isBadStart (c : CodeUnit) : Bool :=
  c == CodeUnit.tab || (utf16 ",%|>@\x60").contains c

def plainContent (t : Text) : Except Problem Text :=
  match t.head? with
  | some c => if isBadStart c then .error (.badStart [c]) else .ok (foldLines t)
  | none => .ok []

/-- Whether a text is enclosed in the given quotes. -/
def isQuotedBy (quote : CodeUnit) (t : Text) : Bool :=
  1 < t.length && t.getLast? == some quote

def singleContent (t : Text) : Except Problem Text :=
  if isQuotedBy CodeUnit.apostrophe t then
    .ok (Text.replaceAll (utf16 "''") (utf16 "'") (foldLines (t.drop 1).dropLast))
  else .error .unclosedQuote

/-- The value of an escape of one letter. -/
def escapeValue? (c : CodeUnit) : Option CodeUnit :=
  let table : List (Char × CodeUnit) := [('0', 0x00), ('a', 0x07), ('b', 0x08), ('t', 0x09),
    ('\t', 0x09), ('n', 0x0A), ('v', 0x0B), ('f', 0x0C), ('r', 0x0D), ('e', 0x1B), (' ', 0x20),
    ('\x22', 0x22), ('/', 0x2F), ('\x5C', 0x5C), ('N', 0x85), ('_', 0xA0), ('L', 0x2028),
    ('P', 0x2029)]
  (table.find? fun e => CodeUnit.ofChar e.1 == c).map Prod.snd

/-- The number of hexadecimal digits behind an escape letter. -/
def escapeWidth? (c : CodeUnit) : Option Nat :=
  if c = CodeUnit.ofChar 'x' then some 2
  else if c = CodeUnit.ofChar 'u' then some 4
  else if c = CodeUnit.ofChar 'U' then some 8
  else none

/-- The value of a text of digits to the given base. -/
def digitsTo? (base : Nat) (t : Text) : Option Nat :=
  if t.isEmpty then none
  else t.foldl (fun n? c => do
    let n ← n?
    let d ← c.hexValue?
    if d < base then some (base * n + d) else none) (some 0)

/-- The units of an escape with hexadecimal digits. -/
def escapeUnits? (width : Nat) (t : Text) : Option Text :=
  if t.length < width then none
  else (digitsTo? 16 (t.take width)).bind fun n =>
    if 0x10FFFF < n then none else some (scalarUnits n)

/-- What the line ends at the start of a double-quoted scalar's rest stand for; one
has been read. -/
def foldedEnds (blank : Text) : Text :=
  match blank.filter (· == CodeUnit.lineFeed) with
  | [] => [CodeUnit.space]
  | ends => ends

/-- The text of a double-quoted scalar behind its opening quote. The last unit is
the closing one, and the next `skip` units have been read. -/
def doubleContentFrom (skip : Nat) : Text → Except Problem Text
  | [] => .ok []
  | [_] => .ok []
  | c :: d :: t =>
    let rest := d :: t
    match skip with
    | k + 1 => doubleContentFrom k rest
    | 0 =>
      if c = CodeUnit.carriageReturn ∧ d = CodeUnit.lineFeed then doubleContentFrom 0 rest
      else if c = CodeUnit.lineFeed then do
        let blank := blankLines rest
        return foldedEnds blank ++ (← doubleContentFrom blank.length rest)
      else if c = CodeUnit.backslash then
        match escapeValue? d, escapeWidth? d with
        | some v, _ => do return v :: (← doubleContentFrom 1 rest)
        | none, some width =>
          match escapeUnits? width t with
          | some units => do return units ++ (← doubleContentFrom (width + 1) rest)
          | none => .error .badEscape
        | none, none =>
          if d = CodeUnit.lineFeed then doubleContentFrom (1 + countBlanks t) rest
          else if d = CodeUnit.carriageReturn ∧ t.head? = some CodeUnit.lineFeed then
            doubleContentFrom (2 + countBlanks (t.drop 1)) rest
          else .error .badEscape
      else if c.isBlank then
        let width := countBlanks rest
        let behind := rest.drop width
        if !behind.isEmpty && atLineEnd behind then doubleContentFrom width rest
        else do return c :: rest.take width ++ (← doubleContentFrom width rest)
      else do return c :: (← doubleContentFrom 0 rest)

def doubleContent (t : Text) : Except Problem Text :=
  if isQuotedBy CodeUnit.quote t then doubleContentFrom 0 (t.drop 1) else .error .unclosedQuote

/-- A line of a block scalar: its indentation and the rest. -/
structure BlockLine where
  indent : Nat
  content : Text
  deriving DecidableEq

namespace BlockLine

def ofText (line : Text) : BlockLine := ⟨countSpaces line, line.drop (countSpaces line)⟩

def isEmpty (l : BlockLine) : Bool := (dropReturn l.content).isEmpty

/-- The spaces of the indentation that belong to the text. -/
def extra (margin : Nat) (l : BlockLine) : Text := Text.spaces (l.indent - margin)

end BlockLine

/-- The indentation that does not belong to the text of a block scalar. The empty
lines above the first other one must not be indented deeper. -/
def blockMargin (isGiven isRoot : Bool) (margin : Nat) :
    List BlockLine → Except Problem Nat
  | [] => .ok margin
  | l :: below =>
    if l.isEmpty then
      blockMargin isGiven isRoot (if isGiven then margin else max margin l.indent) below
    else if l.indent < margin then .error .badIndentation
    else
      let margin := if isGiven then margin else l.indent
      if margin = 0 ∧ !isRoot then .error .badIndentation else .ok margin

/-- The lines of a literal block scalar. `gap` stands between the last line and the
next. -/
def literalFrom (margin : Nat) (gap : Text) : List BlockLine → Text
  | [] => []
  | l :: below =>
    gap ++ l.extra margin ++ dropReturn l.content
      ++ literalFrom margin [CodeUnit.lineFeed] below

/-- The lines of a folded block scalar. Line ends next to a line that is indented
deeper are kept; `afterDeeper` says that the last line was one. -/
def foldedFrom (margin : Nat) (gap : Text) (afterDeeper : Bool) : List BlockLine → Text
  | [] => []
  | l :: below =>
    let newline : Text := [CodeUnit.lineFeed]
    let content := dropReturn l.content
    if margin < l.indent ∨ content.head? = some CodeUnit.tab then
      let gap :=
        if gap = [CodeUnit.space] then newline
        else if !afterDeeper ∧ gap = newline then newline ++ newline
        else gap
      gap ++ l.extra margin ++ content ++ foldedFrom margin newline true below
    else if content.isEmpty then
      if gap = newline then newline ++ foldedFrom margin gap afterDeeper below
      else foldedFrom margin newline afterDeeper below
    else gap ++ content ++ foldedFrom margin [CodeUnit.space] false below

/-- The text of a block scalar in a collection at the given indentation. -/
def blockContent (style : BlockStyle) (isRoot : Bool) (around : Nat) (t : Text) :
    Except Problem Text :=
  let newline : Text := [CodeUnit.lineFeed]
  let (first, more) := Text.splitOn CodeUnit.lineFeed t
  let lines := if t.isEmpty then [] else (first :: more).map BlockLine.ofText
  let body := (lines.reverse.dropWhile BlockLine.isEmpty).reverse
  if body.isEmpty then
    .ok (if style.chomping = .keep ∧ lines ≠ [] then
      List.replicate (max 1 (lines.length - 1)) CodeUnit.lineFeed else [])
  else do
    let margin ← blockMargin (style.indent ≠ 0) isRoot (around + style.indent) body
    let tail := (lines.drop body.length).reverse.dropWhile fun l => l.indent ≤ margin
    let ends := lines.drop (body.length + tail.length)
    let text := lines.take (body.length + tail.length)
    let leading := text.takeWhile BlockLine.isEmpty
    let inner := text.drop leading.length
    if inner.any fun l => !l.isEmpty && l.indent < margin then .error .badIndentation
    let above := leading.flatMap fun l => l.extra margin ++ newline
    let shown :=
      if style.folded then foldedFrom margin [] false inner else literalFrom margin [] inner
    let value := above ++ shown
    match style.chomping with
    | .strip => return value
    | .clip => return value ++ newline
    | .keep =>
      let kept := value ++ ends.flatMap fun l => newline ++ l.extra margin
      return if kept.getLast? = some CodeUnit.lineFeed then kept else kept ++ newline

end JadeEditor.Yaml
