import JadeEditor.Text.Basic

/-!
# The shape of a line

What the editor can tell from a single line of text: whether it defines a
function, whether it opens or closes a block, how far it is indented and where
its comment starts. Nothing here looks at a second line.
-/

namespace JadeEditor.Line

set_option autoImplicit false

/-- A definition header `fn name ()`, cut into its parts. -/
structure Header where
  /-- The white space between the keyword and the name. -/
  gap : Text
  name : Text
  /-- The white space between the name and the parameter list. -/
  pad : Text
  rest : Text
  deriving DecidableEq

namespace Header

/-- The header as it is written. -/
def text (h : Header) : Text :=
  CodeUnit.ofChar 'f' :: CodeUnit.ofChar 'n' ::
    (h.gap ++ h.name ++ h.pad ++ CodeUnit.openParen :: CodeUnit.closeParen :: h.rest)

/-- Reads a header at the start of a line. Only the empty parameter list is
recognised. -/
def parse? : Text → Option Header
  | f :: n :: line =>
    let gap := line.takeWhile CodeUnit.isSpace
    let named := line.dropWhile CodeUnit.isSpace
    let name := named.takeWhile CodeUnit.isWord
    let padded := named.dropWhile CodeUnit.isWord
    let pad := padded.takeWhile CodeUnit.isSpace
    match padded.dropWhile CodeUnit.isSpace with
    | p :: q :: rest =>
      if f = CodeUnit.ofChar 'f' ∧ n = CodeUnit.ofChar 'n' ∧ gap ≠ []
          ∧ name.head?.any CodeUnit.isNameStart
          ∧ p = CodeUnit.openParen ∧ q = CodeUnit.closeParen then
        some ⟨gap, name, pad, rest⟩
      else none
    | _ => none
  | _ => none

/-- The column the name starts at. -/
def nameStart (h : Header) : Nat := 2 + h.gap.length

def nameStop (h : Header) : Nat := h.nameStart + h.name.length

/-- The length of the header up to and including its parameter list. -/
def length (h : Header) : Nat := h.nameStop + h.pad.length + 2

end Header

/-- The name of the function defined on this line. -/
def definedName? (line : Text) : Option Text := (Header.parse? line).map Header.name

def isDefinition (line : Text) : Bool := (Header.parse? line).isSome

/-- The line ends in `{` and white space. -/
def opensBlock (line : Text) : Bool :=
  (line.reverse.dropWhile CodeUnit.isSpace).head? == some CodeUnit.openBrace

/-- The first unit that is not white space is `}`. -/
def closesBlock (line : Text) : Bool :=
  (line.dropWhile CodeUnit.isSpace).head? == some CodeUnit.closeBrace

def isBlank (line : Text) : Bool := line.all CodeUnit.isSpace

/-- The number of leading spaces. A tab is no space. -/
def indentation (line : Text) : Nat := (line.takeWhile (· == CodeUnit.space)).length

/-- The part before the first `//`. The language has no string literals, so
every `//` starts a comment. -/
def code : Text → Text
  | c :: d :: line =>
    if c = CodeUnit.slash ∧ d = CodeUnit.slash then [] else c :: code (d :: line)
  | line => line

/-- The leading spaces and tabs, which a change of indentation replaces. -/
def margin (line : Text) : Text := line.takeWhile CodeUnit.isBlank

/-- The line without its margin. -/
def body (line : Text) : Text := line.dropWhile CodeUnit.isBlank

/-- The line with a margin of `level` spaces. -/
def indentTo (level : Nat) (line : Text) : Text := Text.spaces level ++ body line

@[simp] theorem code_nil : code [] = [] := rfl

theorem margin_append_body (line : Text) : margin line ++ body line = line :=
  List.takeWhile_append_dropWhile

end JadeEditor.Line
