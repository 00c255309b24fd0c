import JadeEditor.Text.Basic

/-!
# Line endings

A text is cut into lines at every line feed, together with a carriage return
right before it, and joined again with one kind of ending throughout.
-/

namespace JadeEditor

set_option autoImplicit false

inductive LineEnding where
  | lf
  | crlf
  deriving DecidableEq

namespace LineEnding

def text : LineEnding → Text
  | lf => [CodeUnit.lineFeed]
  | crlf => [CodeUnit.carriageReturn, CodeUnit.lineFeed]

/-- The ending of the text: `crlf` as soon as it occurs once. -/
def detect (t : Text) : LineEnding := if Text.has crlf.text t then crlf else lf

end LineEnding

namespace Text

/-- The first line of a text and the lines behind it. -/
def splitLines : Text → Text × List Text
  | [] => ([], [])
  | c :: t =>
    let (line, more) := splitLines t
    if c = CodeUnit.lineFeed then ([], line :: more)
    else if c = CodeUnit.carriageReturn ∧ t.head? = some CodeUnit.lineFeed then (line, more)
    else (c :: line, more)

/-- The lines of a text, at least one. -/
def lines (t : Text) : List Text := (splitLines t).1 :: (splitLines t).2

/-- The lines with the given ending between neighbours. -/
def unlines (ending : LineEnding) (ls : List Text) : Text := join ending.text ls

@[simp] theorem lines_ne_nil (t : Text) : t.lines ≠ [] := by simp [lines]

end Text

end JadeEditor
