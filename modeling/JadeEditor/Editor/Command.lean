import JadeEditor.Editor.Edit
import JadeEditor.Number.Shortest
import JadeEditor.Structure.Indent
import JadeEditor.Structure.Travel

/-!
# Editing commands

What a keystroke does: a new line, a closing brace, indenting the current line
and moving by definitions; and the re-indentation of a whole document, which asks
for every line that is not blank to be indented, from top to bottom.
-/

namespace JadeEditor

set_option autoImplicit false

/-- How a new line was made. -/
inductive NewlineKind where
  /-- An empty block: a line for its body and one for its closing brace. -/
  | bracePair
  | plain
  deriving DecidableEq

def NewlineKind.name : NewlineKind → Text
  | bracePair => utf16 "brace-pair"
  | plain => utf16 "plain"

structure Newline where
  kind : NewlineKind
  /-- The indentation of the line the cursor ends on. -/
  indent : Int
  deriving DecidableEq

/-- The lines after re-indentation, and the numbers of those that changed. -/
structure Reindented where
  lines : List Text
  changed : List Nat
  deriving DecidableEq

namespace Editor

/-- The level a rule gives for a line of the current document. -/
def levelAt (indenter : Indenter Failure) (line : Int) : Edit Int := do
  match indenter.levelAt (← get).document line with
  | .ok level => pure level
  | .error failure => throw failure

/-- Makes the body line and the closing line of an empty block, and puts the cursor
on the body line. -/
def splitBracePair (indent unit : Int) : Edit Newline := do
  insertLineBreak
  indentLine ((indent + unit : Int) : Rat)
  let body := (← get).document.cursor
  insertLineBreak
  indentLine (indent : Rat)
  insertText [CodeUnit.closeBrace]
  setCursor body.position
  return ⟨.bracePair, indent + unit⟩

/-- Breaks the line and indents the new one. -/
def splitPlain (level : Int) : Edit Newline := do
  insertLineBreak
  indentLine (level : Rat)
  return ⟨.plain, level⟩

/-- A new line: right behind an opening brace it makes an empty block, elsewhere it
is indented from the current line alone. -/
def newline (unit : Int) : Edit Newline := do
  let d := (← get).document
  let indent : Int := Line.indentation d.currentLine
  if Line.opensBlock d.textBeforeCursor then atomic (splitBracePair indent unit)
  else atomic (splitPlain (if Line.opensBlock d.currentLine then indent + unit else indent))

/-- Inserts a closing brace, and indents the line if the brace comes first on it. -/
def closeBrace (indenter : Indenter Failure) : Edit Unit := atomic do
  insertText [CodeUnit.closeBrace]
  let d := (← get).document
  if Line.closesBlock d.currentLine then
    indentLine ((← levelAt indenter d.cursor.line : Int) : Rat)

/-- Indents the cursor's line and gives the level. -/
def indentCurrentLine (indenter : Indenter Failure) : Edit Int := do
  let level ← levelAt indenter (← get).document.cursor.line
  atomic (indentLine (level : Rat))
  return level

/-- The newline command: logs what it did. -/
def newlineCommand (indenter : Indenter Failure) : Edit Newline := do
  let result ← newline indenter.unit
  modify (·.say (utf16 "newline: " ++ result.kind.name ++ utf16 " split, indent "
    ++ .ofInt result.indent))
  return result

/-- Puts the cursor where a travel ended and logs why it ended early. -/
def follow (command : Text) (travel : Travel) : Edit Travel := do
  setCursor travel.position
  match travel.outcome with
  | .done => pure ()
  | .exhausted =>
    modify (·.say (command ++ utf16 ": stopped after " ++ .ofInt travel.steps
      ++ utf16 " step(s), nothing further"))
  | .unbalanced =>
    modify (·.say (command ++ utf16 ": no matching end found, cursor left in place"))
  return travel

def jumpToStart (count : Int) : Edit Travel := do
  let d := (← get).document
  follow (utf16 "beginning-of-defun") (d.toDefinitionStart d.cursor.position count)

def jumpToEnd (count : Int) : Edit Travel := do
  let d := (← get).document
  follow (utf16 "end-of-defun") (d.toBlockEnd d.cursor.position count)

/-- Indents the lines with the given texts, the first of which has number `line`, and
gives the numbers of those whose text changed. -/
def reindentFrom (indenter : Indenter Failure) (line : Nat) : List Text → Edit (List Nat)
  | [] => return []
  | t :: ts => do
    if Line.isBlank t then reindentFrom indenter (line + 1) ts
    else
      setCursor ⟨line, 0⟩
      let _ ← indentCurrentLine indenter
      let changed := (← get).document.lineText line ≠ t
      let more ← reindentFrom indenter (line + 1) ts
      return if changed then line :: more else more

def reindent (indenter : Indenter Failure) : Edit Reindented := do
  let changed ← reindentFrom indenter 0 (← get).document.lines
  return ⟨(← get).document.lines, changed⟩

end Editor

end JadeEditor
