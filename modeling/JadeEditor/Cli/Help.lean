import JadeEditor.Cli.Flag

/-!
# Help texts

A help text has a usage line, a description and lists of terms with their
descriptions in a second column, which is wrapped to the width of the screen.
-/

namespace JadeEditor.Cli

set_option autoImplicit false

structure CommandSpec where
  name : Text
  description : Text
  /-- What the file operand is for. -/
  fileDescription : Text
  flags : List Flag

namespace Help

def screenWidth : Nat := 80

/-- A term and its description. -/
abbrev Item := Text × Text

structure Section where
  title : Text
  items : List Item

/-- Adds words to a line as long as it stays shorter than `width`. -/
def fill (width : Nat) (line : Text) : List Text → List Text
  | [] => [line]
  | word :: words =>
    if line.length + 1 + word.length < width then fill width (line ++ CodeUnit.space :: word) words
    else line :: fill width word words

/-- The lines of a text that are shorter than `width`. -/
def wrapLines (width : Nat) (t : Text) : List Text :=
  let (word, words) := t.splitOn CodeUnit.space
  fill width word words

/-- An item under the given width of the first column. -/
def itemText (termWidth : Nat) (item : Item) : Text :=
  let column := termWidth + 2
  let lines := wrapLines (screenWidth - 2 - column) item.2
  utf16 "  " ++ item.1.padEnd column
    ++ Text.join (CodeUnit.lineFeed :: Text.spaces (column + 2)) lines

def sectionText (termWidth : Nat) (s : Section) : Text :=
  s.title ++ [CodeUnit.lineFeed]
    ++ s.items.flatMap fun item => itemText termWidth item ++ [CodeUnit.lineFeed]

/-- A help text; the sections share one width of the first column. -/
def render (usage description : Text) (sections : List Section) : Text :=
  let terms := sections.flatMap fun s => s.items.map Prod.fst
  let width := (terms.map List.length).foldl max 0
  utf16 "Usage: " ++ usage ++ utf16 "\n\n" ++ description ++ utf16 "\n"
    ++ sections.flatMap fun s => CodeUnit.lineFeed :: sectionText width s

def flagItem (f : Flag) : Item :=
  (f.shown, f.description ++ match f.default with
    | some value => utf16 " (default: \"" ++ value ++ utf16 "\")"
    | none => [])

end Help

end JadeEditor.Cli
