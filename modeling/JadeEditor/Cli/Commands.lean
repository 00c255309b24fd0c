import JadeEditor.Cli.Source
import JadeEditor.Line.Render

/-!
# Commands

The four commands of the program: listing the definitions of a file, indenting
it, showing it with colours, and moving through it by definitions.
-/

namespace JadeEditor.Cli

set_option autoImplicit false

open Terminal

def Invocation.style (i : Invocation) (palette : Palette) : Style :=
  ⟨palette, i.options.verbose, i.options.json⟩

/-! ## Outline -/

def definitionData (d : Definition) : Data :=
  .record [(utf16 "name", .text d.name), (utf16 "line", .ofInt d.line),
    (utf16 "offset", .ofInt d.offset)]

/-- One row for each definition: its name, its line counted from one and its offset. -/
def outlineRows (palette : Palette) (ds : List Definition) : List Text :=
  let width := (ds.map fun d => d.name.length).foldl max 0
  ds.map fun d =>
    palette.paint .blue (d.name.padEnd width) ++ utf16 "  "
      ++ palette.paint .dim
        (utf16 "line " ++ .ofInt (d.line + 1) ++ utf16 ", offset " ++ .ofInt d.offset)

def outline (style : Style) (file : Text) (source : Source) : Run Unit := do
  let ds := source.document.outline
  Run.debug style (file ++ utf16 ": " ++ pluralize ds.length (utf16 "definition"))
  if style.json then Run.printLine (Data.list (ds.map definitionData)).json
  else if ds.isEmpty then
    Run.printLine (style.palette.paint .yellow (utf16 "No function definitions found"))
  else (outlineRows style.palette ds).forM Run.printLine

/-! ## Indentation -/

/-- The document with every line indented, and the numbers of the lines that changed. -/
def reindented (source : Source) : Run (Document × List Nat) :=
  match Editor.reindent source.indenter (.ofDocument source.document) with
  | .ok r s => return (s.document, r.changed)
  | .error failure _ => Run.crash failure.message

/-- Lists the lines that would change. -/
def checkLines (palette : Palette) (file : Text) (changed : List Nat) : Run Unit := do
  if changed.isEmpty then
    Run.printLine (palette.paint .green (utf16 "✓ " ++ file ++ utf16 " is correctly indented"))
  else
    changed.forM fun line =>
      Run.printLine (file ++ CodeUnit.colon :: Text.ofNat (line + 1) ++ utf16 ": "
        ++ palette.paint .yellow (utf16 "indentation differs"))
    let count := pluralize changed.length (utf16 "line")
    Run.printLine (palette.paint .yellow
      (CodeUnit.lineFeed :: count ++ utf16 " would be re-indented"))
    modify fun r => { r with exitCode := 1 }

def indent (fs : FileSystem) (style : Style) (file : Text) (check write : Bool)
    (source : Source) : Run Unit := do
  let (document, changed) ← reindented source
  let count := pluralize changed.length (utf16 "line")
  Run.debug style (file ++ utf16 ": " ++ count ++ utf16 " re-indented")
  if check then checkLines style.palette file changed
  else if write then
    Run.write fs file (document.text source.ending)
    Run.printLine (style.palette.paint .green
      (utf16 "✓ Re-indented " ++ count ++ utf16 " in " ++ file))
  else Run.onStreams (·.print (document.text source.ending))

/-! ## Highlighting -/

def highlight (style : Style) (source : Source) : Run Unit :=
  source.document.lines.forM fun line =>
    Run.printLine (Line.render style.palette Line.Rule.standard line)

/-! ## Navigation -/

def outcomeName : Outcome → Text
  | .done => utf16 "ok"
  | .exhausted => utf16 "no-match"
  | .unbalanced => utf16 "unbalanced"

def travelData (t : Travel) : Data :=
  .record [(utf16 "position",
      .record [(utf16 "line", .ofInt t.position.line), (utf16 "column", .ofInt t.position.column)]),
    (utf16 "steps", .ofInt t.steps), (utf16 "outcome", .text (outcomeName t.outcome))]

/-- Where a travel ended, counted from one, and how. -/
def travelText (file : Text) (t : Travel) : Text :=
  let steps := pluralize t.steps (utf16 "step")
  file ++ CodeUnit.colon :: Text.ofInt (t.position.line + 1)
    ++ CodeUnit.colon :: Text.ofInt (t.position.column + 1)
    ++ match t.outcome with
      | .done => utf16 " (" ++ steps ++ utf16 ")"
      | .exhausted => utf16 " (stopped after " ++ steps ++ utf16 ": no further definition)"
      | .unbalanced => utf16 " (no matching end found)"

def pastEnd (line : Nat) (file : Text) (lineCount : Nat) : Fault :=
  .input (utf16 "--line " ++ .ofNat line ++ utf16 " is past the end of " ++ file ++ utf16 " ("
    ++ .ofNat lineCount ++ utf16 " lines)") .invalidInput none

/-- Moves the cursor of a document and gives the travel and the messages logged. -/
def travel (document : Document) (toEnd : Bool) (count : Nat) : Run (Travel × List Text) :=
  let jump := if toEnd then Editor.jumpToEnd count else Editor.jumpToStart count
  match jump (.ofDocument document) with
  | .ok t s => return (t, s.log)
  | .error failure _ => Run.crash failure.message

def navigate (style : Style) (file : Text) (line column count : Nat) (toEnd : Bool)
    (source : Source) : Run Unit := do
  let lineCount := source.document.lines.length
  if lineCount < line then Run.fail (pastEnd line file lineCount)
  let (t, log) ← travel (source.document.moveTo ⟨line - 1, column - 1⟩) toEnd count
  log.forM (Run.debug style)
  if style.json then Run.printLine (travelData t).json
  else
    let text := travelText file t
    Run.printLine (if t.outcome = .done then text else style.palette.paint .yellow text)

/-- An optional count, one when it is not given. -/
def countOr (name : Text) : Option Text → Except Fault Nat
  | some value => parsePositive name value
  | none => .ok 1

/-! ## Running a command -/

/-- The body of a command. The numbers of a navigation are read before anything else. -/
def body (fs : FileSystem) (style : Style) (i : Invocation) : Run Unit := do
  match i.command with
  | .outline => outline style i.file (← loadSource fs style i.file i.options)
  | .indent check write =>
    indent fs style i.file check write (← loadSource fs style i.file i.options)
  | .highlight => highlight style (← loadSource fs style i.file i.options)
  | .navigate line column count toEnd =>
    let line ← lift (parsePositive (utf16 "--line") line)
    let column ← lift (countOr (utf16 "--column") column)
    let count ← lift (countOr (utf16 "--count") count)
    navigate style i.file line column count toEnd (← loadSource fs style i.file i.options)

/-- Runs a command on a file system. -/
def Invocation.execute (i : Invocation) (fs : FileSystem) (palette : Palette) : Report :=
  let style := i.style palette
  run style (body fs style i)

end JadeEditor.Cli
