import JadeEditor.Data.Json
import JadeEditor.Fault.Raised
import JadeEditor.Files.Tree
import JadeEditor.Terminal.Colour
import JadeEditor.Terminal.Log

/-!
# Reports

What a command leaves behind: its output, its exit code and at most one text that was
handed to the file system. A command that raises something is reported on the error stream or,
when JSON was asked for, as a JSON value on the output stream.
-/

namespace JadeEditor.Cli

set_option autoImplicit false

open Terminal

structure Report where
  streams : Streams := {}
  exitCode : Nat := 0
  /-- The path and the text of a file that was to be written. -/
  write : Option (Text × Text) := none

/-- The files after a command. -/
def Report.applyTo (r : Report) (tree : FileTree) : FileTree :=
  match r.write with
  | some (path, text) => tree.write path (Utf8.encode text)
  | none => tree

/-- A command under way. What it has written stays when it raises something. -/
abbrev Run (α : Type) := EStateM Raised Report α

/-- How output is to be given. -/
structure Style where
  palette : Palette
  verbose : Bool
  json : Bool

namespace Run

def onStreams (f : Streams → Streams) : Run Unit :=
  modify fun r => { r with streams := f r.streams }

def printLine (t : Text) : Run Unit := onStreams (·.printLine t)

/-- Logs a debug message, which only a verbose run shows. -/
def debug (style : Style) (message : Text) : Run Unit :=
  if style.verbose then onStreams (·.log .debug message) else pure ()

def fail {α : Type} (f : Fault) : Run α := throw (.ofFault f)

/-- Raises an error that is no fault. -/
def crash {α : Type} (message : Text) : Run α :=
  throw (.error message (Raised.freshTrace (utf16 "Error") message))

/-- Hands a text to the file system, which is to put it into a file. What the system
says against it is raised. -/
def write (fs : FileSystem) (path text : Text) : Run Unit := do
  modify fun r => { r with write := some (path, text) }
  match fs.writeProblem? path (Utf8.encode text) with
  | some problem => crash (problem.message path)
  | none => pure ()

end Run

/-- The context of a fault as it is shown: none if there is none or it is nothing. -/
def shownContext (f : Fault) : Option Data := f.context.filter fun c => !c.isNothing

/-- The heading of a report, in red. -/
def heading (palette : Palette) (t : Text) : Text :=
  palette.paint .red (utf16 "\n❌ " ++ t ++ utf16 "\n")

/-- A title and a detail, dimmed, each on lines of its own. -/
def detail (palette : Palette) (title body : Text) (s : Streams) : Streams :=
  (s.errorLine (palette.paint .dim title)).errorLine (palette.paint .dim body)

/-- Reports a raised value: with the context of a fault or the trace of another
error if the run is verbose, otherwise with a hint. -/
def describe (palette : Palette) (verbose : Bool) (raised : Raised) (s : Streams) : Streams :=
  let s := match raised with
    | .fault f _ =>
      let s := s.errorLine (heading palette f.message)
      match verbose, shownContext f with
      | true, some context => detail palette (utf16 "Context:") context.json s
      | _, _ => s
    | other =>
      let s := s.errorLine (heading palette (utf16 "Unexpected error: " ++ other.message))
      match verbose, other.trace? with
      | true, some trace =>
        if trace.isEmpty then s else detail palette (utf16 "Stack trace:") trace s
      | _, _ => s
  if verbose then s
  else s.errorLine (palette.paint .dim (utf16 "Run with --verbose for more details\n"))

/-- The fault that stands for a raised value in JSON. -/
def faultOf : Raised → Fault
  | .fault f _ => f
  | other => other.wrapped (utf16 "Unexpected error") none

/-- Runs a command and reports what it raises. -/
def run (style : Style) (body : Run Unit) : Report :=
  match body {} with
  | .ok _ report => report
  | .error raised report =>
    { report with
      exitCode := 1
      streams :=
        if style.json then report.streams.printLine (faultOf raised).toData.json
        else describe style.palette style.verbose raised report.streams }

/-- A count and its noun, which takes an `s` unless there is just one. -/
def pluralize (count : Int) (noun : Text) : Text :=
  .ofInt count ++ CodeUnit.space :: noun ++ (if count = 1 then [] else [CodeUnit.ofChar 's'])

end JadeEditor.Cli
