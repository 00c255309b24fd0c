import JadeEditor.Cli.Invocation
import JadeEditor.Cli.Report
import JadeEditor.Editor.Command
import JadeEditor.Mode.Registry
import JadeEditor.Settings.Load

/-!
# Loading a source file

The settings come first, then the flag that goes over them, then the mode for the
file's extension and last the file itself; the first of these that fails is
reported.
-/

namespace JadeEditor.Cli

set_option autoImplicit false

/-- A source file ready to be worked on. -/
structure Source where
  document : Document
  /-- The line ending of the file, which is kept when it is written back. -/
  ending : LineEnding
  /-- The width of a level of indentation. -/
  unit : Nat

def Source.indenter (s : Source) : Indenter Failure := .lookback s.unit

/-- Lifts a result into a run. -/
def lift {α : Type} : Except Fault α → Run α
  | .ok a => pure a
  | .error f => Run.fail f

/-- The registry of the program: the mode for Jade files. -/
def registry : Registry :=
  match Registry.empty.register .jade with
  | .ok r => r
  | .error _ => .empty

def unsupported (file : Text) : Fault :=
  let expected := Text.join (utf16 ", ") (registry.extensions.map (CodeUnit.dot :: ·))
  .input (utf16 "Unsupported file type: " ++ file ++ utf16 " (expected one of: " ++ expected
    ++ utf16 ")") .invalidInput (some (.record [(utf16 "filePath", .text file)]))

/-- The fault of a source file that cannot be read. -/
def unreadable (file : Text) (problem : ReadProblem) : Fault :=
  let context := some (.record [(utf16 "filePath", .text file)])
  match problem with
  | .missing => .input (utf16 "File not found: " ++ file) .fileNotFound context
  | other =>
    .input (utf16 "Cannot read " ++ file ++ utf16 ": " ++ other.message file) .fileNotReadable
      context

/-- The settings in force: those of the file with the flag over them. -/
def settingsWith (reader : Settings.Reader) (fs : FileSystem) (options : CommonOptions) :
    Except Fault Settings := do
  let loaded ← (Settings.loadWith reader fs options.config none).mapError
    Settings.LoadProblem.toFault
  let overrides ← match options.indentOffset with
    | none => pure []
    | some value => do
      let n ← parsePositive (utf16 "--indent-offset") value
      pure [(Settings.offsetField, Data.ofNat n)]
  (Settings.merge loaded.toData (.record overrides)).mapError Settings.OverrideProblem.toFault

def settings (fs : FileSystem) (options : CommonOptions) : Except Fault Settings :=
  settingsWith .yaml fs options

def loadSourceWith (reader : Settings.Reader) (fs : FileSystem) (style : Style) (file : Text)
    (options : CommonOptions) : Run Source := do
  let settings ← lift (settingsWith reader fs options)
  Run.debug style (utf16 "indent offset: " ++ .ofNat settings.indentOffset)
  if (registry.detect? file).isNone then Run.fail (unsupported file)
  match fs.read file with
  | .error problem => Run.fail (unreadable file problem)
  | .ok text => return ⟨.ofText text, .detect text, settings.indentOffset⟩

def loadSource (fs : FileSystem) (style : Style) (file : Text) (options : CommonOptions) :
    Run Source := loadSourceWith .yaml fs style file options

end JadeEditor.Cli
