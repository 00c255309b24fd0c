import JadeEditor.Fault.Basic
import JadeEditor.Files.Entry
import JadeEditor.Settings.Basic
import JadeEditor.Yaml.Document

/-!
# Loading settings

A settings file that is named must exist; the one looked for by default may be
missing. An empty file stands for the default settings. Values given on the
command line go over those of the file, and the result is validated again.

How the text of a file is read is a parameter: nothing here depends on the notation.
-/

namespace JadeEditor.Settings

set_option autoImplicit false

/-- Why there are no settings. -/
inductive LoadProblem where
  | notFound (path : Text)
  | unreadable (path reason : Text)
  | invalid (path : Text) (issues : List Issue)

namespace LoadProblem

/-- One issue a line. -/
def issueLine (i : Issue) : Text :=
  let path := if i.path.isEmpty then utf16 "(root)" else i.path
  utf16 "  - " ++ path ++ utf16 ": " ++ i.problem.message

def path : LoadProblem → Text
  | notFound path => path
  | unreadable path _ => path
  | invalid path _ => path

def message : LoadProblem → Text
  | notFound path => utf16 "Config file not found: " ++ path
  | unreadable path reason => utf16 "Failed to parse " ++ path ++ utf16 ": " ++ reason
  | invalid path issues =>
    utf16 "Invalid config in " ++ path ++ utf16 ":\n"
      ++ Text.join [CodeUnit.lineFeed] (issues.map issueLine)

def toFault (p : LoadProblem) : Fault :=
  .config p.message (some (.record [(utf16 "configPath", .text p.path)]))

end LoadProblem

/-- A way to read the text of a settings file: it gives the value, if there is one, or the
words for why there is none to be had. -/
abbrev Reader := Text → Except Text (Option Data)

/-- The notation that settings files are written in. -/
def Reader.yaml : Reader := fun t => ((Yaml.read t).map some).mapError Yaml.Problem.message

/-- The settings in the text of a settings file. -/
def ofText (reader : Reader) (path t : Text) : Except LoadProblem Settings :=
  match reader t with
  | .error reason => .error (.unreadable path reason)
  | .ok none | .ok (some .null) => .ok default
  | .ok (some d) => (validate d).mapError (.invalid path)

/-- The settings in a file that exists. -/
def ofFile (reader : Reader) (fs : FileSystem) (path : Text) : Except LoadProblem Settings :=
  match fs.read path with
  | .error problem => .error (.unreadable path (problem.message path))
  | .ok t => ofText reader path t

/-- Where settings are looked for when no file is named. -/
def defaultPath (fs : FileSystem) (root : Option Text) : Text :=
  Path.join (root.getD fs.workingDirectory) fileName

/-- The settings of the named file, or of the default one. -/
def loadWith (reader : Reader) (fs : FileSystem) (named root : Option Text) :
    Except LoadProblem Settings :=
  match named with
  | some path => if fs.hasEntry path then ofFile reader fs path else .error (.notFound path)
  | none =>
    let path := defaultPath fs root
    if fs.hasEntry path then ofFile reader fs path else .ok default

def load (fs : FileSystem) (named root : Option Text) : Except LoadProblem Settings :=
  loadWith .yaml fs named root

/-- Why values given over the settings are refused. -/
structure OverrideProblem where
  issues : List Issue
  overrides : Data

namespace OverrideProblem

def message (p : OverrideProblem) : Text :=
  utf16 "Invalid option override: "
    ++ Text.join (utf16 ", ") (p.issues.map fun i => i.path ++ utf16 ": " ++ i.problem.message)

def toFault (p : OverrideProblem) : Fault :=
  .config p.message (some (.record [(utf16 "overrides", p.overrides)]))

end OverrideProblem

/-- The members of the base with the width given in `overrides`, if one is given. -/
def overridden (base overrides : Data) : Data :=
  match overrides.field? offsetField with
  | some value => .record (Data.setField base.members offsetField value)
  | none => .record base.members

/-- Puts the overrides over the base and validates the result. -/
def merge (base overrides : Data) : Except OverrideProblem Settings :=
  (validate (overridden base overrides)).mapError (⟨·, overrides⟩)

end JadeEditor.Settings
