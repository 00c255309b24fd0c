import JadeEditor.Cli.Commands
import JadeEditor.Cli.Help
import JadeEditor.Cli.Suggestion

/-!
# The command line

The arguments of the program are sorted twice, by the program and by the command
they name. What they ask for is a run of a command, a help text, the version, or
a mistake.
-/

namespace JadeEditor.Cli

set_option autoImplicit false

open Terminal

def programName : Text := utf16 "jade-mode"

def version : Text := utf16 "0.1.0"

def versionFlag : Flag where
  short := some (.ofChar 'V')
  long := utf16 "version"
  description := utf16 "output the version number"

def helpFlag : Flag where
  short := some (.ofChar 'h')
  long := utf16 "help"
  description := utf16 "display help for command"

/-- The flags every command has. -/
def commonFlags : List Flag :=
  [{ short := some (.ofChar 'c'), long := utf16 "config", argument := some (utf16 "path")
     description := utf16 "Path to a .jade-mode.yml config file" },
   { long := utf16 "indent-offset", argument := some (utf16 "n")
     description := utf16 "Columns per indentation unit (overrides config)" },
   { short := some (.ofChar 'v'), long := utf16 "verbose"
     description := utf16 "Show debug logging and error details" }]

def lineFlag : Flag where
  short := some (.ofChar 'l')
  long := utf16 "line"
  argument := some (utf16 "n")
  description := utf16 "Cursor line (1-based)"
  required := true

/-- A flag that asks for JSON. -/
def jsonFlag (description : String) : Flag where
  long := utf16 "json"
  description := utf16 description

def outlineSpec : CommandSpec where
  name := utf16 "outline"
  description := utf16 "List function definitions in buffer order"
  fileDescription := utf16 ".jade file to index"
  flags := jsonFlag "Print the symbol index as JSON" :: commonFlags

def indentSpec : CommandSpec where
  name := utf16 "indent"
  description := utf16 "Re-indent every line, top to bottom"
  fileDescription := utf16 ".jade file to re-indent"
  flags :=
    [{ long := utf16 "check"
       description := utf16 "List lines that would change and exit 1 if any" },
     { short := some (.ofChar 'w'), long := utf16 "write"
       description := utf16 "Write the result back to the file" }] ++ commonFlags

def highlightSpec : CommandSpec where
  name := utf16 "highlight"
  description := utf16 "Print the file with token colours"
  fileDescription := utf16 ".jade file to highlight"
  flags := commonFlags

def navigateSpec : CommandSpec where
  name := utf16 "navigate"
  description := utf16 "Jump to the start (or end) of a function definition"
  fileDescription := utf16 ".jade file to navigate"
  flags :=
    [lineFlag,
     { long := utf16 "column", argument := some (utf16 "n")
       description := utf16 "Cursor column (1-based)", default := some (utf16 "1") },
     { short := some (.ofChar 'e'), long := utf16 "end"
       description := utf16 "Jump to the end of the definition instead of its start" },
     { short := some (.ofChar 'n'), long := utf16 "count", argument := some (utf16 "n")
       description := utf16 "Repeat count", default := some (utf16 "1") },
     jsonFlag "Print the navigation result as JSON"] ++ commonFlags

def specs : List CommandSpec := [outlineSpec, indentSpec, highlightSpec, navigateSpec]

/-! ## Help -/

/-- The name and description of the command that shows help. -/
def helpCommand : Help.Item := (utf16 "help [command]", utf16 "display help for command")

def commandItem (spec : CommandSpec) : Help.Item :=
  (spec.name ++ utf16 " [options] <file>", spec.description)

def programHelp : Text :=
  Help.render (programName ++ utf16 " [options] [command]")
    (utf16 "Indentation, defun navigation and outlines for .jade sources")
    [⟨utf16 "Options:", [versionFlag, helpFlag].map Help.flagItem⟩,
     ⟨utf16 "Commands:", specs.map commandItem ++ [helpCommand]⟩]

def commandHelp (spec : CommandSpec) : Text :=
  Help.render (programName ++ CodeUnit.space :: spec.name ++ utf16 " [options] <file>")
    spec.description
    [⟨utf16 "Arguments:", [(utf16 "file", spec.fileDescription)]⟩,
     ⟨utf16 "Options:", (spec.flags ++ [helpFlag]).map Help.flagItem⟩]

/-! ## Requests -/

/-- Why arguments ask for nothing. -/
inductive Mistake where
  | unknownCommand (name : Text)
  | unknownOption (arg : Text) (known : List Flag)
  | missingValue (f : Flag)
  | missingFlag (f : Flag)
  | missingFile

def Mistake.message : Mistake → Text
  | unknownCommand name =>
    utf16 "error: unknown command '" ++ name ++ utf16 "'"
      ++ suggestion name (specs.map CommandSpec.name ++ [utf16 "help"])
  | unknownOption arg known =>
    utf16 "error: unknown option '" ++ arg ++ utf16 "'"
      ++ (if arg.startsWith doubleHyphen then suggestion arg (known.map Flag.longForm) else [])
  | missingValue f => utf16 "error: option '" ++ f.shown ++ utf16 "' argument missing"
  | missingFlag f => utf16 "error: required option '" ++ f.shown ++ utf16 "' not specified"
  | missingFile => utf16 "error: missing required argument 'file'"

/-- What arguments ask for. -/
inductive Request where
  | version
  /-- The help of the program, asked for or given for want of a command. -/
  | programHelp (asked : Bool)
  | commandHelp (spec : CommandSpec)
  | invoke (i : Invocation)
  | mistake (m : Mistake)

/-- Some argument that is no flag of the command asks for help. -/
def asksForHelp (unknown : List Text) : Bool := unknown.any helpFlag.isTyped

/-- The command that the flags of a specification describe. -/
def commandOf (spec : CommandSpec) (p : Parsed) : Command :=
  if spec.name = indentSpec.name then .indent (p.has (utf16 "check")) (p.has (utf16 "write"))
  else if spec.name = highlightSpec.name then .highlight
  else if spec.name = navigateSpec.name then
    .navigate ((p.value? lineFlag.long).getD []) (p.value? (utf16 "column"))
      (p.value? (utf16 "count")) (p.has (utf16 "end"))
  else .outline

def optionsOf (p : Parsed) : CommonOptions where
  config := p.value? (utf16 "config")
  indentOffset := p.value? (utf16 "indent-offset")
  verbose := p.has (utf16 "verbose")
  json := p.has (utf16 "json")

/-- What a command is asked for. Help comes before mistakes, a missing flag before
unknown ones, and those before a missing file. -/
def commandRequest (spec : CommandSpec) (operands args : List Text) : Request :=
  match parseArguments spec.flags {} args with
  | .error f => .mistake (.missingValue f)
  | .ok p =>
    if asksForHelp p.unknown then .commandHelp spec
    else
      let missing := spec.flags.find? fun f => f.required && !p.has f.long
      match missing, p.unknown, operands ++ p.operands with
      | some f, _, _ => .mistake (.missingFlag f)
      | none, arg :: _, _ => .mistake (.unknownOption arg (spec.flags ++ [helpFlag, versionFlag]))
      | none, [], [] => .mistake .missingFile
      | none, [], file :: _ => .invoke ⟨commandOf spec p, file, optionsOf p⟩

/-- What the command that shows help is asked for; without a name, or with an empty
one, the help of the program. -/
def helpRequest (name : Text) : Request :=
  if name.isEmpty then .programHelp true
  else
    match specs.find? fun s => s.name = name with
    | some spec => .commandHelp spec
    | none => .programHelp false

/-- What the arguments of the program ask for. -/
def request (args : List Text) : Request :=
  match parseArguments [versionFlag] {} args with
  | .error f => .mistake (.missingValue f)
  | .ok p =>
    if p.has versionFlag.long then .version
    else
      match p.operands, p.unknown with
      | [], [] => .programHelp false
      | [], arg :: _ =>
        if asksForHelp p.unknown then .programHelp true
        else .mistake (.unknownOption arg [versionFlag, helpFlag])
      | name :: operands, unknown =>
        match specs.find? fun s => s.name = name with
        | some spec => commandRequest spec operands unknown
        | none =>
          if name = utf16 "help" then helpRequest (operands.headD [])
          else if asksForHelp unknown then .programHelp true
          else .mistake (.unknownCommand name)

/-! ## Running -/

/-- Carries out a request. -/
def Request.perform (r : Request) (fs : FileSystem) (palette : Palette) : Report :=
  match r with
  | .version => { streams := Streams.empty.printLine Cli.version }
  | .programHelp true => { streams := Streams.empty.print Cli.programHelp }
  | .programHelp false => { streams := { err := Cli.programHelp }, exitCode := 1 }
  | .commandHelp spec => { streams := Streams.empty.print (Cli.commandHelp spec) }
  | .invoke i => i.execute fs palette
  | .mistake m => { streams := Streams.empty.errorLine m.message, exitCode := 1 }

/-- Runs the program on its arguments. -/
def runProgram (fs : FileSystem) (palette : Palette) (args : List Text) : Report :=
  (request args).perform fs palette

/-- The paths a request may read. -/
def Request.paths (r : Request) (workingDirectory : Text) : List Text :=
  match r with
  | .invoke i =>
    [i.file, i.options.config.getD (Path.join workingDirectory Settings.fileName)]
  | _ => []

end JadeEditor.Cli
