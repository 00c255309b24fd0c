import JadeEditor.Cli.Program

/-!
# The program

Reads the files a request names, carries the request out and writes what it
leaves behind. Nothing is decided here.
-/

namespace JadeEditor.Main

set_option autoImplicit false

/-- The code by which the system says that permission is missing. -/
def accessDenied : UInt32 := 13

/-- The code by which the system says that a file stands where a directory should. -/
def notDirectory : UInt32 := 20

def readProblem : IO.Error → ReadProblem
  | .noFileOrDirectory .. => .missing
  | .inappropriateType _ code details =>
    if code = notDirectory then .blocked else .other (utf16 details)
  | .permissionDenied _ code details =>
    if code = accessDenied then .denied else .other (utf16 details)
  | error => .other (utf16 error.toString)

/-- A file that could not be written is reported and not looked at again, so nothing is
said about how much of it was. -/
def writeProblem : IO.Error → WriteProblem
  | .permissionDenied _ code details =>
    if code = accessDenied then .denied else .refused (utf16 details)
  | error => .refused (utf16 error.toString)

/-- What a path leads to on disk. -/
def readEntry (path : Text) : IO Entry := do
  if path.isEmpty then return .missing
  let place := (← IO.currentDir) / path.toStringLossy
  if ← place.isDir then return .directory
  try
    return .file (← IO.FS.readBinFile place).toList
  catch error =>
    return .closed (← place.pathExists) (readProblem error)

/-- Writes to a file on disk and gives what the system says against it. -/
def writeFile (path text : Text) : IO (Option WriteProblem) := do
  try
    let place := (← IO.currentDir) / path.toStringLossy
    IO.FS.writeBinFile place ⟨(Utf8.encode text).toArray⟩
    return none
  catch error =>
    return some (writeProblem error)

/-- A file system that knows the given entries, and what a write comes to. -/
def fileSystem (workingDirectory : Text) (entries : List (Text × Entry))
    (writeProblem? : Option WriteProblem) : FileSystem where
  workingDirectory
  entry path := ((entries.find? fun e => e.1 = path).map Prod.snd).getD .missing
  writeProblem? _ _ := writeProblem?

def run (args : List String) : IO UInt32 := do
  let workingDirectory := utf16 (← IO.currentDir).toString
  let stdout ← IO.getStdout
  let stderr ← IO.getStderr
  let request := Cli.request (args.map utf16)
  let entries ← (request.paths workingDirectory).mapM fun path => do
    return (path, ← readEntry path)
  let palette : Terminal.Palette := if ← stdout.isTty then .coloured else .plain
  let perform (problem : Option WriteProblem) : Cli.Report :=
    request.perform (fileSystem workingDirectory entries problem) palette
  -- What a command does up to its write is the same whatever comes of it.
  let problem ← match (perform none).write with
    | some (path, text) => writeFile path text
    | none => pure none
  let report := perform problem
  stdout.putStr report.streams.out.toStringLossy
  stderr.putStr report.streams.err.toStringLossy
  return report.exitCode.toUInt32

end JadeEditor.Main

def main (args : List String) : IO UInt32 := JadeEditor.Main.run args
