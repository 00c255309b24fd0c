import JadeEditor.Text.Basic

/-!
# Output and logging

What a program has written to its two output streams so far. A logger passes
messages of four levels on to a sink. Debug messages can be held back. On the
console, information and debug messages go to the output stream and the others to
the error stream, each on a line under the name of its level.
-/

namespace JadeEditor.Terminal

set_option autoImplicit false

structure Streams where
  out : Text := []
  err : Text := []
  deriving DecidableEq

namespace Streams

def empty : Streams := {}

def print (s : Streams) (t : Text) : Streams := { s with out := s.out ++ t }

def printLine (s : Streams) (t : Text) : Streams := s.print (t ++ [CodeUnit.lineFeed])

def errorLine (s : Streams) (t : Text) : Streams :=
  { s with err := s.err ++ t ++ [CodeUnit.lineFeed] }

end Streams

/-! ## Logging -/

inductive Level where
  | info
  | warning
  | error
  | debug
  deriving DecidableEq

namespace Level

def name : Level → Text
  | info => utf16 "info"
  | warning => utf16 "warning"
  | error => utf16 "error"
  | debug => utf16 "debug"

def line (level : Level) (message : Text) : Text :=
  CodeUnit.openBracket :: level.name ++ CodeUnit.closeBracket :: CodeUnit.space :: message

end Level

/-- Writes a message to the console. -/
def Streams.log (s : Streams) (level : Level) (message : Text) : Streams :=
  match level with
  | .info | .debug => s.printLine (level.line message)
  | .warning | .error => s.errorLine (level.line message)

/-- Where messages go. -/
inductive Sink where
  | console
  | silent
  | record
  deriving DecidableEq

structure Logger where
  sink : Sink
  /-- Whether debug messages are passed on. -/
  verbose : Bool

/-- What became of the messages: those on record, and those on the console. -/
structure Logged where
  record : List (Level × Text) := []
  streams : Streams := {}

namespace Logger

def log (l : Logger) (logged : Logged) (level : Level) (message : Text) : Logged :=
  if level = .debug ∧ !l.verbose then logged
  else
    match l.sink with
    | .silent => logged
    | .record => { logged with record := logged.record ++ [(level, message)] }
    | .console => { logged with streams := logged.streams.log level message }

def logAll (l : Logger) (messages : List (Level × Text)) : Logged :=
  messages.foldl (fun logged m => l.log logged m.1 m.2) {}

end Logger

end JadeEditor.Terminal
