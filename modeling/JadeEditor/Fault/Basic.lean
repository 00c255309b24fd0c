import JadeEditor.Data.Basic

/-!
# Faults

What goes wrong at the edges of the program: in settings, files, command input
and the registration of modes. The editing engine itself reports a miss as a
result and never as a fault.
-/

namespace JadeEditor

set_option autoImplicit false

inductive FaultCode where
  | configInvalid
  | fileNotFound
  | fileNotReadable
  | invalidInput
  | duplicateMode
  | internalError
  deriving DecidableEq

namespace FaultCode

def all : List FaultCode :=
  [configInvalid, fileNotFound, fileNotReadable, invalidInput, duplicateMode, internalError]

def name : FaultCode → Text
  | configInvalid => utf16 "CONFIG_INVALID"
  | fileNotFound => utf16 "FILE_NOT_FOUND"
  | fileNotReadable => utf16 "FILE_NOT_READABLE"
  | invalidInput => utf16 "INVALID_INPUT"
  | duplicateMode => utf16 "DUPLICATE_MODE"
  | internalError => utf16 "INTERNAL_ERROR"

end FaultCode

inductive Severity where
  | low
  | medium
  | high
  | critical
  deriving DecidableEq

def Severity.name : Severity → Text
  | low => utf16 "low"
  | medium => utf16 "medium"
  | high => utf16 "high"
  | critical => utf16 "critical"

inductive FaultKind where
  | general
  | config
  | input
  deriving DecidableEq

def FaultKind.name : FaultKind → Text
  | general => utf16 "JadeModeError"
  | config => utf16 "ConfigError"
  | input => utf16 "InputError"

structure Fault where
  kind : FaultKind := .general
  message : Text
  code : FaultCode
  context : Option Data := none
  severity : Severity := .medium
  recoverable : Bool := true

namespace Fault

/-- A fault in the settings. -/
def config (message : Text) (context : Option Data) : Fault :=
  { kind := .config, message, code := .configInvalid, context }

/-- A fault in what a command was given. -/
def input (message : Text) (code : FaultCode) (context : Option Data) : Fault :=
  { kind := .input, message, code, context, severity := .low }

/-- The fields of a fault as data. -/
def toData (f : Fault) : Data :=
  .record ([(utf16 "error", .text f.message), (utf16 "code", .text f.code.name),
    (utf16 "severity", .text f.severity.name), (utf16 "recoverable", .boolean f.recoverable)]
    ++ (f.context.map fun c => (utf16 "context", c)).toList)

end Fault

end JadeEditor
