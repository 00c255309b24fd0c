import JadeEditor.Fault.Basic

/-!
# Raised values

Anything may be raised: a fault, an error of another kind, or a plain value. A
raised error has a trace; wrapping an error in a fault appends the trace of its
cause to the new one.
-/

namespace JadeEditor

set_option autoImplicit false

inductive Raised where
  | fault (f : Fault) (trace : Text)
  | error (message trace : Text)
  /-- A plain value, or none at all. -/
  | value (d : Option Data)

namespace Raised

/-- The trace of an error that has just been made: its kind and its message, and
below them the places it came from. -/
def freshTrace (kind message : Text) : Text :=
  (if message.isEmpty then kind else kind ++ utf16 ": " ++ message) ++ utf16 "\n    at <anonymous>"

/-- A fault with a fresh trace. -/
def ofFault (f : Fault) : Raised := fault f (freshTrace f.kind.name f.message)

def message : Raised → Text
  | fault f _ => f.message
  | error message _ => message
  | value (some d) => d.plain
  | value none => utf16 "undefined"

def trace? : Raised → Option Text
  | fault _ trace => some trace
  | error _ trace => some trace
  | value _ => none

def isFault : Raised → Bool
  | fault _ _ => true
  | _ => false

/-- What stands between a trace and the trace of its cause. -/
def causeMark : Text := utf16 "\n\nCaused by:\n"

/-- The fault that reports a raised value under a heading. -/
def wrapped (heading : Text) (context : Option Data) (r : Raised) : Fault :=
  { message := heading ++ utf16 ": " ++ r.message, code := .internalError, context }

/-- A raised value wrapped in a fault. An empty trace is no cause. -/
def wrap (heading : Text) (context : Option Data) (r : Raised) : Raised :=
  let f := wrapped heading context r
  let fresh := freshTrace f.kind.name f.message
  match r.trace? with
  | none => fault f fresh
  | some trace => fault f (if trace.isEmpty then fresh else fresh ++ causeMark ++ trace)

/-- The number of causes a trace lists. -/
def causes (r : Raised) : Nat := Text.occurrences causeMark (r.trace?.getD [])

end Raised

end JadeEditor
