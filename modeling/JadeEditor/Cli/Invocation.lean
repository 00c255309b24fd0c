import JadeEditor.Fault.Basic

/-!
# Invocations

The commands with their options, as texts and flags, and the numbers options may
stand for.
-/

namespace JadeEditor.Cli

set_option autoImplicit false

/-- The options every command has. -/
structure CommonOptions where
  config : Option Text := none
  indentOffset : Option Text := none
  verbose : Bool := false
  json : Bool := false

inductive Command where
  | outline
  | indent (check write : Bool)
  | highlight
  | navigate (line : Text) (column count : Option Text) (toEnd : Bool)

structure Invocation where
  command : Command
  file : Text
  options : CommonOptions

/-- The largest integer below `2 ^ 53`, up to which every integer is a number of its own. -/
abbrev maxSafe : Nat := 9007199254740991

/-- The number a text of digits stands for, white space around it aside. Like every
number it is rounded to double precision. -/
def digitsNumber? (value : Text) : Option Number :=
  let digits := value.trim
  if !digits.isEmpty && digits.all CodeUnit.isDigit then
    some (.ofDecimal false digits.digitsValue 0)
  else none

/-- The positive integer a text of digits stands for. Numbers too large to be told
from their neighbours are refused. -/
def positive? (value : Text) : Option Nat := do
  let number ← digitsNumber? value
  let n ← number.toInt?
  if 0 < n ∧ n ≤ maxSafe then some n.toNat else none

/-- The fault of an option that is no positive integer. -/
def notPositive (name value : Text) : Fault :=
  .input (name ++ utf16 " must be a positive integer, got \"" ++ value ++ utf16 "\"") .invalidInput
    (some (.record [(utf16 "option", .text name), (utf16 "value", .text value)]))

/-- The positive integer an option stands for. -/
def parsePositive (name value : Text) : Except Fault Nat :=
  match positive? value with
  | some n => .ok n
  | none => .error (notPositive name value)

end JadeEditor.Cli
