import JadeEditor.Text.CodeUnit

/-!
# Texts

A text is a list of code units. Literals are written as strings and encoded by
`utf16`; the operations below are those of the standard library on lists,
together with searching, replacing, padding and decimal numerals.
-/

namespace JadeEditor

set_option autoImplicit false

/-- A text, as its UTF-16 code units. -/
abbrev Text := List CodeUnit

/-- The code units of a scalar value: one, or a surrogate pair. -/
def scalarUnits (n : Nat) : Text :=
  if n < 0x10000 then [n.toUInt16]
  else [((n - 0x10000) / 0x400 + 0xD800).toUInt16, ((n - 0x10000) % 0x400 + 0xDC00).toUInt16]

/-- The text of a string literal. -/
def utf16 (s : String) : Text := s.toList.flatMap fun c => scalarUnits c.toNat

namespace Text

/-- The scalar values of a text; a surrogate without its partner stands for itself. -/
def scalars : Text → List Nat
  | [] => []
  | c :: d :: rest =>
    if c.isHighSurrogate && d.isLowSurrogate then
      ((c.toNat - 0xD800) * 0x400 + (d.toNat - 0xDC00) + 0x10000) :: scalars rest
    else c.toNat :: scalars (d :: rest)
  | [c] => [c.toNat]

/-- Some surrogate in the text has no partner. -/
def hasLoneSurrogate (t : Text) : Bool := t.scalars.any fun n => 0xD800 ≤ n && n ≤ 0xDFFF

/-- As a string, with U+FFFD for every surrogate that has no partner. -/
def toStringLossy (t : Text) : String :=
  String.ofList (t.scalars.map fun n => if 0xD800 ≤ n && n ≤ 0xDFFF then '\uFFFD' else Char.ofNat n)

def spaces (n : Nat) : Text := List.replicate n CodeUnit.space

/-- Decimal digits without leading zeros. -/
def ofNat (n : Nat) : Text := (Nat.toDigits 10 n).map CodeUnit.ofChar

/-- The number a string of decimal digits denotes. -/
def digitsValue (t : Text) : Nat := t.foldl (fun n c => 10 * n + (c.toNat - 0x30)) 0

/-- Without white space at either end. -/
def trim (t : Text) : Text :=
  ((t.dropWhile CodeUnit.isSpace).reverse.dropWhile CodeUnit.isSpace).reverse

/-- Filled up with spaces on the right to `width` units. -/
def padEnd (t : Text) (width : Nat) : Text := t ++ spaces (width - t.length)

/-- The units from `start` up to but not including `stop`. -/
def slice (t : Text) (start stop : Nat) : Text := (t.take stop).drop start

/-- The units the texts take up, with one more behind each. -/
def extent : List Text → Nat
  | [] => 0
  | t :: ts => t.length + 1 + extent ts

/-- The texts with `separator` between neighbours. -/
def join (separator : Text) (ts : List Text) : Text := separator.intercalate ts

/-- The rest of the text after `head`, if it starts so. -/
def after? : (head : Text) → Text → Option Text
  | [], t => some t
  | _ :: _, [] => none
  | h :: head, c :: t => if h = c then after? head t else none

def startsWith (t head : Text) : Bool := (after? head t).isSome

/-- Whether `piece` occurs in the text. -/
def has (piece : Text) : Text → Bool
  | [] => piece.isEmpty
  | c :: t => startsWith (c :: t) piece || has piece t

/-- Replaces the occurrences of a non-empty `old`, from the left and without
overlap. The count of units still to be passed over is carried along, so the
recursion follows the text. -/
def replaceFrom (old new : Text) (skip : Nat) : Text → Text
  | [] => []
  | c :: t =>
    match skip with
    | k + 1 => replaceFrom old new k t
    | 0 =>
      if !old.isEmpty && startsWith (c :: t) old then
        new ++ replaceFrom old new (old.length - 1) t
      else c :: replaceFrom old new 0 t

def replaceAll (old new : Text) (t : Text) : Text := replaceFrom old new 0 t

/-- The number of occurrences of a non-empty `piece` that do not overlap. -/
def countFrom (piece : Text) (skip : Nat) : Text → Nat
  | [] => 0
  | c :: t =>
    match skip with
    | k + 1 => countFrom piece k t
    | 0 =>
      if !piece.isEmpty && startsWith (c :: t) piece then
        countFrom piece (piece.length - 1) t + 1
      else countFrom piece 0 t

def occurrences (piece t : Text) : Nat := countFrom piece 0 t

/-- The pieces between the units equal to `separator`: the first one, and the others. -/
def splitOn (separator : CodeUnit) : Text → Text × List Text
  | [] => ([], [])
  | c :: t =>
    let (piece, more) := splitOn separator t
    if c = separator then ([], piece :: more) else (c :: piece, more)

@[simp] theorem length_spaces (n : Nat) : (spaces n).length = n := by
  simp [spaces]

@[simp] theorem spaces_zero : spaces 0 = [] := rfl

end Text

end JadeEditor
