import JadeEditor.Text.Basic

/-!
# UTF-8

Bytes are decoded with one replacement character for every longest sequence that
starts a character and does not complete it; a byte order mark is kept. A
surrogate without its partner is encoded as the replacement character.
-/

namespace JadeEditor.Utf8

set_option autoImplicit false

abbrev Bytes := List UInt8

def replacement : Nat := 0xFFFD

/-- A character under way: the bits so far, the continuation bytes still due and
the range the next one has to lie in. -/
structure Pending where
  value : Nat
  due : Nat
  low : UInt8
  high : UInt8

/-- The character a first byte starts; none for a byte that cannot start one. -/
def start? (b : UInt8) : Option Pending :=
  if 0xC2 ≤ b && b ≤ 0xDF then some ⟨b.toNat - 0xC0, 1, 0x80, 0xBF⟩
  else if b == 0xE0 then some ⟨0, 2, 0xA0, 0xBF⟩
  else if b == 0xED then some ⟨0xD, 2, 0x80, 0x9F⟩
  else if 0xE1 ≤ b && b ≤ 0xEF then some ⟨b.toNat - 0xE0, 2, 0x80, 0xBF⟩
  else if b == 0xF0 then some ⟨0, 3, 0x90, 0xBF⟩
  else if 0xF1 ≤ b && b ≤ 0xF3 then some ⟨b.toNat - 0xF0, 3, 0x80, 0xBF⟩
  else if b == 0xF4 then some ⟨4, 3, 0x80, 0x8F⟩
  else none

/-- A byte between characters: the values it completes, and what is under way then. -/
def first (b : UInt8) : List Nat × Option Pending :=
  if b < 0x80 then ([b.toNat], none)
  else
    match start? b with
    | some p => ([], some p)
    | none => ([replacement], none)

/-- One byte. A byte that does not go on with the character under way ends it as a
replacement and is read again. -/
def step (pending : Option Pending) (b : UInt8) : List Nat × Option Pending :=
  match pending with
  | none => first b
  | some p =>
    if p.low ≤ b && b ≤ p.high then
      let value := p.value * 64 + (b.toNat - 0x80)
      if p.due ≤ 1 then ([value], none) else ([], some ⟨value, p.due - 1, 0x80, 0xBF⟩)
    else
      let (done, next) := first b
      (replacement :: done, next)

def decodeFrom (pending : Option Pending) : Bytes → List Nat
  | [] => if pending.isSome then [replacement] else []
  | b :: bytes =>
    let (done, next) := step pending b
    done ++ decodeFrom next bytes

def decode (bytes : Bytes) : Text := (decodeFrom none bytes).flatMap scalarUnits

def encodeScalar (n : Nat) : Bytes :=
  if n < 0x80 then [n.toUInt8]
  else if n < 0x800 then [(0xC0 + n / 64).toUInt8, (0x80 + n % 64).toUInt8]
  else if n < 0x10000 then
    [(0xE0 + n / 4096).toUInt8, (0x80 + n / 64 % 64).toUInt8, (0x80 + n % 64).toUInt8]
  else
    [(0xF0 + n / 262144).toUInt8, (0x80 + n / 4096 % 64).toUInt8, (0x80 + n / 64 % 64).toUInt8,
      (0x80 + n % 64).toUInt8]

def encode (t : Text) : Bytes :=
  t.scalars.flatMap fun n => encodeScalar (if 0xD800 ≤ n && n ≤ 0xDFFF then replacement else n)

end JadeEditor.Utf8
