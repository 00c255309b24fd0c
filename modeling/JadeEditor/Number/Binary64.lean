import JadeEditor.Text.Basic

/-!
# Double-precision numbers

A finite number is a sign, a significand below `2 ^ 53` and a power of two; a
decimal is read as the nearest such number, a tie going to the even significand.
All arithmetic is exact, on natural numbers.
-/

namespace JadeEditor

set_option autoImplicit false

inductive Number where
  /-- The value `± significand · 2 ^ exponent`. -/
  | finite (negative : Bool) (significand : Nat) (exponent : Int)
  | infinite (negative : Bool)
  | nan
  deriving DecidableEq

namespace Number

/-- The least exponent of a finite number. -/
abbrev minExponent : Int := -1074

/-- The greatest exponent of a finite number. -/
abbrev maxExponent : Int := 971

/-- The quotient rounded to the nearest natural number, a half to the even one. -/
def roundQuotient (num den : Nat) : Nat :=
  let q := num / den
  let r := num % den
  if 2 * r < den then q
  else if den < 2 * r then q + 1
  else if q % 2 = 0 then q else q + 1

/-- The natural number `base ^ e`, which is one when `e` is negative. -/
def power (base : Nat) (e : Int) : Nat := Nat.pow base e.toNat

/-- Numerator and denominator of `num / den / 2 ^ exponent`. -/
def scale (num den : Nat) (exponent : Int) : Nat × Nat :=
  (num * power 2 (-exponent), den * power 2 exponent)

/-- The number nearest to `num / den`. -/
def ofRatio (negative : Bool) (num den : Nat) : Number :=
  if num = 0 then finite negative 0 minExponent
  else
    let guess : Int := (num.log2 : Int) - den.log2 - 52
    let (n, d) := scale num den guess
    let exponent := max (if n / d < power 2 52 then guess - 1 else guess) minExponent
    let (n, d) := scale num den exponent
    let significand := roundQuotient n d
    let (significand, exponent) :=
      if significand = power 2 53 then (power 2 52, exponent + 1) else (significand, exponent)
    if maxExponent < exponent then infinite negative else finite negative significand exponent

/-- The number nearest to `digits · 10 ^ tens`. Powers far outside the range are
decided by the number of digits alone. -/
def ofDecimal (negative : Bool) (digits : Nat) (tens : Int) : Number :=
  let size : Int := (Nat.toDigits 10 digits).length + tens
  if digits = 0 ∨ size < -330 then finite negative 0 minExponent
  else if 320 < size then infinite negative
  else ofRatio negative (digits * power 10 tens) (power 10 (-tens))

def ofInt (n : Int) : Number := ofRatio (n < 0) n.natAbs 1

/-- The value of a finite number. -/
def toRat? : Number → Option Rat
  | finite negative significand exponent =>
    let scaled : Int := if negative then -significand else significand
    some (mkRat (scaled * power 2 exponent) (power 2 (-exponent)))
  | _ => none

/-- The value, if it is an integer. -/
def toInt? : Number → Option Int
  | finite negative significand exponent =>
    let divisor := power 2 (-exponent)
    if significand % divisor = 0 then
      let magnitude : Nat := significand / divisor * power 2 exponent
      some (if negative then -(magnitude : Int) else magnitude)
    else none
  | _ => none

/-- Greater than zero. -/
def isPositive : Number → Bool
  | finite negative significand _ => !negative && significand != 0
  | infinite negative => !negative
  | nan => false

/-- At most `bound`. -/
def isAtMost (bound : Nat) : Number → Bool
  | finite negative significand exponent =>
    negative || significand * power 2 exponent ≤ bound * power 2 (-exponent)
  | infinite negative => negative
  | nan => false

end Number

end JadeEditor
