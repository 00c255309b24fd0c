import JadeEditor.Number.Binary64

/-!
# The shortest decimal of a number

A number is written with the fewest digits that read back as the same number,
and of those with the digits nearest to it. Between `10 ^ -7` and `10 ^ 21` the
digits are laid out positionally, outside that range with an exponent.
-/

namespace JadeEditor

set_option autoImplicit false

namespace Number

/-- The decimal `digits · 10 ^ tens`. -/
structure Decimal where
  digits : Nat
  tens : Int
  deriving DecidableEq

namespace Decimal

/-- The least `k ≤ fuel` with `1 ≤ num · 10 ^ k / den`. -/
def leadingZeros (num den : Nat) : (fuel : Nat) → Nat
  | 0 => 0
  | fuel + 1 => if den ≤ num then 0 else leadingZeros (num * 10) den fuel + 1

/-- The `k` with `10 ^ (k - 1) ≤ num / den < 10 ^ k`. -/
def magnitude (num den : Nat) : Int :=
  if den ≤ num then (Nat.toDigits 10 (num / den)).length
  else 1 - (leadingZeros num den 400 : Int)

/-- Without the zeros at the end. -/
def trim (d : Decimal) : (fuel : Nat) → Decimal
  | 0 => d
  | fuel + 1 =>
    if d.digits ≠ 0 ∧ d.digits % 10 = 0 then trim ⟨d.digits / 10, d.tens + 1⟩ fuel else d

def readsBack (d : Decimal) (significand : Nat) (exponent : Int) : Bool :=
  ofDecimal false d.digits d.tens == finite false significand exponent

/-- Of the two neighbours of `num / den` on the grid of `10 ^ tens`, the one that
reads back; of two that do, the nearer, and of two as near the even one. -/
def onGrid? (num den significand : Nat) (exponent tens : Int) : Option Decimal :=
  let n := num * power 10 (-tens)
  let d := den * power 10 tens
  let low : Decimal := ⟨n / d, tens⟩
  let high : Decimal := ⟨n / d + 1, tens⟩
  let nearest : Decimal := ⟨roundQuotient n d, tens⟩
  match low.readsBack significand exponent, high.readsBack significand exponent with
  | true, true => some nearest
  | true, false => some low
  | false, true => some high
  | false, false => none

/-- The first grid, from `count` digits on, with a neighbour that reads back. -/
def search (num den significand : Nat) (exponent size : Int) (count : Nat) :
    (fuel : Nat) → Decimal
  | 0 => ⟨num * power 10 (17 - size) / (den * power 10 (size - 17)), size - 17⟩
  | fuel + 1 =>
    match onGrid? num den significand exponent (size - count) with
    | some d => d
    | none => search num den significand exponent size (count + 1) fuel

/-- The shortest decimal of `significand · 2 ^ exponent`. -/
def shortest (significand : Nat) (exponent : Int) : Decimal :=
  let num := significand * power 2 exponent
  let den := power 2 (-exponent)
  (search num den significand exponent (magnitude num den) 1 17).trim 400

/-- Positional up to twenty-one digits before the point and six zeros behind it;
otherwise one digit before the point and a signed exponent. -/
def layout (d : Decimal) : Text :=
  let digits := Text.ofNat d.digits
  let count : Int := digits.length
  let point := d.tens + count
  if count ≤ point ∧ point ≤ 21 then digits ++ List.replicate d.tens.toNat CodeUnit.zero
  else if 0 < point ∧ point ≤ 21 then
    digits.take point.toNat ++ CodeUnit.dot :: digits.drop point.toNat
  else if -6 < point ∧ point ≤ 0 then
    CodeUnit.zero :: CodeUnit.dot :: (List.replicate (-point).toNat CodeUnit.zero ++ digits)
  else
    let exponent := point - 1
    let sign := if exponent < 0 then CodeUnit.hyphen else CodeUnit.plus
    let fraction := if count = 1 then [] else CodeUnit.dot :: digits.drop 1
    digits.take 1 ++ fraction ++ CodeUnit.ofChar 'e' :: sign :: Text.ofNat exponent.natAbs

end Decimal

/-- The text of a number. Zero is written without a sign. -/
def text : Number → Text
  | finite negative significand exponent =>
    if significand = 0 then [CodeUnit.zero]
    else
      (if negative then [CodeUnit.hyphen] else [])
        ++ (Decimal.shortest significand exponent).layout
  | infinite negative => if negative then utf16 "-Infinity" else utf16 "Infinity"
  | nan => utf16 "NaN"

end Number

/-- The text of an integer, which like every number is rounded to double precision. -/
def Text.ofInt (n : Int) : Text := (Number.ofInt n).text

end JadeEditor
