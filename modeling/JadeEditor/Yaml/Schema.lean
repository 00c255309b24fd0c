import JadeEditor.Data.Basic
import JadeEditor.Yaml.Content

/-!
# What plain scalars stand for

A scalar without quotes stands for null, a truth value, a number or a point in
time when it is written as one of these, and for its own text otherwise. The two
versions of the notation differ in how these are written; the older one also
reads `<<` as a key that merges other mappings.
-/

namespace JadeEditor.Yaml

set_option autoImplicit false

inductive Version where
  | v1_1
  | v1_2
  deriving DecidableEq

/-- Takes a sign off; true when it is negative. -/
def splitSign : Text → Bool × Text
  | c :: t =>
    if c = CodeUnit.hyphen then (true, t)
    else if c = CodeUnit.plus then (false, t)
    else (false, c :: t)
  | [] => (false, [])

def null? (t : Text) : Option Data :=
  if t.isEmpty || [utf16 "~", utf16 "null", utf16 "Null", utf16 "NULL"].contains t then some .null
  else none

/-- The ways to write a truth value. -/
def booleanNames : Version → Bool → List String
  | .v1_2, true => ["true", "True", "TRUE"]
  | .v1_2, false => ["false", "False", "FALSE"]
  | .v1_1, true => ["true", "True", "TRUE", "yes", "Yes", "YES", "on", "On", "ON", "y", "Y"]
  | .v1_1, false => ["false", "False", "FALSE", "no", "No", "NO", "off", "Off", "OFF", "n", "N"]

def boolean? (v : Version) (t : Text) : Option Data :=
  if ((booleanNames v true).map utf16).contains t then some (.boolean true)
  else if ((booleanNames v false).map utf16).contains t then some (.boolean false)
  else none

/-- A decimal with an optional sign, octal after `0o` or hexadecimal after `0x`. -/
def integer? (t : Text) : Option Number :=
  let (negative, digits) := splitSign t
  if !digits.isEmpty && digits.all CodeUnit.isDigit then
    some (.ofDecimal negative (Text.digitsValue digits) 0)
  else
    match Text.after? (utf16 "0o") t with
    | some digits => (digitsTo? 8 digits).map fun n => .ofInt n
    | none => (Text.after? (utf16 "0x") t).bind fun digits =>
      (digitsTo? 16 digits).map fun n => .ofInt n

/-- The power of ten behind `e` or `E`; without an exponent it is zero. -/
def exponent? : Text → Option Int
  | [] => some 0
  | e :: t =>
    let (negative, digits) := splitSign t
    if (e = CodeUnit.ofChar 'e' ∨ e = CodeUnit.ofChar 'E') ∧ digits ≠ []
        ∧ digits.all CodeUnit.isDigit then
      let power : Int := Text.digitsValue digits
      some (if negative then -power else power)
    else none

/-- Parts a text at the first unit equal to `c`, which is left out. -/
def splitAt? (c : CodeUnit) (t : Text) : Option (Text × Text) :=
  let before := t.takeWhile (· ≠ c)
  if before.length < t.length then some (before, t.drop (before.length + 1)) else none

/-- The whole part, the fraction and the exponent of a decimal. The fraction is
missing when there is no point. -/
def decimalParts (isPart : CodeUnit → Bool) (t : Text) : Text × Option Text × Text :=
  let whole := t.takeWhile isPart
  match t.dropWhile isPart with
  | c :: rest =>
    if c = CodeUnit.dot then (whole, some (rest.takeWhile isPart), rest.dropWhile isPart)
    else (whole, none, c :: rest)
  | [] => (whole, none, [])

/-- The number with the given whole part, fraction and power of ten. -/
def decimalNumber (negative : Bool) (whole fraction : Text) (power : Int) : Number :=
  .ofDecimal negative (Text.digitsValue (whole ++ fraction)) (power - fraction.length)

/-- A decimal with a point or an exponent. -/
def decimal? (t : Text) : Option Number := do
  let (negative, t) := splitSign t
  let (whole, fraction, rest) := decimalParts CodeUnit.isDigit t
  let digits := fraction.getD []
  if (fraction.isNone && rest.isEmpty) || (whole.isEmpty && digits.isEmpty) then none
  let power ← exponent? rest
  return decimalNumber negative whole digits power

/-- The spellings of the numbers that are not finite. -/
def unbounded? (t : Text) : Option Number :=
  let (negative, name) := splitSign t
  if [utf16 ".inf", utf16 ".Inf", utf16 ".INF"].contains name then some (.infinite negative)
  else if [utf16 ".nan", utf16 ".NaN", utf16 ".NAN"].contains t then some .nan
  else none

/-! ## The older version

Underscores may stand between digits and are left out. -/

def isLooseDigit (c : CodeUnit) : Bool := c.isDigit || c == CodeUnit.underscore

def dropUnderscores (t : Text) : Text := t.filter (· ≠ CodeUnit.underscore)

/-- Digits and underscores, starting with a digit. -/
def isLooseWhole (t : Text) : Bool := t.head?.any CodeUnit.isDigit && t.all isLooseDigit

def negateIf (negative : Bool) (n : Nat) : Number :=
  .ofRatio negative n 1

/-- The number with the given digits; without any there is none. -/
def looseDigits (negative : Bool) (base : Nat) (t : Text) : Number :=
  match digitsTo? base (dropUnderscores t) with
  | some n => negateIf negative n
  | none => .nan

/-- Whether a text is made of underscores and digits below `base`, one at least. -/
def isLooseTo (base : Nat) (t : Text) : Bool :=
  !t.isEmpty && t.all fun c => c == CodeUnit.underscore || c.hexValue?.any (· < base)

/-- One or two digits below sixty. -/
def isSixtieth (t : Text) : Bool :=
  match t with
  | [c] => c.isDigit
  | [c, d] => 0x30 ≤ c && c ≤ 0x35 && d.isDigit
  | _ => false

/-- The parts of a number to the base sixty and the fraction of the last one. -/
def sixtieths? (t : Text) : Option (List Text × Option Text) :=
  let (whole, fraction) := match splitAt? CodeUnit.dot t with
    | some (whole, fraction) => (whole, some fraction)
    | none => (t, none)
  let (first, more) := Text.splitOn CodeUnit.colon whole
  if isLooseWhole first && !more.isEmpty && more.all isSixtieth
      && (fraction.getD []).all isLooseDigit then
    some (dropUnderscores first :: more, fraction.map dropUnderscores)
  else none

/-- The whole number with the given digits to the base sixty. -/
def sixtiethsValue (parts : List Text) : Nat :=
  parts.foldl (fun n part => 60 * n + Text.digitsValue part) 0

/-- An integer to the base two, eight, ten, sixteen or sixty. -/
def looseInteger? (t : Text) : Option Number :=
  let (negative, digits) := splitSign t
  let behind (head : String) : Text := digits.drop head.length
  if digits.startsWith (utf16 "0b") && isLooseTo 2 (behind "0b") then
    some (looseDigits negative 2 (behind "0b"))
  else if digits.startsWith (utf16 "0x") && isLooseTo 16 (behind "0x") then
    some (looseDigits negative 16 (behind "0x"))
  else if digits.startsWith (utf16 "0") && isLooseTo 8 (behind "0") then
    some (looseDigits negative 8 (behind "0"))
  else if isLooseWhole digits then some (looseDigits negative 10 digits)
  else
    match sixtieths? digits with
    | some (parts, none) => some (negateIf negative (sixtiethsValue parts))
    | _ => none

/-- A decimal or a number to the base sixty with a fraction. A decimal may have no
digits at all and is then no number. -/
def looseDecimal? (t : Text) : Option Number :=
  let (negative, digits) := splitSign t
  match sixtieths? digits with
  | some (parts, some fraction) =>
    some (decimalNumber negative (.ofNat (sixtiethsValue parts)) fraction 0)
  | some (_, none) => none
  | none => do
    let (whole, fraction, rest) := decimalParts isLooseDigit digits
    let behind := dropUnderscores (fraction.getD [])
    if (fraction.isNone && rest.isEmpty) || !(whole.isEmpty || isLooseWhole whole) then none
    let power ← exponent? rest
    let whole := dropUnderscores whole
    if whole.isEmpty && behind.isEmpty then return .nan
    return decimalNumber negative whole behind power

/-! ## Points in time -/

/-- Whether a text is made of at least `least` and at most `most` digits. -/
def isDigits (least most : Nat) (t : Text) : Bool :=
  least ≤ t.length && t.length ≤ most && t.all CodeUnit.isDigit

/-- A time zone: `Z`, or a sign and hours, with minutes or without. -/
def isZone (t : Text) : Bool :=
  let isHours (t : Text) : Bool :=
    isDigits 1 1 t || (isDigits 2 2 t && t.head?.any (· ≤ 0x32))
  match t with
  | [] => false
  | c :: hours =>
    if c = CodeUnit.ofChar 'Z' then hours.isEmpty
    else (c == CodeUnit.plus || c == CodeUnit.hyphen)
      && match splitAt? CodeUnit.colon hours with
        | some (hours, minutes) => isHours hours && isDigits 2 2 minutes
        | none => isHours hours

/-- Seconds, with a fraction or without, and a time zone that may be missing. -/
def isSecondsAndZone (t : Text) : Bool :=
  let whole := t.takeWhile CodeUnit.isDigit
  let rest := t.dropWhile CodeUnit.isDigit
  let (hasGoodFraction, rest) := match rest with
    | c :: more =>
      if c = CodeUnit.dot then
        (more.head?.any CodeUnit.isDigit, more.dropWhile CodeUnit.isDigit)
      else (true, rest)
    | [] => (true, [])
  isDigits 1 2 whole && hasGoodFraction && (rest.isEmpty || isZone (dropBlanks rest))

/-- A time of day behind the letter `t` or blanks. -/
def isTime (t : Text) : Bool :=
  let behind := match t with
    | c :: rest =>
      if c = CodeUnit.ofChar 't' ∨ c = CodeUnit.ofChar 'T' then some rest
      else if c.isBlank then some (dropBlanks rest)
      else none
    | [] => none
  match behind.bind (splitAt? CodeUnit.colon) with
  | some (hours, rest) =>
    match splitAt? CodeUnit.colon rest with
    | some (minutes, rest) =>
      isDigits 1 2 hours && isDigits 1 2 minutes && isSecondsAndZone rest
    | none => false
  | none => false

/-- A date, or a date and a time. -/
def isMoment (t : Text) : Bool :=
  match splitAt? CodeUnit.hyphen t with
  | some (year, rest) =>
    match splitAt? CodeUnit.hyphen rest with
    | some (month, rest) =>
      let day := rest.takeWhile CodeUnit.isDigit
      let time := rest.dropWhile CodeUnit.isDigit
      isDigits 4 4 year && isDigits 1 2 month && isDigits 1 2 day && (time.isEmpty || isTime time)
    | none => false
  | none => false

/-! ## Resolution -/

def anyInteger? : Version → Text → Option Data
  | .v1_2, t => (integer? t).map .number
  | .v1_1, t => (looseInteger? t).map .number

def anyDecimal? : Version → Text → Option Data
  | .v1_2, t => ((unbounded? t).or (decimal? t)).map .number
  | .v1_1, t => ((unbounded? t).or (looseDecimal? t)).map .number

def moment? (t : Text) : Option Data := if isMoment t then some (.moment t) else none

/-- What a plain scalar stands for. -/
def resolve (v : Version) (t : Text) : Data :=
  let found := (null? t).or <| (boolean? v t).or <| (anyInteger? v t).or <| anyDecimal? v t
  match found.or (if v = .v1_1 then moment? t else none) with
  | some d => d
  | none => .text t

/-- The names of the tags that are known. -/
def knownTag (name : String) : Text := utf16 "tag:yaml.org,2002:" ++ utf16 name

/-- What a scalar with a tag stands for. A tag that is not known, or that does not
fit, leaves the text; only a point in time has to be one. -/
def resolveTagged (v : Version) (tag t : Text) : Except Problem Data :=
  let orText (d : Option Data) : Except Problem Data := .ok (d.getD (.text t))
  if tag = knownTag "null" then orText (null? t)
  else if tag = knownTag "bool" then orText (boolean? v t)
  else if tag = knownTag "int" then orText (anyInteger? v t)
  else if tag = knownTag "float" then orText (anyDecimal? v t)
  else if tag = knownTag "timestamp" then
    if v = .v1_2 ∧ !isMoment t then .error (.badTag tag) else orText (moment? t)
  else .ok (.text t)

end JadeEditor.Yaml
