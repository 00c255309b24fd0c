/-!
# Code units

Lines, columns and offsets are counted in UTF-16 code units, and an edit may cut
a surrogate pair in two, so text is kept as a list of units rather than as a
`String`. This module names the units the editor looks at and the three
character classes its recognisers use.
-/

namespace JadeEditor

set_option autoImplicit false

/-- One UTF-16 code unit. -/
abbrev CodeUnit := UInt16

namespace CodeUnit

abbrev tab : CodeUnit := 0x09
abbrev lineFeed : CodeUnit := 0x0A
abbrev carriageReturn : CodeUnit := 0x0D
abbrev escape : CodeUnit := 0x1B
abbrev space : CodeUnit := 0x20
abbrev quote : CodeUnit := 0x22
abbrev hash : CodeUnit := 0x23
abbrev apostrophe : CodeUnit := 0x27
abbrev openParen : CodeUnit := 0x28
abbrev closeParen : CodeUnit := 0x29
abbrev plus : CodeUnit := 0x2B
abbrev comma : CodeUnit := 0x2C
abbrev hyphen : CodeUnit := 0x2D
abbrev dot : CodeUnit := 0x2E
abbrev slash : CodeUnit := 0x2F
abbrev zero : CodeUnit := 0x30
abbrev colon : CodeUnit := 0x3A
abbrev equals : CodeUnit := 0x3D
abbrev openBracket : CodeUnit := 0x5B
abbrev backslash : CodeUnit := 0x5C
abbrev closeBracket : CodeUnit := 0x5D
abbrev underscore : CodeUnit := 0x5F
abbrev openBrace : CodeUnit := 0x7B
abbrev closeBrace : CodeUnit := 0x7D

/-- The unit of a character of the basic plane. -/
def ofChar (c : Char) : CodeUnit := c.toNat.toUInt16

/-- White space and line terminators, the byte order mark included. -/
def isSpace (c : CodeUnit) : Bool :=
  (0x09 ≤ c && c ≤ 0x0D) || c == 0x20 || c == 0xA0 || c == 0x1680
    || (0x2000 ≤ c && c ≤ 0x200A) || c == 0x2028 || c == 0x2029 || c == 0x202F
    || c == 0x205F || c == 0x3000 || c == 0xFEFF

/-- The units that end a line for a pattern that runs to the end of a line. -/
def isLineTerminator (c : CodeUnit) : Bool :=
  c == 0x0A || c == 0x0D || c == 0x2028 || c == 0x2029

/-- The spaces and tabs that make up a line's indentation. -/
def isBlank (c : CodeUnit) : Bool := c == space || c == tab

def isDigit (c : CodeUnit) : Bool := 0x30 ≤ c && c ≤ 0x39

def isUpper (c : CodeUnit) : Bool := 0x41 ≤ c && c ≤ 0x5A

def isLower (c : CodeUnit) : Bool := 0x61 ≤ c && c ≤ 0x7A

/-- ASCII letters and the underscore: what a name may start with. -/
def isNameStart (c : CodeUnit) : Bool := c.isUpper || c.isLower || c == underscore

/-- What a name may go on with. -/
def isWord (c : CodeUnit) : Bool := c.isNameStart || c.isDigit

/-- Folds the ASCII capitals only. -/
def asciiLower (c : CodeUnit) : CodeUnit := if c.isUpper then c + 0x20 else c

def isHighSurrogate (c : CodeUnit) : Bool := 0xD800 ≤ c && c ≤ 0xDBFF

def isLowSurrogate (c : CodeUnit) : Bool := 0xDC00 ≤ c && c ≤ 0xDFFF

/-- The value of a hexadecimal digit. -/
def hexValue? (c : CodeUnit) : Option Nat :=
  if c.isDigit then some (c.toNat - 0x30)
  else if 0x41 ≤ c && c ≤ 0x46 then some (c.toNat - 0x37)
  else if 0x61 ≤ c && c ≤ 0x66 then some (c.toNat - 0x57)
  else none

end CodeUnit

end JadeEditor
