import TextGrammar.CharClass

/-!
Percent escapes over UTF-16 units. A unit below 256 outside the set of kept
characters is written as a percent sign and two hexadecimal digits, a unit of
256 or more as a percent sign, a `u` and four digits; digits are in upper case.
A character beyond the basic plane is written as its two surrogates.
-/

namespace TextGrammar.Escape

def unitsOf (c : Char) : List Nat :=
  if c.toNat < 0x10000 then
    [c.toNat]
  else
    let beyond := c.toNat - 0x10000
    [0xD800 + beyond / 0x400, 0xDC00 + beyond % 0x400]

/-- The hexadecimal digit of a number below sixteen, in upper case. -/
def hexDigit (value : Nat) : Char :=
  if value < 10 then
    Char.ofNat ('0'.toNat + value)
  else
    Char.ofNat ('A'.toNat + (value - 10))

/-- The last `count` hexadecimal digits of a number. -/
def hexDigits : (count : Nat) → (value : Nat) → List Char
  | 0, _ => []
  | count + 1, value =>
      hexDigits count (value / 16) ++ [hexDigit (value % 16)]

def encodeUnit (kept : CharClass) (unit : Nat) : List Char :=
  if unit < 256 then
    if kept.contains (Char.ofNat unit) then
      [Char.ofNat unit]
    else
      '%' :: hexDigits 2 unit
  else
    '%' :: 'u' :: hexDigits 4 unit

/-- Escapes every unit of a text except the kept characters. -/
def encode (kept : CharClass) (text : String) : String :=
  String.ofList
    ((text.toList.flatMap unitsOf).flatMap (encodeUnit kept))

/-- Letters, digits and the unreserved marks. -/
def keptInComponent : CharClass :=
  .letter ∪ .digit ∪ .uriMark

/-- What a component keeps, the reserved characters and the number sign. -/
def keptInUri : CharClass :=
  keptInComponent ∪ .numberSign ∪ .uriReserved

/-- Letters, digits and the escape symbols. -/
def keptInText : CharClass :=
  .letter ∪ .digit ∪ .escapeSymbol

/-- Escapes a whole URI, whose reserved characters keep their meaning. -/
def uri : String → String := encode keptInUri

/-- Escapes one part of a URI, inside which nothing is reserved. -/
def uriComponent : String → String := encode keptInComponent

/-- Escapes text that is no part of a URI. -/
def plainText : String → String := encode keptInText

end TextGrammar.Escape
