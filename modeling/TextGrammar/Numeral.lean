/-!
Reading a number from the decimal digits at the start of a text.
-/

namespace TextGrammar.Numeral

def digitValue (c : Char) : UInt64 :=
  (c.toNat - '0'.toNat).toUInt64

/-- Appends decimal digits to a number, modulo `2 ^ 64`. -/
def extend (number : UInt64) (digits : List Char) : UInt64 :=
  digits.foldl (fun value c => value * 10 + digitValue c) number

/-- The value, modulo `2 ^ 64`, of the longest run of ASCII digits at the start
of the text. An empty run has the value zero. -/
def leadingValue (text : String) : UInt64 :=
  extend 0 (text.toList.takeWhile Char.isDigit)

end TextGrammar.Numeral
