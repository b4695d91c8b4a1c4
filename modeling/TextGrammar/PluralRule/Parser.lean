import TextGrammar.Node.Builder
import TextGrammar.Numeral
import TextGrammar.Parser.Repetition
import TextGrammar.PluralRule.Basic

/-!
The grammar of plural rules as a parser, which builds the tree of a rule.
-/

namespace TextGrammar.PluralRule

open TextGrammar.Parser (token blanks ofRecognizer zeroOrMore sepBy)

/-- An integer atom for digits that were matched. -/
def integerAtom (tag : Tag) (digits : Slice) : Except Fault (Node Tag) :=
  return .atom tag (.integer (Numeral.leadingValue (← digits.text)))

def textParser (tag : Tag) (r : Recognizer) : Parser (Node Tag) :=
  return .atom tag (.text (← token r))

def integerParser : Parser (Node Tag) := do
  integerAtom .integer (← token .digits)

/-- The part of a condition that divides the operand. -/
def modulusParser : Parser (Node Tag) := do
  let _ ← token percent
  integerAtom .modulus (← token .digits)

/-- The end of a range, which follows its dots without a blank. -/
def upperParser : Parser (Node Tag) := do
  let _ ← ofRecognizer dots
  integerAtom .integer (← ofRecognizer .digits)

/-- A range of two integers, or one integer that stands for itself. -/
def rangeParser : Parser (Node Tag) := do
  let first ← integerParser
  match ← optional upperParser with
  | some last => return .branch .range [first, last]
  | none => return first

def rangesParser : Parser (Node Tag) :=
  return .branch .ranges (← sepBy rangeParser (token comma))

def conditionParser : Parser (Node Tag) := do
  let left ← textParser .operand operand
  let modulus ← optional modulusParser
  let sign ← textParser .relation relation
  let right ← rangesParser
  let builder : Node.Builder Tag := { tag := .condition }
  return builder.add left |>.addIfPresent modulus |>.add sign |>.add right
    |>.build

/-- A connective and the condition behind it. -/
def furtherParser : Parser (List (Node Tag)) := do
  let connective ← textParser .logic logic
  let next ← conditionParser
  return [connective, next]

/-- A whole rule with the blanks behind it. -/
def ruleParser : Parser (Node Tag) := do
  let first ← conditionParser
  let further ← zeroOrMore furtherParser
  let _ ← blanks
  let builder : Node.Builder Tag := { tag := .rule }
  return builder.add first |>.addAll further.flatten |>.build

end TextGrammar.PluralRule
