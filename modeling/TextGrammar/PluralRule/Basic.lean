import TextGrammar.Node.Printer
import TextGrammar.Recognizer.Basic

/-!
Conditions that choose a plural form, such as `n % 10 = 1 and n % 100 != 11`.

* A rule is one condition or more, joined by `and` or `or`.
* A condition is an operand, an optional remainder `% 10`, a relation `=` or
  `!=`, and one range or more with commas between them.
* A range is an integer, or two of them joined by `..`.

Blanks may stand before every token except around the `..` of a range.
-/

namespace TextGrammar.PluralRule

/-- The kinds of nodes in the tree of a rule. -/
inductive Tag where
  | rule
  | condition
  | operand
  | modulus
  | relation
  | ranges
  | range
  | integer
  | logic
deriving DecidableEq, Repr

def Tag.label : Tag → String
  | rule => "Rule"
  | condition => "Condition"
  | operand => "Operand"
  | modulus => "ModOp"
  | relation => "RelOp"
  | ranges => "Ranges"
  | range => "Range"
  | integer => "Integer"
  | logic => "Logic"

def printer : Printer Tag where
  label := Tag.label

def operands : List Char := ['n', 'i', 'v', 'w', 'f', 't']

def operand : Recognizer := .oneOf operands

def percent : Recognizer := .oneOf ['%']

def relation : Recognizer := .choice [.oneOf ['='], .literal "!="]

def dots : Recognizer := .literal ".."

def comma : Recognizer := .oneOf [',']

def logic : Recognizer := .choice [.literal "and", .literal "or"]

end TextGrammar.PluralRule
