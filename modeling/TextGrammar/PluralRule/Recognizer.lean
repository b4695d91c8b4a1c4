import TextGrammar.PluralRule.Basic

/-!
The grammar of plural rules as a recognizer, which answers where a rule ends
without building a tree.
-/

namespace TextGrammar.PluralRule

open TextGrammar.Recognizer (token digits optional sequence zeroOrMore blanks)

def rangeRecognizer : Recognizer :=
  sequence [token digits, optional (sequence [dots, digits])]

def conditionRecognizer : Recognizer :=
  sequence
    [token operand,
      optional (sequence [token percent, token digits]),
      token relation,
      rangeRecognizer,
      zeroOrMore (sequence [token comma, rangeRecognizer])]

/-- A whole rule with the blanks behind it. -/
def ruleRecognizer : Recognizer :=
  sequence
    [conditionRecognizer,
      zeroOrMore (sequence [token logic, conditionRecognizer]),
      blanks]

end TextGrammar.PluralRule
