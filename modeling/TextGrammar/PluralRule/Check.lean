import TextGrammar.PluralRule.Parser
import TextGrammar.PluralRule.Recognizer
import TextGrammar.Position
import TextGrammar.Report
import TextGrammar.Text.Quoted

/-!
Checking rules: each is recognized first, and only a rule that is recognized as
a whole is parsed and printed. The report on many rules is the reports on each
of them in order, with a line of totals if any rule fails.
-/

namespace TextGrammar.PluralRule

/-- Why a rule fails. -/
inductive Problem where
  | notRecognized (rule : String)
  | unexpectedInput (place : Position) (rest : String)
  | parserStopped (place : Position)
  | parserRejected
deriving DecidableEq, Repr

/-- The line about a problem, where `quote` puts a text in quotes. -/
def Problem.message (quote : String → String) : Problem → String
  | notRecognized rule => "warning: not a plural rule: " ++ quote rule
  | unexpectedInput place rest =>
      s!"warning: unexpected input at {place}: " ++ quote rest
  | parserStopped place =>
      s!"error: parser stopped at {place} although the rule was recognized"
  | parserRejected => "error: parser rejected a recognized rule"

/-- The tree of a rule, or the problem with it. -/
def check (rule : String) : Except Fault (Except Problem (Node Tag)) := do
  let whole := Slice.ofString rule
  match ruleRecognizer.recognize rule with
  | none => return .error (.notRecognized rule)
  | some stop =>
      if stop = whole.stop then
        match ruleParser.parseString rule with
        | .matched tree rest =>
            if rest.isEmpty then
              return .ok tree
            else
              return .error (.parserStopped (.locate rule rest.start))
        | .unmatched => return .error .parserRejected
        | .fault cause => throw cause
      else
        let (_, rest) ← whole.splitAt stop
        return .error (.unexpectedInput (.locate rule stop) (← rest.text))

def reportRule (quote : String → String) (rule : String) :
    Except Fault Report := do
  let opening := Report.line ("rule: " ++ rule)
  match ← check rule with
  | .ok tree => return opening ++ .line ((← printer.print tree) ++ "\n")
  | .error problem =>
      return opening ++ { Report.diagnostic (problem.message quote) with
        exitCode := 1 }

/-- The rules that are checked if none are given. -/
def defaultRules : List String :=
  ["n = 1",
    "i = 0,1",
    "n % 10 = 1 and n % 100 != 11",
    "n % 10 = 2..4 and n % 100 != 12..14",
    "v = 0 and i % 10 = 1 or f % 10 = 1"]

/-- The line of totals, if any rule failed. -/
def totals (failures rules : Nat) : Report :=
  if failures = 0 then
    {}
  else
    .diagnostic s!"{failures} of {rules} rules failed"

/-- The report on the given rules, or on the default ones. -/
def run (arguments : List String)
    (quote : String → String := Quoted.encode) : Except Fault Report := do
  let rules := if arguments.isEmpty then defaultRules else arguments
  let reports ← rules.mapM (reportRule quote)
  let failures := reports.countP fun report => report.exitCode != 0
  return .concat reports ++ totals failures rules.length

end TextGrammar.PluralRule
