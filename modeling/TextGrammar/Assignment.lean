import TextGrammar.Node.Printer
import TextGrammar.Numeral
import TextGrammar.Parser.Repetition
import TextGrammar.Report
import TextGrammar.Text.Quoted

/-!
A small grammar: a variable, `=` or `!=`, and integers with commas between
them, all of it optionally in braces. `run` shows the trees of a few inputs.
-/

namespace TextGrammar.Assignment

open TextGrammar.Parser (token sepBy)

inductive Tag where
  | expression
  | variable
  | operator
  | integers
  | integer
deriving DecidableEq, Repr

def Tag.label : Tag → String
  | expression => "EXPR"
  | .variable => "VAR"
  | operator => "OP"
  | integers => "INT_LIST"
  | integer => "INTEGER"

def printer : Printer Tag where
  label := Tag.label

def name : Parser (Node Tag) :=
  return .atom .variable (.text (← token (.oneOrMore (.ofClass .lowercase))))

def operator : Parser (Node Tag) :=
  return .atom .operator
    (.text (← token (.choice [.literal "=", .literal "!="])))

def integer : Parser (Node Tag) := do
  let digits ← token .digits
  return .atom .integer (.integer (Numeral.leadingValue (← digits.text)))

def integers : Parser (Node Tag) :=
  return .branch .integers (← sepBy integer (token (.oneOf [','])))

def expression : Parser (Node Tag) := do
  let left ← name
  let sign ← operator
  let right ← integers
  return .branch .expression [left, sign, right]

/-- An expression in braces, or without them. -/
def block : Parser (Node Tag) :=
  (token (.oneOf ['{']) *> expression <* token (.oneOf ['}'])) <|> expression

def samples : List String :=
  ["number = 123", "\x7b count != 1, 2, 3 \x7d", "x = 7, 8", "= 1",
    "\x7b y = 1"]

def reportInput (quote : String → String) (input : String) :
    Except Fault Report := do
  let opening := Report.line ("input: " ++ quote input)
  match block.parseString input with
  | .matched tree rest =>
      let shown := Report.line (← printer.print tree)
      if rest.isEmpty then
        return opening ++ shown ++ .line ""
      else
        let remaining := quote (← rest.text)
        return opening ++ shown ++ .line ("unparsed: " ++ remaining) ++
          .line ""
  | .unmatched => return opening ++ .line "no match" ++ .line ""
  | .fault cause => throw cause

def run (quote : String → String := Quoted.encode) : Except Fault Report := do
  return .concat (← samples.mapM (reportInput quote))

end TextGrammar.Assignment
