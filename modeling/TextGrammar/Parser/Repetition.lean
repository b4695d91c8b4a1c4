import TextGrammar.Parser.Basic

/-!
Repetition and lists of parsers. A repetition takes matches as long as each
leaves a shorter slice than it was given; a match that does not is dropped and
ends the repetition. So it ends for every parser, whatever slice that returns.
-/

namespace TextGrammar.Parser

variable {α β : Type}

/-- The items of earlier matches followed by those of all further ones. -/
def gather (p : Parser α) (earlier : List α) (input : Slice) :
    Outcome (List α) :=
  match p.parse input with
  | .matched value rest =>
      if rest.size < input.size then
        gather p (earlier ++ [value]) rest
      else
        .matched earlier input
  | .unmatched => .matched earlier input
  | .fault cause => .fault cause
termination_by input.size

/-- As many matches as follow each other, possibly none. -/
def zeroOrMore (p : Parser α) : Parser (List α) :=
  ⟨gather p []⟩

/-- As many matches as follow each other, at least one. -/
def oneOrMore (p : Parser α) : Parser (List α) where
  parse input :=
    match gather p [] input with
    | .matched [] _ => .unmatched
    | outcome => outcome

/-- One or more items with a delimiter between each two of them. A delimiter
that no item follows is left alone. -/
def sepBy (p : Parser α) (delimiter : Parser β) : Parser (List α) where
  parse input :=
    match p.parse input with
    | .matched first rest => gather (delimiter *> p) [first] rest
    | .unmatched => .unmatched
    | .fault cause => .fault cause

/-- All parsers of a list, one after the other. -/
def inTurn : List (Parser α) → Parser (List α)
  | [] => pure []
  | p :: others => do
      let value ← p
      let values ← inTurn others
      return value :: values

/-- A parser as many times as a number says. -/
def exactly (count : Nat) (p : Parser α) : Parser (List α) :=
  inTurn (List.replicate count p)

end TextGrammar.Parser
