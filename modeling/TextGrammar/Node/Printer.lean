import TextGrammar.Node.Basic

/-!
Trees as nested text in parentheses. An atom is its label and its value on one
line. A branch is its label, one line or more for every child one level deeper,
and a closing parenthesis on a line of its own.
-/

namespace TextGrammar

/-- How trees are printed: the labels of the tags, and the blanks by which each
level is moved to the right. -/
structure Printer (τ : Type) where
  label : τ → String
  indent : Nat := 2

namespace Printer

variable {τ : Type}

/-- The blanks at the start of a line. The depth times the indentation has no bound
here; as a machine word and as the width of a format it must fit both. -/
def pad (printer : Printer τ) (depth : Nat) : String :=
  String.ofList (List.replicate (depth * printer.indent) ' ')

mutual

/-- The text of a tree whose first line is already indented for the depth. -/
def printAt (printer : Printer τ) (depth : Nat) :
    Node τ → Except Fault String
  | .atom tag value => do
      let shown ← value.display
      return "(" ++ printer.label tag ++ " " ++ shown ++ ")"
  | .branch tag children => do
      let lines ← printEach printer (depth + 1) children
      return "(" ++ printer.label tag ++ "\n" ++ lines ++
        printer.pad depth ++ ")"

/-- The lines of some trees at a depth. -/
def printEach (printer : Printer τ) (depth : Nat) :
    List (Node τ) → Except Fault String
  | [] => .ok ""
  | node :: nodes => do
      let first ← printAt printer depth node
      let others ← printEach printer depth nodes
      return printer.pad depth ++ first ++ "\n" ++ others

end

/-- The text of a tree, without a newline at its end. -/
def print (printer : Printer τ) (node : Node τ) : Except Fault String :=
  printer.printAt 0 node

end Printer

end TextGrammar
