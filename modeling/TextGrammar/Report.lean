/-!
What a program leaves behind: its exit code and the texts of its two output
streams.
-/

namespace TextGrammar

structure Report where
  exitCode : Nat := 0
  output : String := ""
  diagnostics : String := ""
deriving DecidableEq, Repr

namespace Report

def line (text : String) : Report :=
  { output := text ++ "\n" }

def diagnostic (text : String) : Report :=
  { diagnostics := text ++ "\n" }

/-- Two reports in turn. The greater exit code counts. -/
instance : Append Report where
  append first second :=
    { exitCode := max first.exitCode second.exitCode
      output := first.output ++ second.output
      diagnostics := first.diagnostics ++ second.diagnostics }

def concat (reports : List Report) : Report :=
  reports.foldr (· ++ ·) {}

end Report

end TextGrammar
