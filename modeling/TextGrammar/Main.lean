import TextGrammar.Assignment
import TextGrammar.PluralRule.Check
import TextGrammar.Template.Command

/-!
The command line. The first argument names a program and the others are the
program's own.
-/

namespace TextGrammar

/-- Writes a report to the two streams and gives its exit code. -/
def Report.write (report : Report) : IO UInt32 := do
  IO.print report.output
  IO.eprint report.diagnostics
  return report.exitCode.toUInt32

/-- Writes the report of a program that may meet a fault. -/
def Report.writeResult (result : Except Fault Report) : IO UInt32 :=
  match result with
  | .ok report => report.write
  | .error cause => do
      IO.eprintln ("fault: " ++ reprStr cause)
      return 3

end TextGrammar

open TextGrammar in
def main : List String → IO UInt32
  | "plural" :: arguments =>
      Report.writeResult (PluralRule.run arguments)
  | "template" :: arguments =>
      match Template.request arguments with
      | .ok (template, bindings) =>
          Report.writeResult (Template.report template bindings)
      | .error cause => do
          IO.eprintln cause.message
          return 2
  | ["assignment"] =>
      Report.writeResult Assignment.run
  | _ => do
      IO.eprintln "usage: plural [RULE]..."
      IO.eprintln "       template [TEMPLATE] [NAME=VALUE]..."
      IO.eprintln "       assignment"
      return 2
