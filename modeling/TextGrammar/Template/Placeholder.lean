import TextGrammar.Cursor.Basic

/-!
The placeholders of a template: its balanced groups in braces, in order. A
placeholder has a name if its braces hold an identifier with nothing but blanks
around it.
-/

namespace TextGrammar.Template

structure Placeholder where
  /-- The group with its braces. -/
  group : Cursor
  /-- The identifier inside the group, if it holds one. -/
  name : Option Cursor
deriving DecidableEq, Repr

/-- One or more letters, digits or underscores. -/
def identifier : Recognizer :=
  .oneOrMore (.choice [.ofClass .alphanumeric, .oneOf ['_']])

namespace Placeholder

/-- Looks for a name inside a group. -/
def ofGroup (group : Cursor) : Except Cursor.Failure Placeholder := do
  let inside ← group.set (group.pos + 1) (group.stop - 1)
  let inside ← inside.skipBlanks
  match inside.seek identifier with
  | none => return { group, name := none }
  | some name =>
      let behind ← inside.jump name
      let behind ← behind.skipBlanks
      return { group, name := if behind.isEmpty then some name else none }

/-- The placeholders that begin at or after a cursor. Each search goes on
behind the group that the last one found. -/
def scan (cursor : Cursor) : Except Cursor.Failure (List Placeholder) :=
  match found : cursor.seekGroup '{' '}' with
  | .error cause => throw (.fault cause)
  | .ok (none, _) => return []
  | .ok (some group, next) => do
      have := Cursor.pos_lt_of_seekGroup found
      let placeholder ← ofGroup group
      let others ← scan next
      return placeholder :: others
termination_by cursor.stop - cursor.pos
decreasing_by
  omega

end Placeholder

end TextGrammar.Template
