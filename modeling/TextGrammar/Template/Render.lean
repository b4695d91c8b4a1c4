import TextGrammar.Escape.Basic
import TextGrammar.Template.Placeholder

/-!
Filling a template. A placeholder whose name has a value gives way to the value,
escaped as one part of a URI; any other stays as it is written and causes a
warning.
-/

namespace TextGrammar.Template

/-- Why a placeholder stays as it is written. -/
inductive Warning where
  | malformed (place : Position) (group : String)
  | unbound (place : Position) (name : String)
deriving DecidableEq, Repr

def Warning.message : Warning → String
  | malformed place group =>
      s!"warning: {place}: malformed placeholder " ++ group
  | unbound place name =>
      s!"warning: {place}: no value for " ++ name

/-- A filled text with the warnings in the order of the text. -/
structure Rendering where
  text : String
  warnings : List Warning := []
deriving DecidableEq, Repr

namespace Rendering

instance : Append Rendering where
  append first second :=
    ⟨first.text ++ second.text, first.warnings ++ second.warnings⟩

end Rendering

/-- What stands in a filled text for a placeholder. -/
def Placeholder.fill (value? : String → Option String)
    (placeholder : Placeholder) : Except Fault Rendering := do
  let written ← placeholder.group.text
  match placeholder.name with
  | none =>
      let warning := .malformed placeholder.group.position written
      return { text := written, warnings := [warning] }
  | some cursor =>
      let name ← cursor.text
      match value? name with
      | some value => return { text := Escape.uriComponent value }
      | none =>
          let warning := .unbound cursor.position name
          return { text := written, warnings := [warning] }

/-- Fills the placeholders of a buffer and keeps all text from an offset on
that stands between and behind them. -/
def fillFrom (value? : String → Option String) (buffer : Buffer)
    (start : Nat) : List Placeholder → Except Fault Rendering
  | [] => do
      let tail ← Slice.ofBounds buffer start buffer.size
      return { text := ← tail.text }
  | placeholder :: others => do
      let gap ← Slice.ofBounds buffer start placeholder.group.pos
      let kept : Rendering := { text := ← gap.text }
      let filled ← placeholder.fill value?
      let rest ← fillFrom value? buffer placeholder.group.stop others
      return kept ++ filled ++ rest

/-- The template with its placeholders filled. -/
def render (value? : String → Option String) (template : String) :
    Except Cursor.Failure Rendering := do
  let buffer : Buffer := { chars := template.toList }
  let placeholders ← Placeholder.scan (.whole buffer)
  fillFrom value? buffer 0 placeholders

end TextGrammar.Template
