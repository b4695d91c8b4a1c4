import TextGrammar.Report
import TextGrammar.Template.Render
import TextGrammar.Text.Quoted

/-!
The arguments of the template program: a template, and bindings of names to
values. Without any argument an example is filled.
-/

namespace TextGrammar.Template

structure Binding where
  name : String
  value : String
deriving DecidableEq, Repr

/-- An argument that is no binding. -/
structure UsageError where
  argument : String
deriving DecidableEq, Repr

def UsageError.message (error : UsageError)
    (quote : String → String := Quoted.encode) : String :=
  "error: invalid value '" ++ error.argument ++
    "' for '[BINDINGS]...': expected NAME=VALUE, got " ++ quote error.argument

namespace Binding

/-- A name and a value around the first equals sign. The name must not be
empty. -/
def parse (argument : String) : Except UsageError Binding :=
  let chars := argument.toList
  let name := chars.takeWhile (· != '=')
  match chars.dropWhile (· != '=') with
  | _ :: value =>
      if name.isEmpty then
        .error ⟨argument⟩
      else
        .ok ⟨String.ofList name, String.ofList value⟩
  | [] => .error ⟨argument⟩

/-- The value of a name. The last binding of a name counts. -/
def value? (bindings : List Binding) (name : String) : Option String :=
  (bindings.reverse.find? (·.name == name)).map Binding.value

end Binding

def defaultTemplate : String :=
  "https://example.com/\x7b lang \x7d/search?q=\x7bquery\x7d&page=\x7bpage\x7d"

def defaultBindings : List Binding :=
  [⟨"lang", "en"⟩, ⟨"query", "tea & biscuits"⟩, ⟨"page", "2"⟩]

/-- The template and the bindings that the arguments give. -/
def request : List String → Except UsageError (String × List Binding)
  | [] => .ok (defaultTemplate, defaultBindings)
  | template :: arguments => return (template, ← arguments.mapM Binding.parse)

def report (template : String) (bindings : List Binding) :
    Except Fault Report :=
  match render (Binding.value? bindings) template with
  | .ok rendering =>
      let warnings := rendering.warnings.map fun warning =>
        Report.diagnostic warning.message
      return .concat warnings ++ .line rendering.text
  | .error (.error cause) =>
      return { Report.diagnostic ("error: " ++ cause.message) with
        exitCode := 1 }
  | .error (.fault cause) => throw cause

end TextGrammar.Template
