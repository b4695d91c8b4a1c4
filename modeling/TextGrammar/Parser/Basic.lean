import TextGrammar.Recognizer.Match
import TextGrammar.Slice.Basic

/-!
Parsers: functions from a slice of input to a value and the slice that remains.
A parser that does not match gives nothing, and whoever called it goes on from
its own input. A fault ends the whole parse. Parsers form a monad, in which
`bind` runs the parser that the first value chooses, and a choice, in which the
second parser starts again from the input of the first.
-/

namespace TextGrammar

/-- What a parser makes of its input. -/
inductive Outcome (α : Type) where
  | matched (value : α) (rest : Slice)
  | unmatched
  | fault (cause : Fault)
deriving DecidableEq, Repr

structure Parser (α : Type) where
  parse : Slice → Outcome α

namespace Parser

variable {α β : Type}

theorem ext
    {left right : Parser α}
    (agree : ∀ input, left.parse input = right.parse input) :
    left = right := by
  cases left
  cases right
  exact congrArg Parser.mk (funext agree)

/-- Parses a text in a buffer of its own. -/
def parseString (p : Parser α) (text : String) : Outcome α :=
  p.parse (.ofString text)

instance : Monad Parser where
  pure value := ⟨fun input => .matched value input⟩
  bind p next := ⟨fun input =>
    match p.parse input with
    | .matched value rest => (next value).parse rest
    | .unmatched => .unmatched
    | .fault cause => .fault cause⟩

instance : Alternative Parser where
  failure := ⟨fun _ => .unmatched⟩
  orElse p alternative := ⟨fun input =>
    match p.parse input with
    | .unmatched => (alternative ()).parse input
    | outcome => outcome⟩

instance : Inhabited (Parser α) := ⟨failure⟩

theorem parse_pure
    (value : α) (input : Slice) :
    (pure value : Parser α).parse input = .matched value input := rfl

theorem parse_bind
    (p : Parser α) (next : α → Parser β) (input : Slice) :
    (p >>= next).parse input =
      match p.parse input with
      | .matched value rest => (next value).parse rest
      | .unmatched => .unmatched
      | .fault cause => .fault cause := rfl

theorem parse_failure
    (input : Slice) :
    (failure : Parser α).parse input = .unmatched := rfl

theorem parse_orElse
    (p q : Parser α) (input : Slice) :
    (p <|> q).parse input =
      match p.parse input with
      | .unmatched => q.parse input
      | outcome => outcome := rfl

instance : LawfulMonad Parser :=
  LawfulMonad.mk' Parser
    (fun p => by
      apply ext
      intro input
      show (p >>= pure ∘ id).parse input = _
      rw [parse_bind]
      cases p.parse input <;> rfl)
    (fun _ _ => rfl)
    (fun p f g => by
      apply ext
      intro input
      simp only [parse_bind]
      cases p.parse input <;> rfl)

/-- A result of reading slices as a parser that consumes nothing. -/
def ofExcept : Except Fault α → Parser α
  | .ok value => pure value
  | .error cause => ⟨fun _ => .fault cause⟩

instance : MonadLift (Except Fault) Parser := ⟨ofExcept⟩

/-- The text that a recognizer matches. -/
def ofRecognizer (r : Recognizer) : Parser Slice where
  parse input :=
    match r.matchIn input.buffer.chars input.start input.stop with
    | some stop =>
        match input.splitAt stop with
        | .ok (matched, rest) => .matched matched rest
        | .error cause => .fault cause
    | none => .unmatched

def blanks : Parser Slice := ofRecognizer .blanks

/-- The text that a recognizer matches behind any blanks. -/
def token (r : Recognizer) : Parser Slice := blanks *> ofRecognizer r

/-- A parser, or else a value for which nothing is consumed. -/
def orDefault (p : Parser α) (default : α) : Parser α :=
  p <|> pure default

end Parser

end TextGrammar
