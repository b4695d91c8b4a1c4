import TextGrammar.Recognizer.Basic

/-!
What the next character tells about a match before it is tried. A verdict is
definite where the first character decides, and unknown where a recognizer may
match without consuming anything.
-/

namespace TextGrammar

/-- The outcome of looking at one character. -/
inductive Verdict where
  | accepts
  | rejects
  | unknown
deriving DecidableEq, Repr

namespace Verdict

def ofBool : Bool → Verdict
  | true => accepts
  | false => rejects

/-- The verdict on a choice whose first alternative has the verdict `first` and
whose other alternatives have the verdict `others`. -/
def orElse (first others : Verdict) : Verdict :=
  match first, others with
  | accepts, _ => accepts
  | rejects, others => others
  | unknown, accepts => accepts
  | unknown, _ => unknown

end Verdict

namespace Recognizer

mutual

/-- Whether a recognizer can match without consuming anything. -/
def isNullable : Recognizer → Bool
  | literal word => word.isEmpty
  | oneOf _ => false
  | ofClass _ => false
  | sequence parts => allNullable parts
  | choice alternatives => anyNullable alternatives
  | zeroOrMore _ => true
  | oneOrMore _ => false

def allNullable : List Recognizer → Bool
  | [] => true
  | part :: parts => isNullable part && allNullable parts

def anyNullable : List Recognizer → Bool
  | [] => false
  | first :: others => isNullable first || anyNullable others

end

mutual

/-- What the next character, or the end of the text, tells about a match. -/
def verdict (next : Option Char) : Recognizer → Verdict
  | literal word =>
      match word.toList with
      | [] => .accepts
      | head :: _ => .ofBool (next == some head)
  | oneOf chars => .ofBool (next.any chars.contains)
  | ofClass classes => .ofBool (next.any classes.contains)
  | sequence [] => .accepts
  | sequence (head :: _) =>
      if head.isNullable then .unknown else verdict next head
  | choice alternatives => verdictOfAny next alternatives
  | zeroOrMore _ => .unknown
  | oneOrMore inner => verdict next inner

def verdictOfAny (next : Option Char) : List Recognizer → Verdict
  | [] => .rejects
  | first :: others =>
      (verdict next first).orElse (verdictOfAny next others)

end

end Recognizer

end TextGrammar
