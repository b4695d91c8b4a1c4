import TextGrammar.CharClass

/-!
Recognizers: trees that describe how a text may begin. A recognizer is plain
data, so two of them can be compared.
-/

namespace TextGrammar

inductive Recognizer where
  /-- The word itself. -/
  | literal (word : String)
  /-- Any one of the listed characters. -/
  | oneOf (chars : List Char)
  /-- One character of any of the classes. -/
  | ofClass (classes : CharClass)
  /-- All parts, one after the other. -/
  | sequence (parts : List Recognizer)
  /-- The first alternative that matches. -/
  | choice (alternatives : List Recognizer)
  /-- As many consuming matches as follow each other, possibly none. -/
  | zeroOrMore (inner : Recognizer)
  /-- As many consuming matches as follow each other, at least one. -/
  | oneOrMore (inner : Recognizer)
deriving Repr, Inhabited

namespace Recognizer

def digit : Recognizer := ofClass .digit

def digits : Recognizer := oneOrMore digit

/-- One or more blanks. -/
def whitespace : Recognizer := oneOrMore (ofClass .whitespace)

/-- Any number of blanks. -/
def blanks : Recognizer := zeroOrMore whitespace

/-- A recognizer that may stand behind blanks. -/
def token (r : Recognizer) : Recognizer := sequence [blanks, r]

/-- The recognizer that matches the empty text. -/
def nothing : Recognizer := sequence []

/-- A recognizer or nothing, preferring the recognizer. -/
def optional (r : Recognizer) : Recognizer := choice [r, nothing]

mutual

/-- Whether two recognizers are the same tree. The listed characters count with
their order and repetitions. -/
def same : Recognizer → Recognizer → Bool
  | literal left, literal right => left == right
  | oneOf left, oneOf right => left == right
  | ofClass left, ofClass right => left == right
  | sequence left, sequence right => sameEach left right
  | choice left, choice right => sameEach left right
  | zeroOrMore left, zeroOrMore right => same left right
  | oneOrMore left, oneOrMore right => same left right
  | _, _ => false

def sameEach : List Recognizer → List Recognizer → Bool
  | [], [] => true
  | left :: lefts, right :: rights => same left right && sameEach lefts rights
  | _, _ => false

end

mutual

theorem same_iff :
    ∀ left right : Recognizer, same left right = true ↔ left = right
  | literal left, right => by
      cases right <;> simp [same]
  | oneOf left, right => by
      cases right <;> simp [same]
  | ofClass left, right => by
      cases right <;> simp [same]
  | sequence left, right => by
      cases right <;> simp [same, sameEach_iff left]
  | choice left, right => by
      cases right <;> simp [same, sameEach_iff left]
  | zeroOrMore left, right => by
      cases right <;> simp [same, same_iff left]
  | oneOrMore left, right => by
      cases right <;> simp [same, same_iff left]

theorem sameEach_iff :
    ∀ left right : List Recognizer, sameEach left right = true ↔ left = right
  | [], right => by
      cases right <;> simp [sameEach]
  | first :: rest, right => by
      cases right <;> simp [sameEach, same_iff first, sameEach_iff rest]

end

instance : DecidableEq Recognizer := fun left right =>
  decidable_of_iff (same left right = true) (same_iff left right)

end Recognizer

end TextGrammar
