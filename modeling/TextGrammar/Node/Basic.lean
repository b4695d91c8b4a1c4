import TextGrammar.Slice.Basic

/-!
Syntax trees. An atom carries a text, an integer or a character; a branch
carries its children in the order of the grammar. Each grammar has a tag type of
its own. Two trees are compared by content: texts count by what they say, not
by the buffer or the place they come from.
-/

namespace TextGrammar

/-- What an atom carries. -/
inductive Value where
  | text (slice : Slice)
  | integer (number : UInt64)
  | character (c : Char)
deriving DecidableEq, Repr

namespace Value

def display : Value → Except Fault String
  | text slice => slice.text
  | integer number => .ok (toString number.toNat)
  | character c => .ok (String.singleton c)

def text? : Value → Except Fault (Option String)
  | text slice => return some (← slice.text)
  | _ => .ok none

def integer? : Value → Option UInt64
  | integer number => some number
  | _ => none

/-- Whether two values are of one kind and have the same content. -/
def same : Value → Value → Except Fault Bool
  | text left, text right => left.sameText right
  | integer left, integer right => .ok (left == right)
  | character left, character right => .ok (left == right)
  | _, _ => .ok false

end Value

inductive Node (τ : Type) where
  | atom (tag : τ) (value : Value)
  | branch (tag : τ) (children : List (Node τ))
deriving Repr

namespace Node

variable {τ : Type}

def tag : Node τ → τ
  | atom tag _ => tag
  | branch tag _ => tag

/-- The value of an atom; branches have none. -/
def value? : Node τ → Option Value
  | atom _ value => some value
  | branch _ _ => none

/-- The children of a branch; atoms have none. -/
def children : Node τ → List (Node τ)
  | atom _ _ => []
  | branch _ children => children

def ofText (tag : τ) (text : String) : Node τ :=
  atom tag (.text (.ofString text))

section

variable [DecidableEq τ]

mutual

/-- Whether two trees have the same shape, the same tags and values of the same
content. Tags and numbers of children are compared before texts are read. -/
def same : Node τ → Node τ → Except Fault Bool
  | atom leftTag left, atom rightTag right =>
      if leftTag = rightTag then left.same right else .ok false
  | branch leftTag left, branch rightTag right =>
      if leftTag = rightTag ∧ left.length = right.length then
        sameEach left right
      else
        .ok false
  | _, _ => .ok false

def sameEach : List (Node τ) → List (Node τ) → Except Fault Bool
  | [], [] => .ok true
  | left :: lefts, right :: rights => do
      if ← same left right then sameEach lefts rights else return false
  | _, _ => .ok false

end

/-- The trees with repeated content left out, the first of each kept. -/
def distinct (nodes : List (Node τ)) : Except Fault (List (Node τ)) :=
  nodes.foldlM
    (fun kept node => do
      if ← kept.anyM (same node) then
        return kept
      else
        return kept ++ [node])
    []

end

end Node

end TextGrammar
