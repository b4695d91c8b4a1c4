import TextGrammar.Node.Basic

/-!
Branches under construction: a tag and the children so far.
-/

namespace TextGrammar.Node

structure Builder (τ : Type) where
  tag : τ
  children : List (Node τ) := []

namespace Builder

variable {τ : Type}

def add (builder : Builder τ) (node : Node τ) : Builder τ :=
  { builder with children := builder.children ++ [node] }

/-- Adds a node if there is one, so that an optional part that did not match
stays out of the tree. -/
def addIfPresent (builder : Builder τ) : Option (Node τ) → Builder τ
  | some node => builder.add node
  | none => builder

def addAll (builder : Builder τ) (nodes : List (Node τ)) : Builder τ :=
  { builder with children := builder.children ++ nodes }

def size (builder : Builder τ) : Nat :=
  builder.children.length

def isEmpty (builder : Builder τ) : Bool :=
  builder.children.isEmpty

def build (builder : Builder τ) : Node τ :=
  branch builder.tag builder.children

end Builder

end TextGrammar.Node
