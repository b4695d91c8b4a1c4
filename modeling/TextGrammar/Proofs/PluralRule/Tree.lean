import Mathlib.Data.List.Forall2
import TextGrammar.PluralRule.Basic
import TextGrammar.Proofs.Node.Alike
import TextGrammar.Proofs.Slice.Reading

/-!
What rules say and the trees that show it. A `Rule` holds the parts of a rule
without any text, and no value of it lacks a part. A tree shows a rule if it has
a node for each part in order, whatever slices its texts are. The main statement
is `Rule.ShownBy.same`: two trees that show one rule have the same content.
-/

namespace TextGrammar.PluralRule

/-- A range of a condition: one number, or the numbers between two. -/
inductive Span where
  | single (value : UInt64)
  | between (low high : UInt64)
deriving DecidableEq, Repr

inductive Relation where
  | equal
  | unequal
deriving DecidableEq, Repr

def Relation.word : Relation → String
  | equal => "="
  | unequal => "!="

inductive Connective where
  | both
  | either
deriving DecidableEq, Repr

def Connective.word : Connective → String
  | both => "and"
  | either => "or"

/-- A condition has one span at least. -/
structure Condition where
  operand : Char
  operand_mem : operand ∈ operands
  modulus : Option UInt64
  relation : Relation
  first : Span
  others : List Span
deriving DecidableEq, Repr

def Condition.spans (condition : Condition) : List Span :=
  condition.first :: condition.others

structure Rule where
  first : Condition
  further : List (Connective × Condition)
deriving DecidableEq, Repr

def HasWord (tag : Tag) (word : String) (node : Node Tag) : Prop :=
  ∃ text, node = .atom tag (.text text) ∧ text.chars? = some word.toList

def Span.tree : Span → Node Tag
  | single value => .atom .integer (.integer value)
  | between low high =>
      .branch .range
        [.atom .integer (.integer low), .atom .integer (.integer high)]

def modulusTrees : Option UInt64 → List (Node Tag)
  | some value => [.atom .modulus (.integer value)]
  | none => []

def Condition.ShownBy (condition : Condition) (node : Node Tag) : Prop :=
  ∃ left sign,
    HasWord .operand (String.singleton condition.operand) left ∧
      HasWord .relation condition.relation.word sign ∧
      node = .branch .condition
        ([left] ++ modulusTrees condition.modulus ++
          [sign, .branch .ranges (condition.spans.map Span.tree)])

def ShownByPair (further : Connective × Condition) (pair : List (Node Tag)) :
    Prop :=
  ∃ connective next,
    HasWord .logic further.1.word connective ∧ further.2.ShownBy next ∧
      pair = [connective, next]

def Rule.ShownBy (rule : Rule) (node : Node Tag) : Prop :=
  ∃ first pairs,
    rule.first.ShownBy first ∧ List.Forall₂ ShownByPair rule.further pairs ∧
      node = .branch .rule (first :: pairs.flatten)

/-- A tree that has the shape of some rule. -/
def WellShaped (node : Node Tag) : Prop := ∃ rule : Rule, rule.ShownBy node

abbrev Same (left right : Node Tag) : Prop := left.same right = .ok true

theorem same_branch
    {tag : Tag} {lefts rights : List (Node Tag)}
    (each : List.Forall₂ Same lefts rights) :
    Same (.branch tag lefts) (.branch tag rights) :=
  Node.same_branch_eq_ok_true_iff.mpr ⟨rfl, each⟩

theorem same_integer
    (tag : Tag) (value : UInt64) :
    Same (.atom tag (.integer value)) (.atom tag (.integer value)) := by
  rw [Same, Node.same, if_pos rfl, Value.same, beq_self_eq_true]

private theorem HasWord.same
    {tag : Tag} {word : String} {left right : Node Tag}
    (leftShows : HasWord tag word left) (rightShows : HasWord tag word right) :
    Same left right := by
  rcases leftShows with ⟨leftText, rfl, leftReadable⟩
  rcases rightShows with ⟨rightText, rfl, rightReadable⟩
  have leftText := Slice.text_of_chars? leftReadable
  have rightText := Slice.text_of_chars? rightReadable
  rw [Same, Node.same, if_pos rfl, Value.same,
    Slice.sameText_of_texts leftText rightText, beq_self_eq_true]

private theorem Span.same_tree
    (span : Span) : Same span.tree span.tree := by
  cases span with
  | single value =>
      exact same_integer .integer value
  | between low high =>
      exact same_branch
        (.cons (same_integer _ low) (.cons (same_integer _ high) .nil))

theorem Condition.ShownBy.same
    {condition : Condition} {left right : Node Tag}
    (leftShows : condition.ShownBy left)
    (rightShows : condition.ShownBy right) :
    Same left right := by
  rcases leftShows with ⟨leftOperand, leftSign, operandLeft, signLeft, rfl⟩
  rcases rightShows with
    ⟨rightOperand, rightSign, operandRight, signRight, rfl⟩
  have modulus :
      List.Forall₂ Same (modulusTrees condition.modulus)
        (modulusTrees condition.modulus) := by
    cases condition.modulus with
    | none =>
        exact .nil
    | some value =>
        exact .cons (same_integer .modulus value) .nil
  have ranges :
      List.Forall₂ Same (condition.spans.map Span.tree)
        (condition.spans.map Span.tree) := by
    apply List.forall₂_same.mpr
    intro node member
    rcases List.mem_map.mp member with ⟨span, _, rfl⟩
    exact span.same_tree
  apply same_branch
  apply List.rel_append
  · exact .cons (operandLeft.same operandRight) modulus
  · exact .cons (signLeft.same signRight) (.cons (same_branch ranges) .nil)

private theorem ShownByPair.same
    {further : Connective × Condition} {left right : List (Node Tag)}
    (leftShows : ShownByPair further left)
    (rightShows : ShownByPair further right) :
    List.Forall₂ Same left right := by
  rcases leftShows with ⟨leftLogic, leftNext, logicLeft, nextLeft, rfl⟩
  rcases rightShows with ⟨rightLogic, rightNext, logicRight, nextRight, rfl⟩
  exact .cons (logicLeft.same logicRight)
    (.cons (nextLeft.same nextRight) .nil)

private theorem sameEach_of_shownByPair
    {further : List (Connective × Condition)}
    {lefts rights : List (List (Node Tag))}
    (leftShows : List.Forall₂ ShownByPair further lefts)
    (rightShows : List.Forall₂ ShownByPair further rights) :
    List.Forall₂ (List.Forall₂ Same) lefts rights := by
  induction leftShows generalizing rights with
  | nil =>
      cases rightShows
      exact .nil
  | cons leftPair _ inductionHypothesis =>
      cases rightShows with
      | cons rightPair others =>
          exact .cons (leftPair.same rightPair) (inductionHypothesis others)

/-- Two trees that show one rule have the same content. -/
theorem Rule.ShownBy.same
    {rule : Rule} {left right : Node Tag}
    (leftShows : rule.ShownBy left) (rightShows : rule.ShownBy right) :
    Same left right := by
  rcases leftShows with ⟨leftFirst, leftPairs, firstLeft, pairsLeft, rfl⟩
  rcases rightShows with ⟨rightFirst, rightPairs, firstRight, pairsRight, rfl⟩
  have pairs := sameEach_of_shownByPair pairsLeft pairsRight
  exact same_branch (.cons (firstLeft.same firstRight) (List.rel_flatten pairs))

end TextGrammar.PluralRule
