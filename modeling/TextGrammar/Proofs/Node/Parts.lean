import Mathlib.Algebra.Ring.Nat
import TextGrammar.Node.Basic

/-!
The parts of a tree with their depths. A tree is the first part of itself, and the
parts of a child stand one level deeper in the tree than in the child. The main
statement is `mem_parts_branch_iff`.
-/

namespace TextGrammar.Node

variable {τ : Type}

/-- Induction over a tree with a hypothesis for every child of a branch. -/
@[elab_as_elim, induction_eliminator]
theorem induction
    {motive : Node τ → Prop}
    (atom : ∀ tag value, motive (atom tag value))
    (branch : ∀ tag children, (∀ child ∈ children, motive child) →
      motive (branch tag children)) :
    ∀ node, motive node
  | .atom tag value => atom tag value
  | .branch tag children => branch tag children fun child _ =>
      induction atom branch child

mutual

/-- All parts of a tree from the first line of its text to the last, each with
its depth. -/
def parts : Node τ → List (Nat × Node τ)
  | atom tag value => [(0, atom tag value)]
  | branch tag children => (0, branch tag children) :: partsEach children

def partsEach : List (Node τ) → List (Nat × Node τ)
  | [] => []
  | node :: nodes => (parts node).map (Prod.map (· + 1) id) ++ partsEach nodes

end

def atomCount (node : Node τ) : Nat :=
  node.parts.countP fun (_, part) => part.value?.isSome

def branchCount (node : Node τ) : Nat :=
  node.parts.countP fun (_, part) => part.value?.isNone

theorem self_mem_parts
    (node : Node τ) : (0, node) ∈ node.parts := by
  cases node <;> simp [parts]

private theorem partsEach_eq_flatMap
    (nodes : List (Node τ)) :
    partsEach nodes =
      nodes.flatMap fun node => node.parts.map (Prod.map (· + 1) id) := by
  induction nodes with
  | nil =>
      rfl
  | cons node nodes inductionHypothesis =>
      rw [partsEach, inductionHypothesis, List.flatMap_cons]

theorem mem_partsEach_iff
    {nodes : List (Node τ)} {depth : Nat} {part : Node τ} :
    (depth, part) ∈ partsEach nodes ↔
      ∃ node ∈ nodes, ∃ inner, depth = inner + 1 ∧
        (inner, part) ∈ node.parts := by
  rw [partsEach_eq_flatMap, List.mem_flatMap]
  constructor
  · rintro ⟨node, isNode, member⟩
    obtain ⟨⟨inner, _⟩, found, same⟩ := List.mem_map.mp member
    obtain ⟨rfl, rfl⟩ := Prod.mk.inj same
    exact ⟨node, isNode, inner, rfl, found⟩
  · rintro ⟨node, isNode, inner, rfl, found⟩
    exact ⟨node, isNode, List.mem_map.mpr ⟨(inner, part), found, rfl⟩⟩

/-- The parts of a branch are the branch itself and the parts of its children. -/
theorem mem_parts_branch_iff
    {tag : τ} {children : List (Node τ)} {depth : Nat} {part : Node τ} :
    (depth, part) ∈ (branch tag children).parts ↔
      (depth = 0 ∧ part = branch tag children) ∨
        ∃ child ∈ children, ∃ inner, depth = inner + 1 ∧
          (inner, part) ∈ child.parts := by
  rw [parts, List.mem_cons, mem_partsEach_iff, Prod.mk.injEq]

/-- What holds of all parts of a branch holds of all parts of each child. -/
theorem forall_parts_of_child
    {holds : Node τ → Prop} {tag : τ} {children : List (Node τ)}
    (each : ∀ part ∈ (branch tag children).parts, holds part.2)
    {child : Node τ} (member : child ∈ children) :
    ∀ part ∈ child.parts, holds part.2 := by
  rintro ⟨depth, part⟩ found
  exact each (depth + 1, part)
    (mem_parts_branch_iff.mpr (.inr ⟨child, member, depth, rfl, found⟩))

private theorem countP_partsEach
    (test : Node τ → Bool) (nodes : List (Node τ)) :
    (partsEach nodes).countP (fun part => test part.2) =
      (nodes.map fun node =>
        node.parts.countP fun part => test part.2).sum := by
  rw [partsEach_eq_flatMap, List.countP_flatMap]
  congr 1
  apply List.map_congr_left
  intro node _
  rw [Function.comp_apply, List.countP_map]
  rfl

theorem atomCount_branch
    (tag : τ) (children : List (Node τ)) :
    (branch tag children).atomCount = (children.map atomCount).sum := by
  rw [atomCount, parts, List.countP_cons]
  exact countP_partsEach (fun part => part.value?.isSome) children

theorem branchCount_branch
    (tag : τ) (children : List (Node τ)) :
    (branch tag children).branchCount =
      (children.map branchCount).sum + 1 := by
  rw [branchCount, parts, List.countP_cons]
  exact congrArg (· + 1)
    (countP_partsEach (fun part => part.value?.isNone) children)

end TextGrammar.Node
