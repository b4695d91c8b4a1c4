import Mathlib.Data.List.Forall2
import TextGrammar.Proofs.Node.Parts

/-!
Trees that are alike: they have the same shape and the same tag at every place, and
the values of their atoms are related in pairs. Equality of content is one case of
this, where the values display the same and are of one kind. The main statement is
`same_eq_ok_true_iff`.
-/

namespace TextGrammar

inductive Value.Kind where
  | text
  | integer
  | character
deriving DecidableEq, Repr

namespace Value

def kind : Value → Kind
  | text _ => .text
  | integer _ => .integer
  | character _ => .character

/-- Both values can be shown, and they show the same text. -/
def DisplaysAs (left right : Value) : Prop :=
  ∃ shown, left.display = .ok shown ∧ right.display = .ok shown

/-- A number is known from what it displays. -/
theorem displaysAs_integer_iff
    {left right : UInt64} :
    (integer left).DisplaysAs (integer right) ↔ left = right := by
  constructor
  · rintro ⟨shown, shownLeft, shownRight⟩
    have spelled : left.toNat.repr = right.toNat.repr :=
      Except.ok.inj (shownLeft.trans shownRight.symm)
    rw [Nat.repr_eq_ofList_toDigits, Nat.repr_eq_ofList_toDigits,
      String.ofList_inj] at spelled
    have read := congrArg (Nat.ofDigitChars 10 · 0) spelled
    simp only [Nat.ofDigitChars_ten_toDigits] at read
    exact UInt64.toNat_inj.mp read
  · rintro rfl
    exact ⟨_, rfl, rfl⟩

theorem displaysAs_character_iff
    {left right : Char} :
    (character left).DisplaysAs (character right) ↔ left = right := by
  constructor
  · rintro ⟨shown, shownLeft, shownRight⟩
    have spelled : String.singleton left = String.singleton right :=
      Except.ok.inj (shownLeft.trans shownRight.symm)
    exact String.singleton_inj.mp spelled
  · rintro rfl
    exact ⟨_, rfl, rfl⟩

theorem displaysAs_text_iff
    {left right : Slice} :
    (text left).DisplaysAs (text right) ↔
      left.sameText right = .ok true := by
  simp only [DisplaysAs, display, Slice.sameText, Slice.hasText]
  cases left.text with
  | error fault =>
      simp [bind, Except.bind]
  | ok shown =>
      cases right.text with
      | error fault =>
          simp [bind, Except.bind]
      | ok other =>
          simp [bind, Except.bind, pure, Except.pure]

/-- Values have the same content if they display the same and are of one kind. -/
theorem same_eq_ok_true_iff
    {left right : Value} :
    left.same right = .ok true ↔
      left.DisplaysAs right ∧ left.kind = right.kind := by
  cases left <;> cases right <;>
    simp [same, kind, displaysAs_integer_iff, displaysAs_character_iff,
      displaysAs_text_iff]

end Value

namespace Node

variable {τ : Type}

/-- The trees have the same shape and the same tags, and the values of their atoms
are related in pairs. -/
inductive Alike (values : Value → Value → Prop) : Node τ → Node τ → Prop where
  | atom {tag : τ} {left right : Value} :
      values left right → Alike values (.atom tag left) (.atom tag right)
  | branch {tag : τ} {lefts rights : List (Node τ)} :
      List.Forall₂ (Alike values) lefts rights →
        Alike values (.branch tag lefts) (.branch tag rights)

/-- Trees related in pairs, with a relation that follows for each pair. -/
theorem forall₂_of_mem
    {stronger weaker : Node τ → Node τ → Prop} {lefts rights : List (Node τ)}
    (follows : ∀ left ∈ lefts, ∀ right ∈ rights, stronger left right →
      weaker left right)
    (each : List.Forall₂ stronger lefts rights) :
    List.Forall₂ weaker lefts rights := by
  induction each with
  | nil =>
      exact .nil
  | cons first _ inductionHypothesis =>
      simp only [List.forall_mem_cons] at follows
      exact .cons (follows.1.1 first) (inductionHypothesis fun left member =>
        (follows.2 left member).2)

namespace Alike

variable {values others : Value → Value → Prop} {left right : Node τ}

/-- Induction over two trees that are alike, with a hypothesis for the children of
two branches in pairs. -/
@[elab_as_elim]
theorem pairwise
    {motive : Node τ → Node τ → Prop}
    (atom : ∀ tag left right, values left right →
      motive (.atom tag left) (.atom tag right))
    (branch : ∀ tag lefts rights, List.Forall₂ motive lefts rights →
      motive (.branch tag lefts) (.branch tag rights))
    (alike : left.Alike values right) :
    motive left right := by
  induction left generalizing right with
  | atom tag left =>
      cases alike with
      | atom related =>
          exact atom tag left _ related
  | branch tag lefts inductionHypothesis =>
      cases alike with
      | branch each =>
          exact branch tag lefts _ (forall₂_of_mem
            (fun left member right _ => inductionHypothesis left member) each)

theorem and
    (first : left.Alike values right) (second : left.Alike others right) :
    left.Alike (fun left right => values left right ∧ others left right)
      right := by
  revert second
  refine first.pairwise ?_ ?_
  · rintro tag left right related (alsoRelated | _)
    exact .atom ⟨related, alsoRelated⟩
  · rintro tag lefts rights each (_ | alsoEach)
    exact .branch (each.mp (fun _ _ both => both) alsoEach)

theorem imp
    (weaker : ∀ left right, values left right → others left right)
    (alike : left.Alike values right) : left.Alike others right :=
  alike.pairwise
    (fun _ left right related => .atom (weaker left right related))
    fun _ _ _ each => .branch each

end Alike

variable [DecidableEq τ]

private theorem sameEach_eq_ok_true_iff
    {lefts rights : List (Node τ)} :
    sameEach lefts rights = .ok true ↔
      List.Forall₂ (fun left right => left.same right = .ok true)
        lefts rights := by
  induction lefts generalizing rights with
  | nil =>
      cases rights <;> simp [sameEach]
  | cons left lefts inductionHypothesis =>
      cases rights with
      | nil =>
          simp [sameEach]
      | cons right rights =>
          rw [sameEach, List.forall₂_cons, ← inductionHypothesis]
          cases left.same right with
          | error fault =>
              simp [bind, Except.bind]
          | ok agreed =>
              cases agreed <;> simp [bind, Except.bind, pure, Except.pure]

private theorem same_atom_eq_ok_true_iff
    {leftTag rightTag : τ} {left right : Value} :
    (atom leftTag left).same (atom rightTag right) = .ok true ↔
      leftTag = rightTag ∧ left.same right = .ok true := by
  rw [same]
  by_cases tags : leftTag = rightTag
  · rw [if_pos tags, and_iff_right tags]
  · simp [tags]

theorem same_branch_eq_ok_true_iff
    {leftTag rightTag : τ} {lefts rights : List (Node τ)} :
    (branch leftTag lefts).same (branch rightTag rights) = .ok true ↔
      leftTag = rightTag ∧
        List.Forall₂ (fun left right => left.same right = .ok true)
          lefts rights := by
  rw [same]
  by_cases agreed : leftTag = rightTag ∧ lefts.length = rights.length
  · rw [if_pos agreed, sameEach_eq_ok_true_iff, and_iff_right agreed.1]
  · rw [if_neg agreed]
    constructor
    · simp
    · rintro ⟨tags, each⟩
      exact absurd ⟨tags, each.length_eq⟩ agreed

theorem same_eq_ok_true_iff_alike
    {left right : Node τ} :
    left.same right = .ok true ↔
      left.Alike (fun left right => left.same right = .ok true) right := by
  constructor
  · intro agreed
    induction left generalizing right with
    | atom tag left =>
        cases right with
        | atom rightTag right =>
            obtain ⟨rfl, values⟩ := same_atom_eq_ok_true_iff.mp agreed
            exact .atom values
        | branch rightTag rights =>
            simp [same] at agreed
    | branch tag lefts inductionHypothesis =>
        cases right with
        | atom rightTag right =>
            simp [same] at agreed
        | branch rightTag rights =>
            obtain ⟨rfl, each⟩ := same_branch_eq_ok_true_iff.mp agreed
            exact .branch (forall₂_of_mem
              (fun left member right _ => inductionHypothesis left member) each)
  · intro alike
    refine alike.pairwise ?_ ?_
    · intro tag left right values
      exact same_atom_eq_ok_true_iff.mpr ⟨rfl, values⟩
    · intro tag lefts rights each
      exact same_branch_eq_ok_true_iff.mpr ⟨rfl, each⟩

/-- Trees have the same content if their atoms display the same in pairs and are
of the same kinds. -/
theorem same_eq_ok_true_iff
    {left right : Node τ} :
    left.same right = .ok true ↔
      left.Alike Value.DisplaysAs right ∧
        left.Alike (fun left right => left.kind = right.kind) right := by
  rw [same_eq_ok_true_iff_alike]
  constructor
  · intro alike
    have both := alike.imp fun _ _ => Value.same_eq_ok_true_iff.mp
    exact ⟨both.imp fun _ _ => And.left, both.imp fun _ _ => And.right⟩
  · rintro ⟨display, kinds⟩
    exact (display.and kinds).imp fun _ _ => Value.same_eq_ok_true_iff.mpr

end Node

end TextGrammar
