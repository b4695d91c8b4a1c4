import Mathlib.Data.List.Basic
import TextGrammar.Proofs.Recognizer.Nullability

/-!
Verdicts at the end of a text, where nothing is left to look at. A rejection is
right there. An acceptance is right unless it rests on a repetition of one match or
more: such a repetition is judged by its part, and needs a match that consumes
something when its part needs none. The main statement is `verdict_none_right_iff`.
-/

namespace TextGrammar.Recognizer

/-- Just the nullable recognizers match the empty text. -/
theorem recognize_empty
    (r : Recognizer) :
    r.recognize "" = if r.isNullable then some 0 else none := by
  have boundary : IsBoundary [] 0 := isBoundary_append [] []
  cases nullable : r.isNullable with
  | true =>
      obtain ⟨finish, found⟩ :=
        exists_matchIn_of_isNullable nullable (Nat.le_refl 0) boundary boundary
      have inside : finish ≤ 0 := (bounds_of_matchIn found).2.1
      obtain rfl := Nat.le_zero.mp inside
      exact found
  | false =>
      cases found : r.recognize "" with
      | none =>
          rfl
      | some finish =>
          have inside : finish ≤ 0 := (bounds_of_matchIn found).2.1
          have forward := lt_of_matchIn_of_isNullable_eq_false nullable found
          omega

/-- A choice accepts a character, or the end, just if an alternative does. -/
theorem verdictOfAny_eq_accepts_iff
    {next : Option Char} {alternatives : List Recognizer} :
    verdictOfAny next alternatives = .accepts ↔
      ∃ r ∈ alternatives, verdict next r = .accepts := by
  induction alternatives with
  | nil =>
      simp [verdictOfAny]
  | cons first others inductionHypothesis =>
      rw [verdictOfAny, List.exists_mem_cons_iff, ← inductionHypothesis]
      cases verdict next first <;> cases verdictOfAny next others <;>
        simp [Verdict.orElse]

/-- The end of a text is accepted because a repetition accepts it for its part, and
nothing that may match instead of the repetition is nullable. -/
inductive AcceptsByRepetition : Recognizer → Prop where
  | oneOrMore {inner : Recognizer} :
      verdict none inner = .accepts → AcceptsByRepetition (.oneOrMore inner)
  | sequence {head : Recognizer} {others : List Recognizer} :
      AcceptsByRepetition head → AcceptsByRepetition (.sequence (head :: others))
  | choice {alternatives : List Recognizer} {r : Recognizer} :
      r ∈ alternatives → AcceptsByRepetition r →
        (∀ other ∈ alternatives, other.isNullable = false) →
          AcceptsByRepetition (.choice alternatives)

namespace AcceptsByRepetition

variable {r : Recognizer}

theorem isNullable_eq_false
    (accepts : r.AcceptsByRepetition) : r.isNullable = false := by
  induction accepts with
  | oneOrMore _ =>
      rfl
  | sequence _ inductionHypothesis =>
      rw [isNullable, allNullable, inductionHypothesis, Bool.false_and]
  | choice _ _ consuming _ =>
      rw [isNullable, anyNullable_eq_any, List.any_eq_false]
      exact fun other member => Bool.eq_false_iff.mp (consuming other member)

theorem verdict_none
    (accepts : r.AcceptsByRepetition) : verdict none r = .accepts := by
  induction accepts with
  | oneOrMore accepted =>
      rwa [verdict]
  | sequence accepts inductionHypothesis =>
      rw [verdict, accepts.isNullable_eq_false]
      exact inductionHypothesis
  | choice member _ _ inductionHypothesis =>
      rw [verdict, verdictOfAny_eq_accepts_iff]
      exact ⟨_, member, inductionHypothesis⟩

/-- Whatever else is accepted at the end is nullable. -/
theorem of_verdict_none
    (accepted : verdict none r = .accepts) (consuming : r.isNullable = false) :
    r.AcceptsByRepetition := by
  induction r with
  | literal word =>
      cases spelled : word.toList with
      | nil =>
          simp [isNullable, String.toList_eq_nil_iff.mp spelled] at consuming
      | cons head tail =>
          simp [verdict, spelled, Verdict.ofBool] at accepted
  | oneOf listed | ofClass classes =>
      simp [verdict, Verdict.ofBool] at accepted
  | sequence parts inductionHypothesis =>
      cases parts with
      | nil =>
          contradiction
      | cons head others =>
          cases nullable : head.isNullable with
          | true =>
              simp [verdict, nullable] at accepted
          | false =>
              rw [verdict, nullable] at accepted
              exact .sequence
                (inductionHypothesis head List.mem_cons_self accepted nullable)
  | choice alternatives inductionHypothesis =>
      rw [verdict, verdictOfAny_eq_accepts_iff] at accepted
      rw [isNullable, anyNullable_eq_any, List.any_eq_false] at consuming
      obtain ⟨r, member, accepted⟩ := accepted
      have consumes : ∀ other ∈ alternatives, other.isNullable = false :=
        fun other isOther => Bool.eq_false_iff.mpr (consuming other isOther)
      exact .choice member
        (inductionHypothesis r member accepted (consumes r member)) consumes
  | zeroOrMore inner _ =>
      simp [verdict] at accepted
  | oneOrMore inner _ =>
      rw [verdict] at accepted
      exact .oneOrMore accepted

end AcceptsByRepetition

/-- A rejection at the end of a text is right, and an acceptance is right just if it
does not rest on a repetition. Those that do are accepted and never match there. -/
theorem verdict_none_right_iff
    (r : Recognizer) :
    (verdict none r = .rejects → r.recognize "" = none) ∧
      (verdict none r = .accepts →
        (r.recognize "" = some 0 ↔ ¬ r.AcceptsByRepetition)) ∧
      (r.AcceptsByRepetition →
        verdict none r = .accepts ∧ r.recognize "" = none) := by
  refine ⟨?_, ?_, ?_⟩
  · intro rejected
    have consuming : r.isNullable = false := by
      rw [← Bool.not_eq_true]
      exact fun nullable =>
        verdict_ne_rejects_of_isNullable nullable none rejected
    rw [recognize_empty, consuming]
    rfl
  · intro accepted
    have rests : r.AcceptsByRepetition ↔ r.isNullable = false :=
      ⟨AcceptsByRepetition.isNullable_eq_false,
        AcceptsByRepetition.of_verdict_none accepted⟩
    rw [recognize_empty, rests]
    cases r.isNullable <;> simp
  · intro accepts
    refine ⟨accepts.verdict_none, ?_⟩
    rw [recognize_empty, accepts.isNullable_eq_false]
    rfl

/-- A sequence that begins with repeated nothing is accepted at the end of a text,
and so is a choice between it and digits that may be missing; only the choice
matches. A digit is rejected. -/
theorem verdict_none_right_iff_of_choice :
    let stuck := sequence [oneOrMore (literal ""), digit]
    let loose := choice [stuck, zeroOrMore digit]
    verdict none digit = .rejects ∧ digit.recognize "" = none ∧
      verdict none loose = .accepts ∧ loose.recognize "" = some 0 ∧
      stuck.AcceptsByRepetition ∧ verdict none stuck = .accepts ∧
      stuck.recognize "" = none := by
  intro stuck loose
  have rejected : verdict none digit = .rejects := rfl
  have accepted : verdict none loose = .accepts := rfl
  have rests : stuck.AcceptsByRepetition := .sequence (.oneOrMore rfl)
  have free : ¬ loose.AcceptsByRepetition := fun accepts =>
    Bool.false_ne_true accepts.isNullable_eq_false.symm
  exact ⟨rejected, (verdict_none_right_iff digit).1 rejected, accepted,
    ((verdict_none_right_iff loose).2.1 accepted).mpr free, rests,
    (verdict_none_right_iff stuck).2.2 rests⟩

/-- A repetition of the empty word is accepted at the end of a text but does not
match there. -/
theorem recognize_empty_of_repeated_nothing :
    let r := oneOrMore (literal "")
    verdict none r = .accepts ∧ r.recognize "" = none ∧
      ¬ (verdict none r = .accepts → r.recognize "" = some 0) := by
  intro r
  have accepted : verdict none r = .accepts := rfl
  have unmatched : r.recognize "" = none := r.recognize_empty
  refine ⟨accepted, unmatched, fun right => ?_⟩
  rw [right accepted] at unmatched
  contradiction

end TextGrammar.Recognizer
