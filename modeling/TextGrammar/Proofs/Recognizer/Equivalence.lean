import TextGrammar.Proofs.Recognizer.Exhaustion
import TextGrammar.Proofs.Recognizer.Offsets
import TextGrammar.Proofs.Recognizer.Runs

/-!
Recognizers that match alike. Recognizers of different shape may match up to the
same place between any two bounds of any text, though their choices look ahead
in different ways. The main statements are `repetitions_collapse` on repetitions
of repetitions, `refactorings_matchAlike` on sequences, choices and classes that
are joined or taken apart, and `MatchAlike.replace`: in any grammar a part may be
replaced by one that matches alike.
-/

namespace TextGrammar

namespace Recognizer

/-- Between any two offsets of any text, both recognizers match up to the same
place, or neither of them matches. -/
def MatchAlike (left right : Recognizer) : Prop :=
  ∀ text start stop,
    left.matchIn text start stop = right.matchIn text start stop

/-- Matches in whole texts already tell what is consumed. -/
theorem matchAlike_iff
    {left right : Recognizer} :
    MatchAlike left right ↔ left.consume = right.consume := by
  constructor
  · intro alike
    funext chars
    have whole := alike chars 0 (byteLength chars)
    rw [left.matchIn_of_window? (window?_whole chars),
      right.matchIn_of_window? (window?_whole chars)] at whole
    cases leftFound : left.consume chars with
    | none =>
        rw [leftFound, Option.map_none, eq_comm,
          Option.map_eq_none_iff] at whole
        exact whole.symm
    | some leftRest =>
        rw [leftFound, Option.map_some, eq_comm,
          Option.map_eq_some_iff] at whole
        obtain ⟨rightRest, rightFound, same⟩ := whole
        rw [rightFound, Option.some.injEq]
        exact eq_of_offsetOf_eq
          (left.suffix_of_consume chars leftRest leftFound)
          (right.suffix_of_consume chars rightRest rightFound) same.symm
  · intro same text start stop
    rw [matchIn, matchIn, same]

theorem zeroOrMore_alike
    {left right : Recognizer}
    (same : exhaust left.consume = exhaust right.consume) :
    MatchAlike (zeroOrMore left) (zeroOrMore right) := by
  rw [matchAlike_iff, consume_zeroOrMore, consume_zeroOrMore, same]

theorem oneOrMore_alike
    {left right : Recognizer}
    (same : exhaust left.consume = exhaust right.consume) :
    MatchAlike (oneOrMore left) (oneOrMore right) := by
  rw [matchAlike_iff, consume_oneOrMore, consume_oneOrMore, same]

theorem sequence_zeroOrMore_zeroOrMore
    (inner : Recognizer) :
    MatchAlike (sequence [zeroOrMore inner, zeroOrMore inner])
      (zeroOrMore inner) := by
  rw [matchAlike_iff]
  simp only [consume_sequence, consumeEach_cons, consumeEach_nil,
    consume_zeroOrMore, Option.bind_some, exhaust_exhaust]

theorem sequence_oneOrMore_zeroOrMore
    (inner : Recognizer) :
    MatchAlike (sequence [oneOrMore inner, zeroOrMore inner])
      (oneOrMore inner) := by
  rw [matchAlike_iff]
  funext chars
  simp only [consume_sequence, consumeEach_cons, consumeEach_nil,
    consume_zeroOrMore, consume_oneOrMore]
  split
  · simp only [Option.bind_some, exhaust_exhaust]
  · rfl

/-- A repetition of at least one match, or nothing, is a repetition. -/
theorem optional_oneOrMore
    (inner : Recognizer) :
    MatchAlike (optional (oneOrMore inner)) (zeroOrMore inner) := by
  rw [matchAlike_iff]
  funext chars
  simp only [consume_optional, consume_oneOrMore, consume_zeroOrMore]
  split
  · rfl
  · rename_i longer
    rw [exhaust_eq_self_of_length inner.suffix_of_consume longer]
    rfl

/-- Repetitions of repetitions, two repetitions in a row and the choice between
a repetition and nothing match like one repetition. -/
theorem repetitions_collapse
    (r : Recognizer) :
    MatchAlike (zeroOrMore (zeroOrMore r)) (zeroOrMore r) ∧
      MatchAlike (zeroOrMore (oneOrMore r)) (zeroOrMore r) ∧
      MatchAlike (sequence [zeroOrMore r, zeroOrMore r]) (zeroOrMore r) ∧
      MatchAlike (choice [oneOrMore r, sequence []]) (zeroOrMore r) ∧
      MatchAlike (oneOrMore (oneOrMore r)) (oneOrMore r) ∧
      MatchAlike (oneOrMore (zeroOrMore r)) (oneOrMore r) ∧
      MatchAlike (sequence [oneOrMore r, zeroOrMore r]) (oneOrMore r) :=
  ⟨zeroOrMore_alike (exhaust_zeroOrMore r),
    zeroOrMore_alike (exhaust_oneOrMore r),
    sequence_zeroOrMore_zeroOrMore r,
    optional_oneOrMore r,
    oneOrMore_alike (exhaust_oneOrMore r),
    oneOrMore_alike (exhaust_zeroOrMore r),
    sequence_oneOrMore_zeroOrMore r⟩

private theorem consumeEach_append
    (front back : List Recognizer) :
    consumeEach (front ++ back) =
      fun chars => (consumeEach front chars).bind (consumeEach back) := by
  induction front with
  | nil =>
      simp only [List.nil_append, consumeEach_nil, Option.bind_some]
  | cons part parts inductionHypothesis =>
      simp only [List.cons_append, consumeEach_cons, inductionHypothesis,
        Option.bind_assoc]

private theorem consume_choice_append
    (front back : List Recognizer) :
    (choice (front ++ back)).consume = fun chars =>
      ((choice front).consume chars).or ((choice back).consume chars) := by
  funext chars
  simp only [consume_choice, List.findSome?_append]

private theorem consume_choice_singleton
    (r : Recognizer) : (choice [r]).consume = r.consume := by
  funext chars
  rw [consume_choice, List.findSome?_singleton]

private theorem consume_choice_pair
    (first second : Recognizer) :
    (choice [first, second]).consume = fun chars =>
      (first.consume chars).or (second.consume chars) := by
  rw [← List.singleton_append, consume_choice_append,
    consume_choice_singleton, consume_choice_singleton]

/-- A sequence inside a sequence may give its parts to it. -/
theorem sequence_flatten
    (front middle back : List Recognizer) :
    MatchAlike (sequence (front ++ [sequence middle] ++ back))
      (sequence (front ++ middle ++ back)) := by
  have single : consumeEach [sequence middle] = consumeEach middle := by
    simp only [consumeEach_cons, consumeEach_nil, consume_sequence,
      Option.bind_fun_some]
  rw [matchAlike_iff]
  simp only [consume_sequence, consumeEach_append, single]

/-- A choice inside a choice may give its alternatives to it. -/
theorem choice_flatten
    (front middle back : List Recognizer) :
    MatchAlike (choice (front ++ [choice middle] ++ back))
      (choice (front ++ middle ++ back)) := by
  rw [matchAlike_iff]
  simp only [consume_choice_append, consume_choice_singleton]

/-- What two alternatives begin with may be matched before the choice. -/
theorem choice_factor
    (head : Recognizer) (left right : List Recognizer) :
    MatchAlike (choice [sequence (head :: left), sequence (head :: right)])
      (sequence [head, choice [sequence left, sequence right]]) := by
  rw [matchAlike_iff]
  funext chars
  simp only [consume_choice_pair, consume_sequence, consumeEach_cons,
    consumeEach_nil, Option.bind_fun_some]
  cases head.consume chars <;> rfl

private theorem afterChar?_or
    (first second : Char → Bool) (chars : List Char) :
    (afterChar? first chars).or (afterChar? second chars) =
      afterChar? (fun c => first c || second c) chars := by
  cases chars with
  | nil =>
      rfl
  | cons c rest =>
      by_cases firstPasses : first c = true
      · simp [afterChar?, firstPasses]
      · by_cases secondPasses : second c = true
        · simp [afterChar?, firstPasses, secondPasses]
        · simp [afterChar?, firstPasses, secondPasses]

theorem choice_ofClass
    (left right : CharClass) :
    MatchAlike (choice [ofClass left, ofClass right])
      (ofClass (left ∪ right)) := by
  rw [matchAlike_iff]
  simp only [consume_choice_pair, consume_ofClass, afterChar?_or,
    CharClass.contains_union]

/-- Sequences in sequences and choices in choices may be flattened, alternatives
that begin with the same recognizer may be factored, and a choice between two
classes may be joined to one class. -/
theorem refactorings_matchAlike
    (front middle back : List Recognizer)
    (head : Recognizer) (left right : List Recognizer)
    (firstClass secondClass : CharClass) :
    MatchAlike (sequence (front ++ [sequence middle] ++ back))
        (sequence (front ++ middle ++ back)) ∧
      MatchAlike (choice (front ++ [choice middle] ++ back))
        (choice (front ++ middle ++ back)) ∧
      MatchAlike
        (choice [sequence (head :: left), sequence (head :: right)])
        (sequence [head, choice [sequence left, sequence right]]) ∧
      MatchAlike (choice [ofClass firstClass, ofClass secondClass])
        (ofClass (firstClass ∪ secondClass)) :=
  ⟨sequence_flatten front middle back, choice_flatten front middle back,
    choice_factor head left right, choice_ofClass firstClass secondClass⟩

/-- The second of two grammars is the first one with `new` in place of one
`old`. -/
inductive Replaced (old new : Recognizer) :
    (before after : Recognizer) → Prop
  | here : Replaced old new old new
  | inSequence (front back : List Recognizer) {part changed : Recognizer} :
      Replaced old new part changed →
      Replaced old new
        (sequence (front ++ part :: back)) (sequence (front ++ changed :: back))
  | inChoice (front back : List Recognizer) {r changed : Recognizer} :
      Replaced old new r changed →
      Replaced old new
        (choice (front ++ r :: back)) (choice (front ++ changed :: back))
  | inZeroOrMore {inner changed : Recognizer} :
      Replaced old new inner changed →
      Replaced old new (zeroOrMore inner) (zeroOrMore changed)
  | inOneOrMore {inner changed : Recognizer} :
      Replaced old new inner changed →
      Replaced old new (oneOrMore inner) (oneOrMore changed)

/-- A part of a grammar may be replaced by one that matches alike, however deep
it lies and whatever stands around it. Only what is consumed counts; a character may
reject one of the two and not the other. -/
theorem MatchAlike.replace
    {old new before after : Recognizer}
    (alike : MatchAlike old new) (replaced : Replaced old new before after) :
    MatchAlike before after := by
  induction replaced with
  | here =>
      exact alike
  | inSequence front back inside inductionHypothesis =>
      rw [matchAlike_iff] at inductionHypothesis ⊢
      simp only [consume_sequence, consumeEach_append, consumeEach_cons,
        inductionHypothesis]
  | inChoice front back inside inductionHypothesis =>
      rw [matchAlike_iff] at inductionHypothesis ⊢
      funext chars
      simp only [consume_choice, List.findSome?_append, List.findSome?_cons,
        inductionHypothesis]
  | inZeroOrMore inside inductionHypothesis =>
      rw [matchAlike_iff] at inductionHypothesis
      exact zeroOrMore_alike (congrArg exhaust inductionHypothesis)
  | inOneOrMore inside inductionHypothesis =>
      rw [matchAlike_iff] at inductionHypothesis
      exact oneOrMore_alike (congrArg exhaust inductionHypothesis)

/-- The blanks before a token may be matched one by one. -/
theorem token_matchAlike
    (r : Recognizer) :
    MatchAlike (token r) (sequence [zeroOrMore (ofClass .whitespace), r]) := by
  have single : MatchAlike blanks (zeroOrMore (ofClass .whitespace)) :=
    zeroOrMore_alike (exhaust_oneOrMore _)
  exact single.replace (.inSequence [] [r] .here)

end Recognizer

end TextGrammar
