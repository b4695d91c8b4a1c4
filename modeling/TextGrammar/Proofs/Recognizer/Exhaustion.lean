import TextGrammar.Proofs.Recognizer.Lookahead

/-!
What repeated steps leave. Only the steps that shorten the characters count, and
none of them is possible where a repetition ends. The main statements are
`exhaust_zeroOrMore` and `exhaust_oneOrMore`: repeating a repetition leaves what
the repetition leaves.
-/

namespace TextGrammar

section

variable {step other : List Char → Option (List Char)}
  {chars rest : List Char}

/-- A repetition whose first step shortens nothing leaves everything. -/
theorem exhaust_eq_self
    (stuck : ∀ rest, step chars = some rest →
      ¬ rest.length < chars.length) :
    exhaust step chars = chars := by
  rw [exhaust]
  split
  · rfl
  · rename_i rest found
    rw [if_neg (stuck rest found)]

theorem exhaust_of_step
    (found : step chars = some rest) (shorter : rest.length < chars.length) :
    exhaust step chars = exhaust step rest := by
  rw [exhaust, found]
  simp only [shorter, if_true]

/-- No step shortens what a repetition leaves. -/
theorem not_length_lt_of_exhaust
    (found : step (exhaust step chars) = some rest) :
    ¬ rest.length < (exhaust step chars).length := by
  fun_induction exhaust step chars with
  | case1 chars stuck =>
      rw [stuck] at found
      contradiction
  | case2 chars next stepped shorter inductionHypothesis =>
      exact inductionHypothesis found
  | case3 chars next stepped longer =>
      rw [stepped, Option.some.injEq] at found
      rwa [← found]

/-- A repetition behind a repetition leaves what the first one leaves. -/
theorem exhaust_exhaust
    (step : List Char → Option (List Char)) (chars : List Char) :
    exhaust step (exhaust step chars) = exhaust step chars :=
  exhaust_eq_self fun _ found => not_length_lt_of_exhaust found

/-- Steps that do not shorten the characters may differ. -/
theorem exhaust_congr
    (same : ∀ chars rest, rest.length < chars.length →
      (step chars = some rest ↔ other chars = some rest))
    (chars : List Char) :
    exhaust step chars = exhaust other chars := by
  fun_induction exhaust step chars with
  | case1 chars stuck =>
      symm
      apply exhaust_eq_self
      intro rest found shorter
      rw [(same chars rest shorter).mpr found] at stuck
      contradiction
  | case2 chars rest found shorter inductionHypothesis =>
      rw [exhaust_of_step ((same chars rest shorter).mp found) shorter]
      exact inductionHypothesis
  | case3 chars rest found longer =>
      symm
      apply exhaust_eq_self
      intro next otherFound shorter
      rw [(same chars next shorter).mpr otherFound,
        Option.some.injEq] at found
      exact longer (found ▸ shorter)

theorem exhaust_eq_self_of_length
    (stepSuffix : ∀ chars rest, step chars = some rest → rest <:+ chars)
    (longer : ¬ (exhaust step chars).length < chars.length) :
    exhaust step chars = chars :=
  (suffix_of_exhaust stepSuffix chars).eq_of_length_le (Nat.not_lt.mp longer)

/-- Repeating a repetition takes one round, after which it stays where it
is. -/
theorem exhaust_some_exhaust
    (stepSuffix : ∀ chars rest, step chars = some rest → rest <:+ chars)
    (chars : List Char) :
    exhaust (fun chars => some (exhaust step chars)) chars =
      exhaust step chars := by
  have stays : ∀ chars, exhaust step chars = chars →
      exhaust (fun chars => some (exhaust step chars)) chars = chars := by
    intro chars fixed
    apply exhaust_eq_self
    intro rest found
    rw [fixed, Option.some.injEq] at found
    rw [← found]
    exact Nat.lt_irrefl _
  by_cases shorter : (exhaust step chars).length < chars.length
  · calc
      exhaust (fun chars => some (exhaust step chars)) chars
      _ = exhaust (fun chars => some (exhaust step chars))
            (exhaust step chars) := exhaust_of_step rfl shorter
      _ = exhaust step chars := stays _ (exhaust_exhaust step chars)
  · have fixed := exhaust_eq_self_of_length stepSuffix shorter
    rw [stays chars fixed, fixed]

end

namespace Recognizer

theorem consume_oneOrMore
    (inner : Recognizer) :
    (oneOrMore inner).consume = fun chars =>
      if (exhaust inner.consume chars).length < chars.length then
        some (exhaust inner.consume chars)
      else
        none := by
  funext chars
  rw [consume]

theorem exhaust_zeroOrMore
    (inner : Recognizer) :
    exhaust (zeroOrMore inner).consume = exhaust inner.consume := by
  funext chars
  rw [consume_zeroOrMore]
  exact exhaust_some_exhaust inner.suffix_of_consume chars

/-- A repetition that may be empty and one that may not have the same consuming
matches, so it makes no difference which of them is repeated. -/
theorem exhaust_oneOrMore
    (inner : Recognizer) :
    exhaust (oneOrMore inner).consume = exhaust inner.consume := by
  rw [← exhaust_zeroOrMore inner]
  funext chars
  apply exhaust_congr
  intro chars rest shorter
  rw [consume_oneOrMore, consume_zeroOrMore]
  simp only [Option.ite_none_right_eq_some, Option.some.injEq,
    and_iff_right_iff_imp]
  rintro rfl
  exact shorter

end Recognizer

end TextGrammar
