import TextGrammar.Proofs.CharClass
import TextGrammar.Proofs.Recognizer.Exhaustion

/-!
Runs of characters. A repetition of single characters consumes the longest run
of characters that pass, and leaves what follows the run. The main statement is
`consume_token`: a token is looked for behind all blanks at the start.
-/

namespace TextGrammar

private theorem dropWhile_eq_self_of_head?
    {test : Char → Bool} {chars : List Char}
    (stops : chars.head?.any test = false) :
    chars.dropWhile test = chars := by
  cases chars with
  | nil =>
      rfl
  | cons c rest =>
      rw [List.head?_cons, Option.any_some] at stops
      rw [List.dropWhile_cons, stops]
      rfl

/-- What follows a run, if it does not go on with the run. -/
theorem dropWhile_append_of_head?
    {test : Char → Bool} {run rest : List Char}
    (passes : ∀ c ∈ run, test c = true)
    (stops : rest.head?.any test = false) :
    (run ++ rest).dropWhile test = rest := by
  rw [List.dropWhile_append_of_pos passes, dropWhile_eq_self_of_head? stops]

/-- A run ends where something follows that does not go on with it. -/
theorem takeWhile_append_of_head?
    {test : Char → Bool} {run rest : List Char}
    (passes : ∀ c ∈ run, test c = true)
    (stops : rest.head?.any test = false) :
    (run ++ rest).takeWhile test = run := by
  have parts := List.takeWhile_append_dropWhile (p := test) (l := run ++ rest)
  rw [dropWhile_append_of_head? passes stops] at parts
  exact List.append_cancel_right parts

/-- Repeating a step over one character drops the run at the start. -/
theorem exhaust_afterChar?
    (test : Char → Bool) (chars : List Char) :
    exhaust (afterChar? test) chars = chars.dropWhile test := by
  induction chars with
  | nil =>
      rw [exhaust]
      rfl
  | cons c rest inductionHypothesis =>
      rw [exhaust, afterChar?, List.dropWhile_cons]
      by_cases passed : test c = true
      · simp only [passed, if_true, List.length_cons, Nat.lt_succ_self]
        exact inductionHypothesis
      · simp only [passed, if_false, Bool.false_eq_true]

namespace Recognizer

private theorem length_dropWhile_lt_iff
    {test : Char → Bool} {chars : List Char} :
    (chars.dropWhile test).length < chars.length ↔
      chars.head?.any test = true := by
  cases chars with
  | nil =>
      simp
  | cons c rest =>
      have shorter := (rest.dropWhile_suffix test).length_le
      by_cases passed : test c = true
      · simp only [List.dropWhile_cons_of_pos passed, List.length_cons,
          List.head?_cons, Option.any_some, passed, iff_true]
        omega
      · simp [List.dropWhile_cons_of_neg passed, passed]

/-- A repetition of a single character consumes a run that is not empty. -/
theorem consume_oneOrMore_of_afterChar?
    {inner : Recognizer} {test : Char → Bool}
    (single : inner.consume = afterChar? test) (chars : List Char) :
    (oneOrMore inner).consume chars =
      if chars.head?.any test then some (chars.dropWhile test) else none := by
  simp only [consume, single, exhaust_afterChar?, length_dropWhile_lt_iff]

theorem consume_ofClass
    (classes : CharClass) :
    (ofClass classes).consume = afterChar? classes.contains := by
  funext chars
  rw [consume]

theorem consume_digits
    (chars : List Char) :
    digits.consume chars =
      if chars.head?.any Char.isDigit then
        some (chars.dropWhile Char.isDigit)
      else
        none := by
  apply consume_oneOrMore_of_afterChar?
  rw [digit, consume_ofClass, funext CharClass.contains_digit]

/-- Blanks are consumed to the last one. -/
theorem consume_blanks
    (chars : List Char) :
    blanks.consume chars = some (chars.dropWhile CharClass.isBlank) := by
  rw [blanks, consume_zeroOrMore, whitespace, exhaust_oneOrMore,
    consume_ofClass, funext CharClass.contains_whitespace]
  simp only [exhaust_afterChar?]

/-- A token is looked for behind all blanks at the start. -/
theorem consume_token
    (r : Recognizer) (chars : List Char) :
    (token r).consume chars =
      r.consume (chars.dropWhile CharClass.isBlank) := by
  rw [token, consume_sequence, consumeEach_cons, consumeEach_cons,
    consumeEach_nil]
  simp only [consume_blanks, Option.bind_some, Option.bind_fun_some]

end Recognizer

end TextGrammar
