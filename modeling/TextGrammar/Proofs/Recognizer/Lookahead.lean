import TextGrammar.Recognizer.Match

/-!
Looking ahead changes no match. A choice skips the alternatives that the next
character rejects; plain matching skips none and tries every alternative in
order. The main statement is `matchIn_eq_matchPlainIn`: both give the same
match in every part of every text, and an alternative that is skipped would not
have matched.
-/

namespace TextGrammar

namespace Recognizer

/-- Induction over a recognizer with a hypothesis for every part of a sequence
and for every alternative of a choice. -/
@[elab_as_elim, induction_eliminator]
theorem induction
    {motive : Recognizer → Prop}
    (literal : ∀ word, motive (literal word))
    (oneOf : ∀ listed, motive (oneOf listed))
    (ofClass : ∀ classes, motive (ofClass classes))
    (sequence : ∀ parts, (∀ part ∈ parts, motive part) →
      motive (sequence parts))
    (choice : ∀ alternatives, (∀ r ∈ alternatives, motive r) →
      motive (choice alternatives))
    (zeroOrMore : ∀ inner, motive inner → motive (zeroOrMore inner))
    (oneOrMore : ∀ inner, motive inner → motive (oneOrMore inner)) :
    ∀ r, motive r
  | .literal word => literal word
  | .oneOf listed => oneOf listed
  | .ofClass classes => ofClass classes
  | .sequence parts => sequence parts fun part _ =>
      induction literal oneOf ofClass sequence choice zeroOrMore oneOrMore part
  | .choice alternatives => choice alternatives fun r _ =>
      induction literal oneOf ofClass sequence choice zeroOrMore oneOrMore r
  | .zeroOrMore inner => zeroOrMore inner <|
      induction literal oneOf ofClass sequence choice zeroOrMore oneOrMore inner
  | .oneOrMore inner => oneOrMore inner <|
      induction literal oneOf ofClass sequence choice zeroOrMore oneOrMore inner

theorem verdictOfAny_eq_rejects_iff
    {next : Option Char} {alternatives : List Recognizer} :
    verdictOfAny next alternatives = .rejects ↔
      ∀ r ∈ alternatives, verdict next r = .rejects := by
  induction alternatives with
  | nil =>
      simp [verdictOfAny]
  | cons first others inductionHypothesis =>
      rw [verdictOfAny, List.forall_mem_cons, ← inductionHypothesis]
      cases verdict next first <;> cases verdictOfAny next others <;>
        simp [Verdict.orElse]

private theorem consumeFirst_eq_none_of_rejects
    {alternatives : List Recognizer} {chars : List Char}
    (rejected : ∀ r ∈ alternatives, verdict chars.head? r = .rejects) :
    consumeFirst alternatives chars = none := by
  induction alternatives with
  | nil =>
      rfl
  | cons first others inductionHypothesis =>
      obtain ⟨firstRejected, othersRejected⟩ :=
        List.forall_mem_cons.mp rejected
      rw [consumeFirst, if_pos firstRejected]
      exact inductionHypothesis othersRejected

private theorem afterWord?_eq_none_of_head?
    {head : Char} {word chars : List Char}
    (different : chars.head? ≠ some head) :
    afterWord? (head :: word) chars = none := by
  cases chars with
  | nil =>
      rfl
  | cons c rest =>
      have distinct : ¬ head = c := fun equal =>
        different (by rw [equal, List.head?_cons])
      rw [afterWord?, if_neg distinct]

private theorem afterChar?_eq_none_of_head?
    {test : Char → Bool} {chars : List Char}
    (failed : chars.head?.any test = false) :
    afterChar? test chars = none := by
  cases chars with
  | nil =>
      rfl
  | cons c rest =>
      rw [List.head?_cons, Option.any_some] at failed
      rw [afterChar?, failed]
      rfl

/-- A repetition whose first step fails leaves everything. -/
theorem exhaust_eq_self_of_none
    {step : List Char → Option (List Char)} {chars : List Char}
    (stuck : step chars = none) :
    exhaust step chars = chars := by
  rw [exhaust, stuck]

/-- A recognizer that the next character rejects does not match. -/
theorem consume_eq_none_of_rejects
    (r : Recognizer) {chars : List Char}
    (rejected : verdict chars.head? r = .rejects) :
    r.consume chars = none := by
  induction r with
  | literal word =>
      rw [consume]
      cases spelled : word.toList with
      | nil =>
          simp [verdict, spelled] at rejected
      | cons head tail =>
          apply afterWord?_eq_none_of_head?
          intro equal
          simp [verdict, spelled, equal, Verdict.ofBool] at rejected
  | oneOf listed =>
      rw [consume]
      apply afterChar?_eq_none_of_head?
      apply Bool.eq_false_iff.mpr
      intro passed
      simp [verdict, passed, Verdict.ofBool] at rejected
  | ofClass classes =>
      rw [consume]
      apply afterChar?_eq_none_of_head?
      apply Bool.eq_false_iff.mpr
      intro passed
      simp [verdict, passed, Verdict.ofBool] at rejected
  | sequence parts inductionHypothesis =>
      cases parts with
      | nil =>
          simp [verdict] at rejected
      | cons head tail =>
          have headRejected : verdict chars.head? head = .rejects := by
            by_cases nullable : head.isNullable
            · simp [verdict, nullable] at rejected
            · simpa [verdict, nullable] using rejected
          have headFails :=
            inductionHypothesis head List.mem_cons_self headRejected
          rw [consume, consumeEach, headFails]
  | choice alternatives _ =>
      rw [verdict, verdictOfAny_eq_rejects_iff] at rejected
      rw [consume]
      exact consumeFirst_eq_none_of_rejects rejected
  | zeroOrMore inner _ =>
      simp [verdict] at rejected
  | oneOrMore inner inductionHypothesis =>
      rw [verdict] at rejected
      have stuck := exhaust_eq_self_of_none (inductionHypothesis rejected)
      simp [consume, stuck]

theorem consume_sequence
    (parts : List Recognizer) :
    (sequence parts).consume = consumeEach parts := by
  funext chars
  rw [consume]

theorem consume_zeroOrMore
    (inner : Recognizer) :
    (zeroOrMore inner).consume =
      fun chars => some (exhaust inner.consume chars) := by
  funext chars
  rw [consume]

theorem consumeEach_nil : consumeEach [] = some := by
  funext chars
  rw [consumeEach]

theorem consumeEach_cons
    (part : Recognizer) (parts : List Recognizer) :
    consumeEach (part :: parts) =
      fun chars => (part.consume chars).bind (consumeEach parts) := by
  funext chars
  rw [consumeEach]
  cases part.consume chars <;> rfl

/-- A choice gives the first match of its alternatives, whatever it skips. -/
theorem consume_choice
    (alternatives : List Recognizer) (chars : List Char) :
    (choice alternatives).consume chars =
      alternatives.findSome? fun r => r.consume chars := by
  rw [consume]
  induction alternatives with
  | nil =>
      rfl
  | cons first others inductionHypothesis =>
      rw [consumeFirst, List.findSome?_cons, inductionHypothesis]
      by_cases rejected : verdict chars.head? first = .rejects
      · rw [if_pos rejected, consume_eq_none_of_rejects first rejected]
      · rw [if_neg rejected]
        cases first.consume chars <;> rfl

theorem consume_optional
    (r : Recognizer) :
    (optional r).consume =
      fun chars => (r.consume chars).or (some chars) := by
  funext chars
  rw [optional, consume_choice, List.findSome?_cons]
  cases r.consume chars <;> rfl

mutual

/-- What a match leaves of the characters if no choice looks ahead. -/
def consumePlain : Recognizer → List Char → Option (List Char)
  | literal word, chars => afterWord? word.toList chars
  | oneOf listed, chars => afterChar? listed.contains chars
  | ofClass classes, chars => afterChar? classes.contains chars
  | sequence parts, chars => consumePlainEach parts chars
  | choice alternatives, chars => consumePlainFirst alternatives chars
  | zeroOrMore inner, chars => some (exhaust (consumePlain inner) chars)
  | oneOrMore inner, chars =>
      let rest := exhaust (consumePlain inner) chars
      if rest.length < chars.length then some rest else none

def consumePlainEach : List Recognizer → List Char → Option (List Char)
  | [], chars => some chars
  | part :: parts, chars =>
      match consumePlain part chars with
      | some rest => consumePlainEach parts rest
      | none => none

def consumePlainFirst : List Recognizer → List Char → Option (List Char)
  | [], _ => none
  | first :: others, chars =>
      match consumePlain first chars with
      | some rest => some rest
      | none => consumePlainFirst others chars

end

def matchPlainIn (r : Recognizer) (text : List Char) (start stop : Nat) :
    Option Nat := do
  let chars ← window? text start stop
  let rest ← r.consumePlain chars
  return stop - byteLength rest

private theorem consumeEach_eq_consumePlainEach
    {parts : List Recognizer}
    (same : ∀ part ∈ parts, part.consume = part.consumePlain)
    (chars : List Char) :
    consumeEach parts chars = consumePlainEach parts chars := by
  induction parts generalizing chars with
  | nil =>
      rfl
  | cons part parts inductionHypothesis =>
      rcases List.forall_mem_cons.mp same with ⟨samePart, sameParts⟩
      rw [consumeEach, consumePlainEach, samePart]
      cases part.consumePlain chars with
      | none =>
          rfl
      | some rest =>
          exact inductionHypothesis sameParts rest

private theorem consumeFirst_eq_consumePlainFirst
    {alternatives : List Recognizer}
    (same : ∀ r ∈ alternatives, r.consume = r.consumePlain)
    (chars : List Char) :
    consumeFirst alternatives chars =
      consumePlainFirst alternatives chars := by
  induction alternatives with
  | nil =>
      rfl
  | cons first others inductionHypothesis =>
      rcases List.forall_mem_cons.mp same with ⟨sameFirst, sameOthers⟩
      rw [consumeFirst, consumePlainFirst, ← sameFirst,
        ← inductionHypothesis sameOthers]
      by_cases rejected : verdict chars.head? first = .rejects
      · rw [if_pos rejected, consume_eq_none_of_rejects first rejected]
      · cases first.consume chars <;> simp only [if_neg rejected]

/-- Looking ahead changes nothing at any level of a tree: an alternative that is
skipped would fail. -/
theorem consume_eq_consumePlain
    (r : Recognizer) : r.consume = r.consumePlain := by
  induction r with
  | literal word | oneOf listed | ofClass classes =>
      funext chars
      rw [consume, consumePlain]
  | sequence parts inductionHypothesis =>
      funext chars
      rw [consume, consumePlain]
      exact consumeEach_eq_consumePlainEach inductionHypothesis chars
  | choice alternatives inductionHypothesis =>
      funext chars
      rw [consume, consumePlain]
      exact consumeFirst_eq_consumePlainFirst inductionHypothesis chars
  | zeroOrMore inner inductionHypothesis
  | oneOrMore inner inductionHypothesis =>
      funext chars
      rw [consume, consumePlain, inductionHypothesis]

/-- Matching gives what plain matching gives, between any two offsets of any
text, and what the next character rejects does not match there. -/
theorem matchIn_eq_matchPlainIn
    (r : Recognizer) (text : List Char) (start stop : Nat) :
    r.matchIn text start stop = r.matchPlainIn text start stop ∧
      ∀ chars, window? text start stop = some chars →
        verdict chars.head? r = .rejects →
          r.matchPlainIn text start stop = none := by
  have same :
      r.matchIn text start stop = r.matchPlainIn text start stop := by
    unfold matchIn matchPlainIn
    rw [consume_eq_consumePlain r]
  refine ⟨same, ?_⟩
  intro chars read rejected
  rw [← same, matchIn, read]
  simp [consume_eq_none_of_rejects r rejected]

theorem matchPlainIn_eq_none_of_skipped_literal :
    window? ['a', 'b', 'c'] 1 2 = some ['b'] ∧
      verdict (some 'b') (literal "ac") = .rejects ∧
      (literal "ac").matchPlainIn ['a', 'b', 'c'] 1 2 = none :=
  have read : window? ['a', 'b', 'c'] 1 2 = some ['b'] := by decide
  have rejected : verdict (some 'b') (literal "ac") = .rejects := by decide
  ⟨read, rejected,
    (matchIn_eq_matchPlainIn (literal "ac") ['a', 'b', 'c'] 1 2).2
      ['b'] read rejected⟩

end Recognizer

end TextGrammar
