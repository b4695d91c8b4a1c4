import TextGrammar.Recognizer.Verdict
import TextGrammar.Text.Offset

/-!
Matching. A match consumes an initial part of the characters and is greedy: a
choice commits to the first alternative that matches, and a repetition takes
every consuming match it can. A choice skips the alternatives that the next
character already rejects. The main statement is `suffix_of_consume`: what a
match leaves is a final part of what it was given.
-/

namespace TextGrammar

/-- What follows a word at the start of the characters. -/
def afterWord? : (word chars : List Char) → Option (List Char)
  | [], chars => some chars
  | _ :: _, [] => none
  | c :: word, d :: chars => if c = d then afterWord? word chars else none

theorem afterWord?_eq_some_iff
    {word chars rest : List Char} :
    afterWord? word chars = some rest ↔ chars = word ++ rest := by
  induction word generalizing chars with
  | nil =>
      simp [afterWord?]
  | cons c word inductionHypothesis =>
      cases chars with
      | nil =>
          simp [afterWord?]
      | cons d chars =>
          by_cases equal : c = d
          · simp [afterWord?, equal, inductionHypothesis]
          · simp [afterWord?, equal, Ne.symm equal]

/-- What follows the first character if it passes a test. -/
def afterChar? (test : Char → Bool) : List Char → Option (List Char)
  | [] => none
  | c :: rest => if test c then some rest else none

theorem afterChar?_eq_some_iff
    {test : Char → Bool} {chars rest : List Char} :
    afterChar? test chars = some rest ↔
      ∃ c, test c = true ∧ chars = c :: rest := by
  cases chars with
  | nil =>
      simp [afterChar?]
  | cons c tail =>
      simp only [afterChar?]
      split <;> grind

/-- What is left after a step is repeated while it shortens the characters. A
step that does not shorten them is undone and ends the repetition. -/
def exhaust (step : List Char → Option (List Char)) (chars : List Char) :
    List Char :=
  match step chars with
  | none => chars
  | some rest =>
      if rest.length < chars.length then exhaust step rest else chars
termination_by chars.length

theorem suffix_of_exhaust
    {step : List Char → Option (List Char)}
    (stepSuffix : ∀ chars rest, step chars = some rest → rest <:+ chars)
    (chars : List Char) :
    exhaust step chars <:+ chars := by
  fun_induction exhaust step chars with
  | case1 chars stuck =>
      exact List.suffix_refl chars
  | case2 chars rest found shorter inductionHypothesis =>
      exact inductionHypothesis.trans (stepSuffix chars rest found)
  | case3 chars rest found longer =>
      exact List.suffix_refl chars

namespace Recognizer

mutual

/-- What a match leaves of the characters, or `none` if there is no match. -/
def consume : Recognizer → List Char → Option (List Char)
  | literal word, chars => afterWord? word.toList chars
  | oneOf listed, chars => afterChar? listed.contains chars
  | ofClass classes, chars => afterChar? classes.contains chars
  | sequence parts, chars => consumeEach parts chars
  | choice alternatives, chars => consumeFirst alternatives chars
  | zeroOrMore inner, chars => some (exhaust (consume inner) chars)
  | oneOrMore inner, chars =>
      let rest := exhaust (consume inner) chars
      if rest.length < chars.length then some rest else none

/-- Matches all parts in turn. -/
def consumeEach : List Recognizer → List Char → Option (List Char)
  | [], chars => some chars
  | part :: parts, chars =>
      match consume part chars with
      | some rest => consumeEach parts rest
      | none => none

/-- Matches the first alternative that can match. -/
def consumeFirst : List Recognizer → List Char → Option (List Char)
  | [], _ => none
  | first :: others, chars =>
      if verdict chars.head? first = .rejects then
        consumeFirst others chars
      else
        match consume first chars with
        | some rest => some rest
        | none => consumeFirst others chars

end

mutual

theorem suffix_of_consume :
    ∀ (r : Recognizer) (chars rest : List Char),
      r.consume chars = some rest → rest <:+ chars
  | literal word, chars, rest, found => by
      rw [consume, afterWord?_eq_some_iff] at found
      exact ⟨_, found.symm⟩
  | oneOf listed, chars, rest, found => by
      rw [consume, afterChar?_eq_some_iff] at found
      obtain ⟨c, _, rfl⟩ := found
      exact List.suffix_cons c rest
  | ofClass classes, chars, rest, found => by
      rw [consume, afterChar?_eq_some_iff] at found
      obtain ⟨c, _, rfl⟩ := found
      exact List.suffix_cons c rest
  | sequence parts, chars, rest, found => by
      rw [consume] at found
      exact suffix_of_consumeEach parts chars rest found
  | choice alternatives, chars, rest, found => by
      rw [consume] at found
      exact suffix_of_consumeFirst alternatives chars rest found
  | zeroOrMore inner, chars, rest, found => by
      rw [consume, Option.some.injEq] at found
      subst found
      exact suffix_of_exhaust (suffix_of_consume inner) chars
  | oneOrMore inner, chars, rest, found => by
      simp only [consume, Option.ite_none_right_eq_some,
        Option.some.injEq] at found
      obtain ⟨_, rfl⟩ := found
      exact suffix_of_exhaust (suffix_of_consume inner) chars

theorem suffix_of_consumeEach :
    ∀ (parts : List Recognizer) (chars rest : List Char),
      consumeEach parts chars = some rest → rest <:+ chars
  | [], chars, rest, found => by
      rw [consumeEach, Option.some.injEq] at found
      subst found
      exact List.suffix_refl chars
  | part :: parts, chars, rest, found => by
      rw [consumeEach] at found
      split at found
      · rename_i middle partFound
        exact (suffix_of_consumeEach parts middle rest found).trans
          (suffix_of_consume part chars middle partFound)
      · contradiction

theorem suffix_of_consumeFirst :
    ∀ (alternatives : List Recognizer) (chars rest : List Char),
      consumeFirst alternatives chars = some rest → rest <:+ chars
  | [], chars, rest, found => by
      rw [consumeFirst] at found
      contradiction
  | first :: others, chars, rest, found => by
      rw [consumeFirst] at found
      split at found
      · exact suffix_of_consumeFirst others chars rest found
      · split at found
        · rename_i firstFound
          exact suffix_of_consume first chars rest (by rw [firstFound, found])
        · exact suffix_of_consumeFirst others chars rest found

end

/-- The byte offset where a match ends that begins at byte `start` of the text
and sees nothing from byte `stop` on. Bounds that are reversed, lie beyond the
text or fall inside a character never match. -/
def matchIn (r : Recognizer) (text : List Char) (start stop : Nat) :
    Option Nat := do
  let chars ← window? text start stop
  let rest ← r.consume chars
  return stop - byteLength rest

/-- The byte offset where a match ends that begins at the start of the text. -/
def recognize (r : Recognizer) (text : String) : Option Nat :=
  r.matchIn text.toList 0 (byteLength text.toList)

end Recognizer

end TextGrammar
