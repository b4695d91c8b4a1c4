import TextGrammar.Proofs.Recognizer.Window

/-!
Two kinds of recognizers. A recognizer that is nullable matches at every place
of every text, so neither what stands in front of it in a sequence nor a look
ahead can make it fail. One that is not nullable consumes something whenever it
matches. The main statement is `isNullable_dichotomy`.
-/

namespace TextGrammar

namespace Recognizer

def AlwaysMatches (r : Recognizer) : Prop :=
  ∀ chars, ∃ rest, r.consume chars = some rest

def AlwaysConsumes (r : Recognizer) : Prop :=
  ∀ chars rest, r.consume chars = some rest → rest.length < chars.length

theorem allNullable_eq_all
    (parts : List Recognizer) :
    allNullable parts = parts.all isNullable := by
  induction parts with
  | nil =>
      rfl
  | cons part parts inductionHypothesis =>
      rw [allNullable, List.all_cons, inductionHypothesis]

theorem anyNullable_eq_any
    (alternatives : List Recognizer) :
    anyNullable alternatives = alternatives.any isNullable := by
  induction alternatives with
  | nil =>
      rfl
  | cons first others inductionHypothesis =>
      rw [anyNullable, List.any_cons, inductionHypothesis]

/-- Parts that always match do so one after the other, wherever each of them
begins. -/
theorem exists_consumeEach
    {parts : List Recognizer}
    (matching : ∀ part ∈ parts, part.AlwaysMatches) (chars : List Char) :
    ∃ rest, consumeEach parts chars = some rest := by
  induction parts generalizing chars with
  | nil =>
      exact ⟨chars, rfl⟩
  | cons part parts inductionHypothesis =>
      have ⟨partMatches, partsMatch⟩ := List.forall_mem_cons.mp matching
      obtain ⟨rest, consumed⟩ := partMatches chars
      rw [consumeEach, consumed]
      exact inductionHypothesis partsMatch rest

/-- One part that always consumes is enough, since no part gives characters
back. -/
theorem length_lt_of_consumeEach
    {parts : List Recognizer} {chars rest : List Char}
    (consuming : ∃ part ∈ parts, part.AlwaysConsumes)
    (found : consumeEach parts chars = some rest) :
    rest.length < chars.length := by
  induction parts generalizing chars with
  | nil =>
      simp at consuming
  | cons part parts inductionHypothesis =>
      rw [consumeEach] at found
      split at found
      · rename_i middle consumed
        have partShortens :=
          (part.suffix_of_consume chars middle consumed).length_le
        have partsShorten :=
          (suffix_of_consumeEach parts middle rest found).length_le
        obtain ⟨consumer, member, consumes⟩ := consuming
        rcases List.mem_cons.mp member with equal | later
        · rw [equal] at consumes
          have shorter := consumes chars middle consumed
          omega
        · have shorter :=
            inductionHypothesis ⟨consumer, later, consumes⟩ found
          omega
      · contradiction

theorem alwaysMatches_of_isNullable
    {r : Recognizer} (nullable : r.isNullable = true) :
    r.AlwaysMatches := by
  induction r with
  | literal word =>
      intro chars
      have empty : word.toList = [] := by
        simpa [isNullable] using nullable
      exact ⟨chars, by rw [consume, empty, afterWord?]⟩
  | oneOf listed | ofClass classes | oneOrMore inner _ =>
      simp [isNullable] at nullable
  | sequence parts inductionHypothesis =>
      intro chars
      rw [isNullable, allNullable_eq_all, List.all_eq_true] at nullable
      rw [consume]
      exact exists_consumeEach
        (fun part member => inductionHypothesis part member
          (nullable part member))
        chars
  | choice alternatives inductionHypothesis =>
      intro chars
      rw [isNullable, anyNullable_eq_any, List.any_eq_true] at nullable
      obtain ⟨r, member, rNullable⟩ := nullable
      have matched := inductionHypothesis r member rNullable chars
      rw [← Option.isSome_iff_exists] at matched ⊢
      rw [consume_choice, List.findSome?_isSome_iff]
      exact ⟨r, member, matched⟩
  | zeroOrMore inner _ =>
      intro chars
      rw [consume]
      exact ⟨_, rfl⟩

theorem alwaysConsumes_of_isNullable_eq_false
    {r : Recognizer} (consuming : r.isNullable = false) :
    r.AlwaysConsumes := by
  induction r with
  | literal word =>
      intro chars rest found
      rw [consume, afterWord?_eq_some_iff] at found
      have nonempty : word.toList ≠ [] := by
        simpa [isNullable] using consuming
      have positive := List.length_pos_iff.mpr nonempty
      rw [found, List.length_append]
      omega
  | oneOf listed | ofClass classes =>
      intro chars rest found
      rw [consume, afterChar?_eq_some_iff] at found
      obtain ⟨c, _, rfl⟩ := found
      exact Nat.lt_succ_self rest.length
  | sequence parts inductionHypothesis =>
      intro chars rest found
      rw [consume] at found
      rw [isNullable, allNullable_eq_all, List.all_eq_false] at consuming
      obtain ⟨part, member, partConsumes⟩ := consuming
      rw [Bool.not_eq_true] at partConsumes
      exact length_lt_of_consumeEach
        ⟨part, member, inductionHypothesis part member partConsumes⟩ found
  | choice alternatives inductionHypothesis =>
      intro chars rest found
      rw [consume_choice] at found
      obtain ⟨r, member, consumed⟩ := List.exists_of_findSome?_eq_some found
      rw [isNullable, anyNullable_eq_any, List.any_eq_false] at consuming
      have rConsumes := Bool.eq_false_iff.mpr (consuming r member)
      exact inductionHypothesis r member rConsumes chars rest consumed
  | zeroOrMore inner _ =>
      simp [isNullable] at consuming
  | oneOrMore inner _ =>
      intro chars rest found
      simp only [consume, Option.ite_none_right_eq_some,
        Option.some.injEq] at found
      obtain ⟨shorter, rfl⟩ := found
      exact shorter

/-- No character, nor the end of a text, rejects what always matches. -/
theorem verdict_ne_rejects_of_isNullable
    {r : Recognizer} (nullable : r.isNullable = true) (next : Option Char) :
    verdict next r ≠ .rejects := by
  intro rejected
  obtain ⟨rest, consumed⟩ := alwaysMatches_of_isNullable nullable next.toList
  have atNext : next.toList.head? = next := by
    cases next <;> rfl
  have stuck : r.consume next.toList = none := by
    apply r.consume_eq_none_of_rejects
    rwa [atNext]
  rw [stuck] at consumed
  contradiction

theorem exists_matchIn_of_isNullable
    {r : Recognizer} (nullable : r.isNullable = true)
    {text : List Char} {start stop : Nat}
    (ordered : start ≤ stop)
    (startBoundary : IsBoundary text start)
    (stopBoundary : IsBoundary text stop) :
    ∃ finish, r.matchIn text start stop = some finish := by
  obtain ⟨chars, readable⟩ :=
    exists_window?_iff.mpr ⟨ordered, startBoundary, stopBoundary⟩
  obtain ⟨rest, consumed⟩ := alwaysMatches_of_isNullable nullable chars
  rw [r.matchIn_of_window? readable, consumed]
  exact ⟨_, rfl⟩

theorem lt_of_matchIn_of_isNullable_eq_false
    {r : Recognizer} (consuming : r.isNullable = false)
    {text : List Char} {start stop finish : Nat}
    (found : r.matchIn text start stop = some finish) :
    start < finish := by
  obtain ⟨read, rest, readable, consumed, rfl⟩ :=
    matchIn_eq_some_iff.mp found
  have shorter :=
    alwaysConsumes_of_isNullable_eq_false consuming (read ++ rest) rest consumed
  have further : rest <:+ read ++ rest := List.suffix_append read rest
  rw [← byteLength_lt_iff_of_suffix further, byteLength_append] at shorter
  omega

/-- A nullable recognizer matches between any two boundaries in order and is
rejected by no look ahead, while the matches of any other recognizer end behind
their start. So just the nullable ones match the empty text. -/
theorem isNullable_dichotomy
    (r : Recognizer) :
    (r.isNullable = true →
      (∀ text start stop, start ≤ stop →
        IsBoundary text start → IsBoundary text stop →
          ∃ finish, r.matchIn text start stop = some finish) ∧
      ∀ next, verdict next r ≠ .rejects) ∧
    (r.isNullable = false →
      ∀ text start stop finish,
        r.matchIn text start stop = some finish → start < finish) ∧
    (r.isNullable = true ↔ ∃ finish, r.recognize "" = some finish) := by
  refine ⟨?_, ?_, ?_⟩
  · intro nullable
    constructor
    · intro text start stop ordered startBoundary stopBoundary
      exact exists_matchIn_of_isNullable nullable ordered startBoundary
        stopBoundary
    · exact verdict_ne_rejects_of_isNullable nullable
  · intro consuming text start stop finish found
    exact lt_of_matchIn_of_isNullable_eq_false consuming found
  · have boundary : IsBoundary [] 0 := isBoundary_append [] []
    constructor
    · intro nullable
      exact exists_matchIn_of_isNullable nullable (Nat.le_refl 0) boundary
        boundary
    · intro found
      obtain ⟨finish, found⟩ := found
      have inside : finish ≤ 0 := (bounds_of_matchIn found).2.1
      cases consuming : r.isNullable with
      | true =>
          rfl
      | false =>
          have forward :=
            lt_of_matchIn_of_isNullable_eq_false consuming found
          omega

/-- Blanks or a comma, possibly after digits, match at the end of `é1`; the same
without the choice of blanks does not, and ends behind the comma of `é1,`. -/
theorem isNullable_dichotomy_behind_digits :
    let separator := oneOf [',']
    let loose := sequence [zeroOrMore digit, choice [separator, blanks]]
    let strict := sequence [zeroOrMore digit, choice [separator, whitespace]]
    loose.isNullable = true ∧ IsBoundary ['é', '1'] 2 ∧
      IsBoundary ['é', '1'] 3 ∧
      (∃ finish, loose.matchIn ['é', '1'] 2 3 = some finish) ∧
      (∀ next, verdict next loose ≠ .rejects) ∧
      strict.isNullable = false ∧
      strict.matchIn ['é', '1', ','] 2 4 = some 4 ∧ 2 < 4 ∧
      ¬ ∃ finish, strict.recognize "" = some finish := by
  intro separator loose strict
  have nullable : loose.isNullable = true := by decide
  have consuming : strict.isNullable = false := by decide
  have startBoundary : IsBoundary ['é', '1'] 2 := by decide
  have stopBoundary : IsBoundary ['é', '1'] 3 := by decide
  have matched : strict.matchIn ['é', '1', ','] 2 4 = some 4 := by
    decide +kernel
  have ⟨looseMatches, looseTried⟩ := (isNullable_dichotomy loose).1 nullable
  have ⟨_, strictConsumes, strictEmpty⟩ := isNullable_dichotomy strict
  refine ⟨nullable, startBoundary, stopBoundary, ?_, looseTried, consuming,
    matched, ?_, ?_⟩
  · exact looseMatches _ 2 3 (by decide) startBoundary stopBoundary
  · exact strictConsumes consuming _ 2 4 4 matched
  · rw [← strictEmpty, consuming]
    exact Bool.false_ne_true

end Recognizer

end TextGrammar
