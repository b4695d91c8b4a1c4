import TextGrammar.Proofs.Recognizer.Exhaustion
import TextGrammar.Proofs.Recognizer.Window

/-!
Repetitions between two bounds. The rounds of a repetition are matches that
follow each other, each of them ending further on than it begins, until there is
no match or only one that stays where it is. The main statement is
`exists_unique_longestRun`: the rounds are determined by where the repetition
begins, there are no more of them than bytes, and the repetition ends where the
last of them does.
-/

namespace TextGrammar

namespace Recognizer

/-- The rounds of a repetition of `inner` from a place `start` of the text to a
place `finish`, by the places where they end. Nothing is seen from byte `stop`
on. -/
inductive LongestRun (inner : Recognizer) (text : List Char) (stop : Nat) :
    (start : Nat) → (ends : List Nat) → (finish : Nat) → Prop
  /-- No match begins here, or only one that stays here. -/
  | finished {pos : Nat}
      (stuck : inner.matchIn text pos stop = none ∨
        inner.matchIn text pos stop = some pos) :
      LongestRun inner text stop pos [] pos
  /-- A match ends further on, and the run goes on from there. -/
  | round {pos next finish : Nat} {ends : List Nat}
      (forward : pos < next)
      (found : inner.matchIn text pos stop = some next)
      (others : LongestRun inner text stop next ends finish) :
      LongestRun inner text stop pos (next :: ends) finish

namespace LongestRun

variable {inner : Recognizer} {text : List Char}
  {start stop finish : Nat} {ends : List Nat}

/-- Every round takes at least one byte. -/
theorem add_length_le
    (run : LongestRun inner text stop start ends finish) :
    start + ends.length ≤ finish := by
  induction run with
  | finished stuck =>
      exact Nat.le_refl _
  | round forward found others inductionHypothesis =>
      rw [List.length_cons]
      omega

private theorem finish_le_stop
    (run : LongestRun inner text stop start ends finish)
    (ordered : start ≤ stop) :
    finish ≤ stop := by
  induction run with
  | finished stuck =>
      exact ordered
  | round forward found others inductionHypothesis =>
      exact inductionHypothesis (bounds_of_matchIn found).2.1

/-- A run moves forward just if it has a round. -/
theorem lt_finish_iff
    (run : LongestRun inner text stop start ends finish) :
    start < finish ↔ 1 ≤ ends.length := by
  cases run with
  | finished stuck =>
      simp
  | round forward found others =>
      have rounds := others.add_length_le
      rw [List.length_cons]
      omega

/-- Where a run is finished no round begins. -/
theorem not_round_of_stuck
    {pos next : Nat}
    (stuck : inner.matchIn text pos stop = none ∨
      inner.matchIn text pos stop = some pos)
    (found : inner.matchIn text pos stop = some next) :
    ¬ pos < next := by
  rcases stuck with unmatched | stays
  · rw [unmatched] at found
    contradiction
  · rw [stays, Option.some.injEq] at found
    rw [found]
    exact Nat.lt_irrefl next

/-- Two runs from one place are the same. -/
theorem unique
    {otherEnds : List Nat} {otherFinish : Nat}
    (run : LongestRun inner text stop start ends finish)
    (other : LongestRun inner text stop start otherEnds otherFinish) :
    otherEnds = ends ∧ otherFinish = finish := by
  induction run generalizing otherEnds otherFinish with
  | finished stuck =>
      cases other with
      | finished otherStuck =>
          exact ⟨rfl, rfl⟩
      | round forward found others =>
          exact absurd forward (not_round_of_stuck stuck found)
  | round forward found others inductionHypothesis =>
      cases other with
      | finished stuck =>
          exact absurd forward (not_round_of_stuck stuck found)
      | round otherForward otherFound otherOthers =>
          obtain rfl := Option.some.inj (found.symm.trans otherFound)
          obtain ⟨rfl, rfl⟩ := inductionHypothesis otherOthers
          exact ⟨rfl, rfl⟩

end LongestRun

/-- What a repetition leaves of the characters between two bounds begins where
the longest run of rounds ends. -/
theorem exists_longestRun
    (inner : Recognizer) {text chars : List Char} {start stop : Nat}
    (readable : window? text start stop = some chars) :
    ∃ ends,
      LongestRun inner text stop start ends
        (stop - byteLength (exhaust inner.consume chars)) := by
  fun_induction exhaust inner.consume chars generalizing start with
  | case1 chars stuck =>
      have length := byteLength_of_window? readable
      have atStart : stop - byteLength chars = start := by omega
      have unmatched : inner.matchIn text start stop = none := by
        rw [inner.matchIn_of_window? readable, stuck, Option.map_none]
      rw [atStart]
      exact ⟨[], .finished (.inl unmatched)⟩
  | case2 chars rest consumed shorter inductionHypothesis =>
      obtain ⟨read, rfl⟩ := inner.suffix_of_consume chars rest consumed
      obtain ⟨ends, others⟩ :=
        inductionHypothesis (window?_of_append readable).2
      have found :
          inner.matchIn text start stop = some (start + byteLength read) :=
        matchIn_eq_some_iff.mpr ⟨read, rest, readable, consumed, rfl⟩
      have further : rest <:+ read ++ rest := List.suffix_append read rest
      rw [← byteLength_lt_iff_of_suffix further, byteLength_append] at shorter
      exact ⟨_, .round (by omega) found others⟩
  | case3 chars rest consumed longer =>
      have length := byteLength_of_window? readable
      have atStart : stop - byteLength chars = start := by omega
      have same : rest = chars :=
        (inner.suffix_of_consume chars rest consumed).eq_of_length_le
          (Nat.not_lt.mp longer)
      have stays : inner.matchIn text start stop = some start := by
        rw [inner.matchIn_of_window? readable, consumed, same,
          Option.map_some, atStart]
      rw [atStart]
      exact ⟨[], .finished (.inr stays)⟩

theorem matchIn_zeroOrMore
    (inner : Recognizer) {text chars : List Char} {start stop : Nat}
    (readable : window? text start stop = some chars) :
    (zeroOrMore inner).matchIn text start stop =
      some (stop - byteLength (exhaust inner.consume chars)) := by
  rw [matchIn_of_window? _ readable, consume_zeroOrMore, Option.map_some]

/-- A repetition of at least one match asks that the repetition moves. -/
theorem matchIn_oneOrMore
    (inner : Recognizer) {text : List Char} {start stop finish : Nat}
    (matched : (zeroOrMore inner).matchIn text start stop = some finish) :
    (oneOrMore inner).matchIn text start stop =
      if start < finish then some finish else none := by
  obtain ⟨read, rest, readable, consumed, rfl⟩ :=
    matchIn_eq_some_iff.mp matched
  have length := byteLength_of_window? readable
  rw [consume_zeroOrMore, Option.some.injEq] at consumed
  have further : rest <:+ read ++ rest := List.suffix_append read rest
  rw [matchIn_of_window? _ readable, consume_oneOrMore]
  simp only [consumed, ← byteLength_lt_iff_of_suffix further]
  rw [byteLength_append] at length ⊢
  by_cases moved : 0 < byteLength read
  · rw [if_pos (by omega), if_pos (by omega), Option.map_some]
    congr 1
    omega
  · rw [if_neg (by omega), if_neg (by omega), Option.map_none]

/-- From every boundary there is just one run of consuming matches that goes on
for as long as it can, with no more rounds than there are bytes. A repetition
ends where this run does, and one of at least one match asks for one round. -/
theorem exists_unique_longestRun
    (inner : Recognizer) {text : List Char} {start stop : Nat}
    (ordered : start ≤ stop)
    (startBoundary : IsBoundary text start)
    (stopBoundary : IsBoundary text stop) :
    ∃ ends finish,
      LongestRun inner text stop start ends finish ∧
      (∀ otherEnds otherFinish,
        LongestRun inner text stop start otherEnds otherFinish →
          otherEnds = ends ∧ otherFinish = finish) ∧
      ends.length ≤ stop - start ∧
      (zeroOrMore inner).matchIn text start stop = some finish ∧
      (oneOrMore inner).matchIn text start stop =
        if 1 ≤ ends.length then some finish else none := by
  obtain ⟨chars, readable⟩ :=
    exists_window?_iff.mpr ⟨ordered, startBoundary, stopBoundary⟩
  obtain ⟨ends, run⟩ := exists_longestRun inner readable
  have matched := matchIn_zeroOrMore inner readable
  have rounds := run.add_length_le
  have inside := run.finish_le_stop ordered
  refine ⟨ends, _, run, fun _ _ => run.unique, by omega, matched, ?_⟩
  rw [matchIn_oneOrMore inner matched]
  simp only [run.lt_finish_iff]

/-- A digit or nothing is matched twice behind the accent of `é12x`, and then
only without moving. From there a repetition of at least one match fails. -/
theorem exists_unique_longestRun_of_optional_digit :
    let text := ['é', '1', '2', 'x']
    let inner := optional digit
    inner.isNullable = true ∧
      IsBoundary text 2 ∧ IsBoundary text 4 ∧ IsBoundary text 5 ∧
      LongestRun inner text 5 2 [3, 4] 4 ∧
      (∀ ends finish, LongestRun inner text 5 2 ends finish →
        ends = [3, 4] ∧ finish = 4) ∧
      (zeroOrMore inner).matchIn text 2 5 = some 4 ∧
      (oneOrMore inner).matchIn text 2 5 = some 4 ∧
      LongestRun inner text 5 4 [] 4 ∧
      (oneOrMore inner).matchIn text 4 5 = none := by
  intro text inner
  have startBoundary : IsBoundary text 2 := by decide
  have middleBoundary : IsBoundary text 4 := by decide
  have stopBoundary : IsBoundary text 5 := by decide
  have stays : inner.matchIn text 4 5 = some 4 := by decide +kernel
  have finishedRun : LongestRun inner text 5 4 [] 4 := .finished (.inr stays)
  have run : LongestRun inner text 5 2 [3, 4] 4 :=
    .round (by decide) (by decide +kernel)
      (.round (by decide) (by decide +kernel) finishedRun)
  obtain ⟨_, _, _, unique, _, matched, matchedOnce⟩ :=
    exists_unique_longestRun inner (by decide : 2 ≤ 5) startBoundary
      stopBoundary
  obtain ⟨_, _, _, finishedUnique, _, _, unmatched⟩ :=
    exists_unique_longestRun inner (by decide : 4 ≤ 5) middleBoundary
      stopBoundary
  obtain ⟨rfl, rfl⟩ := unique _ _ run
  obtain ⟨rfl, rfl⟩ := finishedUnique _ _ finishedRun
  exact ⟨by decide, startBoundary, middleBoundary, stopBoundary, run, unique,
    matched, matchedOnce, finishedRun, unmatched⟩

end Recognizer

end TextGrammar
