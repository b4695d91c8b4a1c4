import TextGrammar.Proofs.Cursor.Reading
import TextGrammar.Proofs.Recognizer.Runs

/-!
Character by character. Some calls of `advance` give the characters of a cursor one
after the other and then nothing more, and the loop that skips blanks is as many of
these calls as there are blanks at the position. The main statement is
`skipBlanks_eq_match`: the loop ends where the recognizer of blanks ends.
-/

namespace TextGrammar.Cursor

variable {cursor : Cursor} {chars : List Char}

def advances (cursor : Cursor) :
    (count : Nat) → Except Fault (List (Option Char) × Cursor)
  | 0 => .ok ([], cursor)
  | count + 1 => do
      let (next, moved) ← cursor.advance
      let (others, last) ← moved.advances count
      return (next :: others, last)

private theorem advances_succ
    {next : Option Char} {moved last : Cursor} {others : List (Option Char)}
    {count : Nat}
    (advanced : cursor.advance = .ok (next, moved))
    (further : moved.advances count = .ok (others, last)) :
    cursor.advances (count + 1) = .ok (next :: others, last) := by
  simp only [advances, advanced, further, bind, Except.bind, pure, Except.pure]

/-- Calls of `advance` give the characters in turn, then nothing any more, and leave
the cursor behind the characters that they gave. -/
theorem advances_of_chars
    (readable : cursor.chars = .ok chars) (count : Nat) :
    cursor.advances count =
      .ok ((chars.take count).map some ++
          List.replicate (count - chars.length) none,
        cursor.past (chars.take count)) := by
  induction count generalizing cursor chars with
  | zero =>
      simp [advances, past]
  | succ count inductionHypothesis =>
      have advanced := advance_of_chars readable
      cases chars with
      | nil =>
          rw [advances_succ advanced (inductionHypothesis readable)]
          simp [past, List.replicate_succ]
      | cons c rest =>
          have readRest : (cursor.past [c]).chars = .ok rest :=
            chars_past readable
          rw [advances_succ advanced (inductionHypothesis readRest)]
          simp [past_past]

/-- The loop that skips blanks, run from one cursor to another: it advances while
the next character is a blank. -/
inductive SkipLoop : Cursor → Cursor → Prop
  | stop {cursor : Cursor} {next : Option Char} :
      cursor.peek = .ok next → (∀ c ∈ next, c ∉ CharClass.whitespace) →
        SkipLoop cursor cursor
  | round {cursor moved last : Cursor} {c : Char} {answer : Option Char} :
      cursor.peek = .ok (some c) → c ∈ CharClass.whitespace →
        cursor.advance = .ok (answer, moved) → SkipLoop moved last →
          SkipLoop cursor last

private theorem mem_whitespace_iff
    {c : Char} : c ∈ CharClass.whitespace ↔ CharClass.isBlank c = true := by
  rw [CharClass.mem_iff, CharClass.contains_whitespace]

theorem skipLoop_of_chars
    (readable : cursor.chars = .ok chars) :
    SkipLoop cursor (cursor.past (chars.takeWhile CharClass.isBlank)) := by
  induction chars generalizing cursor with
  | nil =>
      exact .stop (peek_of_chars readable) nofun
  | cons c rest inductionHypothesis =>
      have peeked : cursor.peek = .ok (some c) := peek_of_chars readable
      by_cases blank : CharClass.isBlank c = true
      · have readRest : (cursor.past [c]).chars = .ok rest :=
          chars_past readable
        rw [List.takeWhile_cons_of_pos blank, ← List.singleton_append,
          ← past_past]
        exact .round peeked (mem_whitespace_iff.mpr blank)
          (advance_of_chars readable) (inductionHypothesis readRest)
      · rw [List.takeWhile_cons_of_neg blank]
        refine .stop peeked fun d same => ?_
        rw [← Option.some.inj same, mem_whitespace_iff]
        exact blank

theorem SkipLoop.unique
    {last other : Cursor}
    (first : SkipLoop cursor last) (second : SkipLoop cursor other) :
    last = other := by
  induction first with
  | stop peeked stops =>
      cases second with
      | stop _ _ =>
          rfl
      | round again blank _ _ =>
          obtain rfl := Except.ok.inj (peeked.symm.trans again)
          exact absurd blank (stops _ rfl)
  | round peeked blank advanced _ inductionHypothesis =>
      cases second with
      | stop again stops =>
          obtain rfl := Except.ok.inj (peeked.symm.trans again)
          exact absurd blank (stops _ rfl)
      | round _ _ advancedAgain further =>
          obtain ⟨rfl, rfl⟩ :=
            Prod.mk.inj (Except.ok.inj (advanced.symm.trans advancedAgain))
          exact inductionHypothesis further

private theorem isBlank_iff
    {c : Char} :
    CharClass.isBlank c = true ↔
      c ∈ [' ', '\t', '\n', '\r', '\x0b', '\x0c'] := by
  rw [CharClass.isBlank, List.contains_iff_mem]

/-- The recognizer of blanks ends behind the blanks at the position. -/
theorem matchIn_blanks
    (readable : cursor.chars = .ok chars) :
    Recognizer.blanks.matchIn cursor.buffer.chars cursor.pos cursor.stop =
      some (cursor.past (chars.takeWhile CharClass.isBlank)).pos := by
  have parts := chars.takeWhile_append_dropWhile (p := CharClass.isBlank)
  refine Recognizer.matchIn_eq_some_iff.mpr
    ⟨chars.takeWhile CharClass.isBlank, chars.dropWhile CharClass.isBlank,
      ?_, ?_, rfl⟩
  · rw [parts]
    exact chars_eq_ok_iff.mp readable
  · rw [parts, Recognizer.consume_blanks]

/-- Skipping blanks is as many calls of `advance` as there are blanks. -/
theorem advances_blanks
    (readable : cursor.chars = .ok chars) :
    let skipped := chars.takeWhile CharClass.isBlank
    cursor.advances skipped.length =
      .ok (skipped.map some, cursor.past skipped) := by
  intro skipped
  have initial : skipped <+: chars := List.takeWhile_prefix _
  rw [advances_of_chars readable, ← List.prefix_iff_eq_take.mp initial,
    Nat.sub_eq_zero_of_le initial.length_le, List.replicate_zero,
    List.append_nil]

/-- On a well-placed cursor the loop that skips blanks ends, at the place where the
recognizer of blanks ends and as many calls of `advance` as there were blanks. It
passes ASCII blanks only and stops before anything else. Any number of calls gives
the first characters of the text in turn, and nothing behind the last of them. -/
theorem skipBlanks_eq_match
    {cursor : Cursor} (placed : cursor.WellPlaced) :
    let blanks := [' ', '\t', '\n', '\r', '\x0b', '\x0c']
    ∃ chars skipped moved next,
      cursor.chars = .ok chars ∧
      SkipLoop cursor moved ∧ (∀ last, SkipLoop cursor last → last = moved) ∧
      cursor.skipBlanks = .ok moved ∧
      cursor.advances skipped.length = .ok (skipped.map some, moved) ∧
      (Recognizer.zeroOrMore .whitespace).matchIn cursor.buffer.chars
        cursor.pos cursor.stop = some moved.pos ∧
      moved.buffer = cursor.buffer ∧ moved.stop = cursor.stop ∧
      window? cursor.buffer.chars cursor.pos moved.pos = some skipped ∧
      (∀ c ∈ skipped, c ∈ blanks) ∧
      moved.peek = .ok next ∧ (∀ c ∈ next, c ∉ blanks) ∧
      ∀ count, cursor.advances count =
        .ok ((chars.take count).map some ++
            List.replicate (count - chars.length) none,
          { cursor with
            pos := cursor.pos + byteLength (chars.take count) }) := by
  intro blanks
  obtain ⟨chars, read⟩ := wellPlaced_iff.mp placed
  have readable := chars_eq_ok_iff.mpr read
  refine ⟨chars, chars.takeWhile CharClass.isBlank,
    cursor.past (chars.takeWhile CharClass.isBlank),
    (chars.dropWhile CharClass.isBlank).head?,
    readable, skipLoop_of_chars readable,
    fun last run => run.unique (skipLoop_of_chars readable),
    skipBlanks_of_chars readable, advances_blanks readable,
    matchIn_blanks readable, rfl, rfl, ?_, ?_,
    peek_of_chars (chars_past_blanks readable), ?_,
    advances_of_chars readable⟩
  · rw [← chars.takeWhile_append_dropWhile (p := CharClass.isBlank)] at read
    exact (window?_of_append read).1
  · intro c member
    exact isBlank_iff.mp (List.mem_takeWhile_imp member)
  · intro c next blank
    have stops := List.head?_dropWhile_not CharClass.isBlank chars
    rw [Option.mem_def.mp next] at stops
    exact Bool.false_ne_true (stops.symm.trans (isBlank_iff.mpr blank))

/-- Of the blanks behind the accent of `é \t` and a space that is not ASCII, two are
skipped, and a cursor that stops between them skips one. -/
theorem skipBlanks_eq_match_behind_accent :
    let buffer : Buffer := { chars := ['é', ' ', '\t', '\u00a0', ' '] }
    let cursor : Cursor := ⟨buffer, 2, 7⟩
    let short : Cursor := ⟨buffer, 2, 3⟩
    cursor.WellPlaced ∧ short.WellPlaced ∧
      SkipLoop cursor ⟨buffer, 4, 7⟩ ∧ SkipLoop short ⟨buffer, 3, 3⟩ ∧
      cursor.skipBlanks = .ok ⟨buffer, 4, 7⟩ ∧
      cursor.advances 2 = .ok ([some ' ', some '\t'], ⟨buffer, 4, 7⟩) ∧
      short.advances 3 = .ok ([some ' ', none, none], ⟨buffer, 3, 3⟩) := by
  intro buffer cursor short
  have placed : cursor.WellPlaced := by decide
  have shortPlaced : short.WellPlaced := by decide
  have skips : cursor.skipBlanks = .ok ⟨buffer, 4, 7⟩ := by decide
  have shortSkips : short.skipBlanks = .ok ⟨buffer, 3, 3⟩ := by decide
  have read : cursor.chars = .ok [' ', '\t', '\u00a0', ' '] := by decide
  have shortRead : short.chars = .ok [' '] := by decide
  obtain ⟨chars, _, moved, _, readable, run, _, skipped, _, _, _, _, _, _, _, _,
    calls⟩ := skipBlanks_eq_match placed
  obtain ⟨shortChars, _, shortMoved, _, shortReadable, shortRun, _,
    shortSkipped, _, _, _, _, _, _, _, _, shortCalls⟩ :=
    skipBlanks_eq_match shortPlaced
  obtain rfl := Except.ok.inj (skips.symm.trans skipped)
  obtain rfl := Except.ok.inj (shortSkips.symm.trans shortSkipped)
  obtain rfl := Except.ok.inj (read.symm.trans readable)
  obtain rfl := Except.ok.inj (shortRead.symm.trans shortReadable)
  exact ⟨placed, shortPlaced, run, shortRun, skips, calls 2, shortCalls 3⟩

end TextGrammar.Cursor
