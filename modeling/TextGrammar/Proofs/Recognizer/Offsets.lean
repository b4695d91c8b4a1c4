import TextGrammar.Recognizer.Match
import TextGrammar.Slice.Basic
import TextGrammar.Proofs.Recognizer.Lookahead
import TextGrammar.Proofs.Text.Boundary

/-!
Matching by offsets. A program that keeps the whole window and the offset it
has reached cuts the window again at every step, and a cut inside a character
or beyond the end is a fault. The main statement is `scanIn_eq_matchIn`: such a
program never faults and ends where matching on the remaining characters does.
-/

namespace TextGrammar

namespace Recognizer

/-- A match in a part of a text that can be read leaves what is consumed of
this part. -/
theorem matchIn_of_window?
    (r : Recognizer) {text chars : List Char} {start stop : Nat}
    (readable : window? text start stop = some chars) :
    r.matchIn text start stop =
      (r.consume chars).map fun rest => stop - byteLength rest := by
  cases consumed : r.consume chars <;>
    simp [matchIn, readable, consumed]

/-- A match ends behind the characters that it reads. -/
theorem matchIn_eq_some_iff
    {r : Recognizer} {text : List Char} {start stop finish : Nat} :
    r.matchIn text start stop = some finish ↔
      ∃ read rest, window? text start stop = some (read ++ rest) ∧
        r.consume (read ++ rest) = some rest ∧
        finish = start + byteLength read := by
  constructor
  · intro found
    cases readable : window? text start stop with
    | none =>
        simp [matchIn, readable] at found
    | some chars =>
        rw [matchIn_of_window? r readable] at found
        rcases Option.map_eq_some_iff.mp found with ⟨rest, consumed, rfl⟩
        rcases r.suffix_of_consume chars rest consumed with ⟨read, rfl⟩
        have length := byteLength_of_window? readable
        rw [byteLength_append] at length
        exact ⟨read, rest, rfl, consumed, by omega⟩
  · rintro ⟨read, rest, readable, consumed, rfl⟩
    have length := byteLength_of_window? readable
    rw [byteLength_append] at length
    rw [matchIn_of_window? r readable, consumed, Option.map_some]
    congr 1
    omega

/-! ## Scanning a window -/

def cut (window : List Char) (pos : Nat) : Except Fault (List Char) :=
  match dropBytes? window pos with
  | some rest => .ok rest
  | none => .error (.unreadable pos (byteLength window))

def scanChar (test : Char → Bool) (window : List Char) (pos : Nat) :
    Except Fault (Option Nat) := do
  match ← cut window pos with
  | [] => return none
  | c :: _ => return if test c then some (pos + c.utf8Size) else none

/-- The offset that a step reaches when it is repeated while it moves forward.
A step that ends beyond the window of `size` bytes is a fault. -/
def scanOn (size : Nat) (step : Nat → Except Fault (Option Nat)) (pos : Nat) :
    Except Fault Nat :=
  match step pos with
  | .error cause => .error cause
  | .ok none => .ok pos
  | .ok (some next) =>
      if next ≤ pos then
        .ok pos
      else if next ≤ size then
        scanOn size step next
      else
        .error (.pastEnd next size)
termination_by size - pos

mutual

/-- The offset where a match ends that begins at an offset of the window. -/
def scan (window : List Char) : Recognizer → (pos : Nat) →
    Except Fault (Option Nat)
  | literal word, pos => do
      let rest ← cut window pos
      return if word.toList.isPrefixOf rest then
        some (pos + byteLength word.toList)
      else
        none
  | oneOf listed, pos => scanChar listed.contains window pos
  | ofClass classes, pos => scanChar classes.contains window pos
  | sequence parts, pos => scanEach window parts pos
  | choice alternatives, pos => do
      let rest ← cut window pos
      scanFirst window rest.head? alternatives pos
  | zeroOrMore inner, pos => do
      return some (← scanOn (byteLength window) (scan window inner) pos)
  | oneOrMore inner, pos => do
      let finish ← scanOn (byteLength window) (scan window inner) pos
      return if pos < finish then some finish else none

def scanEach (window : List Char) : List Recognizer → (pos : Nat) →
    Except Fault (Option Nat)
  | [], pos => .ok (some pos)
  | part :: parts, pos => do
      match ← scan window part pos with
      | some next => scanEach window parts next
      | none => return none

def scanFirst (window : List Char) (next : Option Char) :
    List Recognizer → (pos : Nat) → Except Fault (Option Nat)
  | [], _ => .ok none
  | first :: others, pos =>
      if verdict next first = .rejects then
        scanFirst window next others pos
      else do
        match ← scan window first pos with
        | some finish => return some finish
        | none => scanFirst window next others pos

end

/-- The offset where a match ends between two offsets of a text. The text is cut
off at `stop` and then scanned from `start`, if both cuts are possible. -/
def scanIn (r : Recognizer) (text : List Char) (start stop : Nat) :
    Except Fault (Option Nat) :=
  match takeBytes? text stop with
  | none => .ok none
  | some window =>
      match dropBytes? window start with
      | none => .ok none
      | some _ => scan window r start

private theorem cut_append
    (before rest : List Char) :
    cut (before ++ rest) (byteLength before) = .ok rest := by
  have found :
      dropBytes? (before ++ rest) (byteLength before) = some rest :=
    dropBytes?_eq_some_iff.mpr ⟨before, rfl, rfl⟩
  rw [cut, found]

def offsetOf (window rest : List Char) : Nat :=
  byteLength window - byteLength rest

theorem offsetOf_append
    (before rest : List Char) :
    offsetOf (before ++ rest) rest = byteLength before := by
  rw [offsetOf, byteLength_append, Nat.add_sub_cancel]

/-- A scanning step that ends where a step on characters ends, at every offset
of a window. -/
def ScansAs
    (window : List Char) (scanStep : Nat → Except Fault (Option Nat))
    (step : List Char → Option (List Char)) : Prop :=
  ∀ chars, chars <:+ window →
    scanStep (offsetOf window chars) =
      .ok ((step chars).map (offsetOf window))

private theorem cut_offsetOf
    {window chars : List Char} (final : chars <:+ window) :
    cut window (offsetOf window chars) = .ok chars := by
  rcases final with ⟨before, rfl⟩
  rw [offsetOf_append, cut_append]

/-- An offset of a window is that of just one final part. -/
theorem eq_of_offsetOf_eq
    {window left right : List Char}
    (leftFinal : left <:+ window) (rightFinal : right <:+ window)
    (same : offsetOf window left = offsetOf window right) :
    left = right := by
  have leftCut := cut_offsetOf leftFinal
  have rightCut := cut_offsetOf rightFinal
  rw [same] at leftCut
  exact Except.ok.inj (leftCut.symm.trans rightCut)

/-- Fewer remaining characters are a greater offset. -/
theorem offsetOf_lt_iff
    {window chars rest : List Char}
    (final : chars <:+ window) (further : rest <:+ chars) :
    offsetOf window chars < offsetOf window rest ↔
      rest.length < chars.length := by
  have inside := byteLength_le_of_suffix final
  have shorter := byteLength_le_of_suffix further
  rw [← byteLength_lt_iff_of_suffix further, offsetOf, offsetOf]
  omega

/-- Reading some characters moves the offset by their length. -/
theorem offsetOf_add_byteLength
    {window read rest : List Char} (final : read ++ rest <:+ window) :
    offsetOf window (read ++ rest) + byteLength read =
      offsetOf window rest := by
  rcases final with ⟨before, rfl⟩
  rw [offsetOf_append, ← List.append_assoc, offsetOf_append,
    byteLength_append]

private theorem scansAs_scanChar
    (window : List Char) (test : Char → Bool) :
    ScansAs window (scanChar test window) (afterChar? test) := by
  intro chars final
  rw [scanChar, cut_offsetOf final]
  cases chars with
  | nil =>
      rfl
  | cons c rest =>
      have finalRead : [c] ++ rest <:+ window := final
      have behind :
          offsetOf window (c :: rest) + c.utf8Size = offsetOf window rest :=
        offsetOf_add_byteLength finalRead
      by_cases passed : test c = true
      · simp [bind, Except.bind, pure, Except.pure, afterChar?, passed, behind]
      · simp [bind, Except.bind, pure, Except.pure, afterChar?, passed]

/-- Repeating a scanning step ends where the characters are exhausted. -/
theorem scanOn_offsetOf
    {window : List Char} {scanStep : Nat → Except Fault (Option Nat)}
    {step : List Char → Option (List Char)}
    (scans : ScansAs window scanStep step)
    (stepSuffix : ∀ chars rest, step chars = some rest → rest <:+ chars)
    {chars : List Char} (final : chars <:+ window) :
    scanOn (byteLength window) scanStep (offsetOf window chars) =
      .ok (offsetOf window (exhaust step chars)) := by
  fun_induction exhaust step chars with
  | case1 chars stuck =>
      rw [scanOn, scans chars final, stuck]
      rfl
  | case2 chars rest found shorter inductionHypothesis =>
      have further := stepSuffix chars rest found
      have forward := (offsetOf_lt_iff final further).mpr shorter
      have inside : offsetOf window rest ≤ byteLength window :=
        Nat.sub_le _ _
      rw [scanOn, scans chars final, found, Option.map_some]
      simp only [Nat.not_le.mpr forward, inside, if_true, if_false]
      exact inductionHypothesis (further.trans final)
  | case3 chars rest found longer =>
      have further := stepSuffix chars rest found
      have still :=
        Nat.not_lt.mp (mt (offsetOf_lt_iff final further).mp longer)
      rw [scanOn, scans chars final, found, Option.map_some]
      simp only [still, if_true]

private theorem scansAs_scanEach
    {window : List Char} {parts : List Recognizer}
    (scans : ∀ part ∈ parts, ScansAs window (scan window part) part.consume) :
    ScansAs window (scanEach window parts) (consumeEach parts) := by
  induction parts with
  | nil =>
      intro chars _
      rfl
  | cons part parts inductionHypothesis =>
      rcases List.forall_mem_cons.mp scans with ⟨partScans, partsScan⟩
      intro chars final
      rw [scanEach, partScans chars final, consumeEach]
      cases consumed : part.consume chars with
      | none =>
          rfl
      | some rest =>
          have further := part.suffix_of_consume chars rest consumed
          exact inductionHypothesis partsScan rest (further.trans final)

private theorem scanFirst_offsetOf
    {window : List Char} {alternatives : List Recognizer}
    (scans : ∀ r ∈ alternatives, ScansAs window (scan window r) r.consume)
    {chars : List Char} (final : chars <:+ window) :
    scanFirst window chars.head? alternatives (offsetOf window chars) =
      .ok ((consumeFirst alternatives chars).map (offsetOf window)) := by
  induction alternatives with
  | nil =>
      rfl
  | cons first others inductionHypothesis =>
      rcases List.forall_mem_cons.mp scans with ⟨firstScans, othersScan⟩
      rw [scanFirst, consumeFirst]
      by_cases rejected : verdict chars.head? first = .rejects
      · rw [if_pos rejected, if_pos rejected]
        exact inductionHypothesis othersScan
      · rw [if_neg rejected, if_neg rejected, firstScans chars final]
        cases first.consume chars with
        | none =>
            exact inductionHypothesis othersScan
        | some rest =>
            rfl

/-- At every boundary of a window, scanning ends without a fault where matching
on the remaining characters does. -/
theorem scansAs_scan
    (window : List Char) (r : Recognizer) :
    ScansAs window (scan window r) r.consume := by
  induction r with
  | literal word =>
      intro chars final
      rw [scan, cut_offsetOf final, consume]
      cases found : afterWord? word.toList chars with
      | none =>
          have absent : word.toList.isPrefixOf chars = false := by
            apply Bool.eq_false_iff.mpr
            intro starts
            rcases List.isPrefixOf_iff_prefix.mp starts with ⟨rest, split⟩
            rw [afterWord?_eq_some_iff.mpr split.symm] at found
            contradiction
          simp [bind, Except.bind, pure, Except.pure, absent]
      | some rest =>
          obtain rfl := afterWord?_eq_some_iff.mp found
          have starts : word.toList.isPrefixOf (word.toList ++ rest) = true :=
            List.isPrefixOf_iff_prefix.mpr (List.prefix_append _ _)
          simp [bind, Except.bind, pure, Except.pure, starts,
            offsetOf_add_byteLength final]
  | oneOf listed =>
      have scans := scansAs_scanChar window listed.contains
      intro chars final
      rw [scan, consume]
      exact scans chars final
  | ofClass classes =>
      have scans := scansAs_scanChar window classes.contains
      intro chars final
      rw [scan, consume]
      exact scans chars final
  | sequence parts inductionHypothesis =>
      intro chars final
      rw [scan, consume]
      exact scansAs_scanEach inductionHypothesis chars final
  | choice alternatives inductionHypothesis =>
      intro chars final
      rw [scan, cut_offsetOf final, consume]
      exact scanFirst_offsetOf inductionHypothesis final
  | zeroOrMore inner inductionHypothesis =>
      intro chars final
      rw [scan, consume, scanOn_offsetOf inductionHypothesis
        inner.suffix_of_consume final]
      rfl
  | oneOrMore inner inductionHypothesis =>
      intro chars final
      have further := suffix_of_exhaust inner.suffix_of_consume chars
      rw [scan, consume, scanOn_offsetOf inductionHypothesis
        inner.suffix_of_consume final]
      simp only [bind, Except.bind, pure, Except.pure,
        offsetOf_lt_iff final further]
      split <;> rfl

/-- Scanning between two offsets of a text never faults, whatever the offsets,
and gives the match on the characters between them. -/
theorem scanIn_eq_matchIn
    (r : Recognizer) (text : List Char) (start stop : Nat) :
    r.scanIn text start stop = .ok (r.matchIn text start stop) := by
  rw [scanIn, matchIn, window?_eq_bind]
  cases taken : takeBytes? text stop with
  | none =>
      rfl
  | some window =>
      cases dropped : dropBytes? window start with
      | none =>
          simp [dropped]
      | some chars =>
          rcases takeBytes?_eq_some_iff.mp taken with ⟨after, rfl, rfl⟩
          rcases dropBytes?_eq_some_iff.mp dropped with ⟨before, rfl, rfl⟩
          have scanned :=
            scansAs_scan (before ++ chars) r chars (List.suffix_append _ _)
          rw [offsetOf_append] at scanned
          simp only [dropped, scanned, Option.bind_eq_bind,
            Option.bind_some]
          cases r.consume chars <;> rfl

end Recognizer

end TextGrammar
