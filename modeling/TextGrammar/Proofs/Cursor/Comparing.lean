import TextGrammar.Proofs.Cursor.Reading
import TextGrammar.Proofs.Text.Bytes

/-!
Comparing the range of a cursor with parts of texts. The comparison looks at bytes
and asks for no boundaries, yet it answers as one of characters would
(`equalsBytes_compares_characters`); only an empty range is equal to the nothing
inside a character too. Two cursors are the same just if they read the same
characters, whatever their texts.
-/

namespace TextGrammar.Cursor

variable {cursor other : Cursor} {chars otherChars : List Char}

theorem equalsBytes_of_chars
    (readable : cursor.chars = .ok chars)
    (text : List Char) (start stop : Nat) :
    cursor.equalsBytes text start stop =
      .ok (decide (bytesBetween? text start stop = some (bytesOf chars))) := by
  rw [equalsBytes, readable]
  cases bytesBetween? text start stop with
  | none =>
      rfl
  | some bytes =>
      have symmetric :
          (bytesOf chars == bytes) = decide (some bytes = some (bytesOf chars)) := by
        rw [Bool.eq_iff_iff, beq_iff_eq, decide_eq_true_iff, Option.some.injEq]
        exact eq_comm
      exact congrArg Except.ok symmetric

/-- Two cursors are compared by the characters that they read. -/
theorem sameBytes_of_chars
    (readable : cursor.chars = .ok chars)
    (otherReadable : other.chars = .ok otherChars) :
    cursor.sameBytes other = .ok (decide (chars = otherChars)) := by
  have otherBytes := bytesBetween?_of_window? (chars_eq_ok_iff.mp otherReadable)
  rw [sameBytes, equalsBytes_of_chars readable, otherBytes]
  congr 1
  rw [decide_eq_decide, Option.some.injEq]
  exact ⟨fun same => (bytesOf_injective same).symm, fun same => same ▸ rfl⟩

private theorem sameBytes_eq_true_iff
    (readable : cursor.chars = .ok chars)
    (otherReadable : other.chars = .ok otherChars) :
    cursor.sameBytes other = .ok true ↔ chars = otherChars := by
  rw [sameBytes_of_chars readable otherReadable, Except.ok.injEq,
    decide_eq_true_iff]

theorem WellPlaced.exists_chars
    (placed : cursor.WellPlaced) : ∃ chars, cursor.chars = .ok chars :=
  PlacedIn.exists_chars ⟨rfl, placed⟩

/-- To hold the same bytes is an equivalence on all cursors of all texts. -/
theorem sameBytes_equivalence :
    Equivalence fun left right : { cursor : Cursor // cursor.WellPlaced } =>
      left.1.sameBytes right.1 = .ok true where
  refl cursor := by
    rcases cursor.2.exists_chars with ⟨chars, readable⟩
    exact (sameBytes_eq_true_iff readable readable).mpr rfl
  symm {left right} same := by
    rcases left.2.exists_chars with ⟨chars, readable⟩
    rcases right.2.exists_chars with ⟨otherChars, otherReadable⟩
    rw [sameBytes_eq_true_iff readable otherReadable] at same
    exact (sameBytes_eq_true_iff otherReadable readable).mpr same.symm
  trans {left middle right} same sameAgain := by
    rcases left.2.exists_chars with ⟨chars, readable⟩
    rcases middle.2.exists_chars with ⟨middleChars, middleReadable⟩
    rcases right.2.exists_chars with ⟨otherChars, otherReadable⟩
    rw [sameBytes_eq_true_iff readable middleReadable] at same
    rw [sameBytes_eq_true_iff middleReadable otherReadable] at sameAgain
    exact (sameBytes_eq_true_iff readable otherReadable).mpr
      (same.trans sameAgain)

/-- A range that is not empty has the bytes between two offsets of a text just if
both are boundaries of the text and its characters stand between them. An empty
range has them just if the offsets are equal and inside the text. So two cursors
hold the same bytes just if they read the same characters. -/
theorem equalsBytes_compares_characters
    (placed : cursor.WellPlaced) :
    ∃ chars, cursor.chars = .ok chars ∧
      (∀ text start stop, ∃ holds,
        cursor.equalsBytes text start stop = .ok holds ∧
        (cursor.isEmpty = false →
          (holds = true ↔
            start ≤ stop ∧ stop ≤ byteLength text ∧
              IsBoundary text start ∧ IsBoundary text stop ∧
              window? text start stop = some chars)) ∧
        (cursor.isEmpty = true →
          (holds = true ↔ start = stop ∧ stop ≤ byteLength text))) ∧
      (∀ other otherChars, other.chars = .ok otherChars →
        cursor.sameBytes other = .ok (decide (chars = otherChars))) ∧
      Equivalence fun left right : { cursor : Cursor // cursor.WellPlaced } =>
        left.1.sameBytes right.1 = .ok true := by
  rcases placed.exists_chars with ⟨chars, readable⟩
  refine ⟨chars, readable, ?_, ?_, sameBytes_equivalence⟩
  · intro text start stop
    refine ⟨_, equalsBytes_of_chars readable text start stop, ?_, ?_⟩
    · intro nonempty
      rw [isEmpty_of_chars readable, List.isEmpty_eq_false_iff] at nonempty
      rw [decide_eq_true_iff, bytesBetween?_eq_some_bytesOf_iff nonempty]
      constructor
      · intro found
        rcases exists_window?_iff.mp ⟨chars, found⟩ with
          ⟨ordered, startBoundary, stopBoundary⟩
        exact ⟨ordered, stopBoundary.le_byteLength, startBoundary, stopBoundary,
          found⟩
      · intro bounded
        exact bounded.2.2.2.2
    · intro empty
      rw [isEmpty_of_chars readable, List.isEmpty_iff] at empty
      rw [decide_eq_true_iff, empty]
      exact bytesBetween?_eq_some_nil_iff
  · intro other otherChars otherReadable
    exact sameBytes_of_chars readable otherReadable

/-- The accent of `aé` is that of `xéé` at two places, and not the two bytes
between them, which are the same ones in the other order. -/
theorem equalsBytes_compares_characters_between_accents :
    let accent : Cursor := ⟨⟨['a', 'é'], 0⟩, 1, 3⟩
    let other : Cursor := ⟨⟨['é', 'b'], 1⟩, 0, 2⟩
    accent.WellPlaced ∧
      accent.equalsBytes ['x', 'é', 'é'] 1 3 = .ok true ∧
      accent.equalsBytes ['x', 'é', 'é'] 2 4 = .ok false ∧
      accent.sameBytes other = .ok true := by
  intro accent other
  have placed : accent.WellPlaced := by decide
  obtain ⟨chars, readable, compared, same, _⟩ :=
    equalsBytes_compares_characters placed
  have spelled : chars = ['é'] := (Except.ok.inj readable).symm
  subst spelled
  obtain ⟨_, found, foundIff, _⟩ := compared ['x', 'é', 'é'] 1 3
  obtain ⟨_, missed, missedIff, _⟩ := compared ['x', 'é', 'é'] 2 4
  have holds := (foundIff rfl).mpr (by decide)
  have fails := mt (missedIff rfl).mp (by decide)
  rw [holds] at found
  rw [Bool.not_eq_true] at fails
  rw [fails] at missed
  exact ⟨placed, found, missed, same other ['é'] rfl⟩

end TextGrammar.Cursor
