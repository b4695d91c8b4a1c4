import TextGrammar.Cursor.Basic
import TextGrammar.Proofs.Recognizer.Offsets

/-!
Where operations leave cursors. A cursor is well placed just if its range can be
read, so every operation that only reads the range succeeds on a well-placed
cursor, and every operation that moves bounds moves them over characters that
were read. A cursor that an operation sets is well placed again, in the text of
the cursor that it was set from.
-/

namespace TextGrammar.Cursor

/-- A cursor is well placed just if the characters of its range can be read. -/
theorem wellPlaced_iff
    {cursor : Cursor} :
    cursor.WellPlaced ↔
      ∃ chars,
        window? cursor.buffer.chars cursor.pos cursor.stop = some chars := by
  rw [exists_window?_iff]
  constructor
  · rintro ⟨ordered, _, boundaries⟩
    exact ⟨ordered, boundaries⟩
  · rintro ⟨ordered, posBoundary, stopBoundary⟩
    exact ⟨ordered, stopBoundary.le_byteLength, posBoundary, stopBoundary⟩

theorem chars_eq_ok_iff
    {cursor : Cursor} {chars : List Char} :
    cursor.chars = .ok chars ↔
      window? cursor.buffer.chars cursor.pos cursor.stop = some chars := by
  unfold Cursor.chars
  cases window? cursor.buffer.chars cursor.pos cursor.stop with
  | none =>
      simp
  | some found =>
      simp

theorem text_of_chars
    {cursor : Cursor} {chars : List Char}
    (readable : cursor.chars = .ok chars) :
    cursor.text = .ok (String.ofList chars) := by
  rw [text, readable]
  rfl

theorem chars_past
    {cursor : Cursor} {read rest : List Char}
    (readable : cursor.chars = .ok (read ++ rest)) :
    (cursor.past read).chars = .ok rest :=
  chars_eq_ok_iff.mpr
    (window?_of_append (chars_eq_ok_iff.mp readable)).2

theorem past_past
    (cursor : Cursor) (read more : List Char) :
    (cursor.past read).past more = cursor.past (read ++ more) := by
  rw [Cursor.past, Cursor.past, Cursor.past, byteLength_append,
    Nat.add_assoc]

theorem peek_of_chars
    {cursor : Cursor} {chars : List Char}
    (readable : cursor.chars = .ok chars) :
    cursor.peek = .ok chars.head? := by
  rw [peek, readable]
  rfl

theorem advance_of_chars
    {cursor : Cursor} {chars : List Char}
    (readable : cursor.chars = .ok chars) :
    cursor.advance = .ok (chars.head?, cursor.past chars.head?.toList) := by
  rw [advance, peek_of_chars readable]
  rfl

theorem skipBlanks_of_chars
    {cursor : Cursor} {chars : List Char}
    (readable : cursor.chars = .ok chars) :
    cursor.skipBlanks =
      .ok (cursor.past (chars.takeWhile CharClass.isBlank)) := by
  rw [skipBlanks, readable]
  rfl

/-- A cursor that stands well placed in a buffer. -/
structure PlacedIn (buffer : Buffer) (cursor : Cursor) : Prop where
  buffer_eq : cursor.buffer = buffer
  wellPlaced : cursor.WellPlaced

namespace PlacedIn

variable {buffer : Buffer} {cursor : Cursor}

theorem of_chars
    {chars : List Char}
    (sameBuffer : cursor.buffer = buffer)
    (read : cursor.chars = .ok chars) : cursor.PlacedIn buffer :=
  ⟨sameBuffer, wellPlaced_iff.mpr ⟨chars, chars_eq_ok_iff.mp read⟩⟩

theorem exists_chars
    (placed : cursor.PlacedIn buffer) :
    ∃ chars, cursor.chars = .ok chars := by
  rcases wellPlaced_iff.mp placed.wellPlaced with ⟨chars, readable⟩
  exact ⟨chars, chars_eq_ok_iff.mpr readable⟩

theorem whole
    (buffer : Buffer) : (Cursor.whole buffer).PlacedIn buffer := by
  have read : (Cursor.whole buffer).chars = .ok buffer.chars :=
    chars_eq_ok_iff.mpr (window?_whole buffer.chars)
  exact of_chars rfl read

/-- Bounds that are accepted are in order and on boundaries. -/
theorem set
    {moved : Cursor} {pos stop : Nat}
    (sameBuffer : cursor.buffer = buffer)
    (accepted : cursor.set pos stop = .ok moved) :
    moved.PlacedIn buffer := by
  unfold Cursor.set at accepted
  split at accepted
  · contradiction
  · rename_i inRange
    split at accepted
    · contradiction
    · rename_i posBoundary
      split at accepted
      · contradiction
      · rename_i stopBoundary
        simp only [not_or, Nat.not_lt] at inRange
        obtain rfl := Except.ok.inj accepted
        exact ⟨sameBuffer, inRange.1, inRange.2,
          Decidable.not_not.mp posBoundary,
          Decidable.not_not.mp stopBoundary⟩

theorem ofBounds
    {moved : Cursor} {pos stop : Nat}
    (accepted : Cursor.ofBounds buffer pos stop = .ok moved) :
    moved.PlacedIn buffer :=
  set rfl accepted

theorem setFrom
    {other moved : Cursor}
    (sameBuffer : cursor.buffer = buffer)
    (placed : other.WellPlaced)
    (accepted : cursor.setFrom other = .ok moved) :
    moved.PlacedIn buffer := by
  unfold Cursor.setFrom at accepted
  split at accepted
  · contradiction
  · rename_i related
    have sameText := Decidable.not_not.mp related
    obtain rfl := Except.ok.inj accepted
    refine ⟨sameBuffer, ?_⟩
    unfold WellPlaced
    rw [sameText]
    exact placed

/-- A jump goes to a boundary that is not behind the stop. -/
theorem jump
    {other moved : Cursor}
    (placed : cursor.PlacedIn buffer)
    (otherPlaced : other.WellPlaced)
    (accepted : cursor.jump other = .ok moved) :
    moved.PlacedIn buffer := by
  unfold Cursor.jump at accepted
  split at accepted
  · contradiction
  · rename_i related
    split at accepted
    · contradiction
    · rename_i before
      have sameText := Decidable.not_not.mp related
      rcases otherPlaced with ⟨_, _, _, targetBoundary⟩
      rcases placed with ⟨sameBuffer, _, inside, _, stopBoundary⟩
      obtain rfl := Except.ok.inj accepted
      rw [← sameText] at targetBoundary
      exact ⟨sameBuffer, Nat.not_lt.mp before, inside, targetBoundary,
        stopBoundary⟩

theorem past
    {read rest : List Char}
    (sameBuffer : cursor.buffer = buffer)
    (readable : cursor.chars = .ok (read ++ rest)) :
    (cursor.past read).PlacedIn buffer :=
  of_chars sameBuffer (chars_past readable)

/-- A cursor that is cut off behind characters that were read. -/
theorem cutOff
    {read rest : List Char}
    (sameBuffer : cursor.buffer = buffer)
    (readable : cursor.chars = .ok (read ++ rest)) :
    ({ cursor with stop := cursor.pos + byteLength read } : Cursor).PlacedIn
      buffer := by
  refine ⟨sameBuffer, wellPlaced_iff.mpr ⟨read, ?_⟩⟩
  exact (window?_of_append (chars_eq_ok_iff.mp readable)).1

theorem advance
    (placed : cursor.PlacedIn buffer) :
    ∃ next moved, cursor.advance = .ok (next, moved) ∧
      moved.PlacedIn buffer := by
  rcases placed.exists_chars with ⟨chars, read⟩
  refine ⟨chars.head?, cursor.past chars.head?.toList, advance_of_chars read, ?_⟩
  cases chars with
  | nil =>
      have readNothing : cursor.chars = .ok ([] ++ []) := read
      exact past placed.buffer_eq readNothing
  | cons c rest =>
      have readFirst : cursor.chars = .ok ([c] ++ rest) := read
      exact past placed.buffer_eq readFirst

theorem skipBlanks
    (placed : cursor.PlacedIn buffer) :
    ∃ moved, cursor.skipBlanks = .ok moved ∧ moved.PlacedIn buffer := by
  rcases placed.exists_chars with ⟨chars, read⟩
  have readParts :
      cursor.chars = .ok (chars.takeWhile CharClass.isBlank ++
        chars.dropWhile CharClass.isBlank) := by
    rw [read, List.takeWhile_append_dropWhile]
  exact ⟨cursor.past (chars.takeWhile CharClass.isBlank),
    skipBlanks_of_chars read, past placed.buffer_eq readParts⟩

/-- A match is a range of the characters that were read. -/
theorem seek
    {found : Cursor} {r : Recognizer}
    (placed : cursor.PlacedIn buffer)
    (sought : cursor.seek r = some found) :
    found.PlacedIn buffer := by
  rcases Option.map_eq_some_iff.mp sought with ⟨finish, matched, rfl⟩
  obtain ⟨read, rest, readable, _, rfl⟩ :=
    Recognizer.matchIn_eq_some_iff.mp matched
  exact cutOff placed.buffer_eq (chars_eq_ok_iff.mpr readable)

/-- A search for a group succeeds on a well-placed cursor, and both the group
and the cursor behind it are well placed. -/
theorem seekGroup
    (opening closing : Char)
    (placed : cursor.PlacedIn buffer) :
    ∃ group next, cursor.seekGroup opening closing = .ok (group, next) ∧
      next.PlacedIn buffer ∧
      ∀ found, group = some found → found.PlacedIn buffer := by
  rcases placed.exists_chars with ⟨chars, read⟩
  simp only [Cursor.seekGroup, read, bind, Except.bind, pure, Except.pure]
  cases search : findGroup? opening closing chars with
  | none =>
      refine ⟨none, { cursor with pos := cursor.stop }, rfl, ?_, by simp⟩
      have readAll : cursor.chars = .ok (chars ++ []) := by
        rw [List.append_nil, read]
      have atStop : cursor.past chars = { cursor with pos := cursor.stop } := by
        rw [Cursor.past, byteLength_of_window? (chars_eq_ok_iff.mp read)]
      rw [← atStop]
      exact past placed.buffer_eq readAll
  | some parts =>
      rcases parts with ⟨before, inside, after⟩
      have split := (findGroup?_parts search).1
      have readParts :
          cursor.chars = .ok (before ++ (inside ++ after)) := by
        rw [read, split, List.append_assoc]
      have readGroup := chars_past readParts
      refine ⟨_, _, rfl, past placed.buffer_eq readGroup, ?_⟩
      intro found same
      obtain rfl := Option.some.inj same
      exact cutOff placed.buffer_eq readGroup

theorem equalsBytes
    (placed : cursor.PlacedIn buffer)
    (text : List Char) (start stop : Nat) :
    ∃ holds, cursor.equalsBytes text start stop = .ok holds := by
  rcases placed.exists_chars with ⟨chars, read⟩
  rw [Cursor.equalsBytes, read]
  cases bytesBetween? text start stop with
  | none =>
      exact ⟨false, rfl⟩
  | some bytes =>
      exact ⟨bytesOf chars == bytes, rfl⟩

/-- The slice of a well-placed cursor has its bounds and can be read. -/
theorem slice
    (placed : cursor.PlacedIn buffer) :
    ∃ text,
      Cursor.slice buffer cursor = .ok ⟨buffer, cursor.pos, cursor.stop⟩ ∧
        Slice.text ⟨buffer, cursor.pos, cursor.stop⟩ = .ok text := by
  rcases placed.exists_chars with ⟨chars, read⟩
  rcases placed with ⟨rfl, ordered, inside, _⟩
  have made :
      Slice.ofBounds cursor.buffer cursor.pos cursor.stop =
        .ok ⟨cursor.buffer, cursor.pos, cursor.stop⟩ :=
    Slice.ofBounds_eq_ok_iff.mpr ⟨rfl, ordered, inside⟩
  refine ⟨String.ofList chars, ?_, ?_⟩
  · rw [Cursor.slice, if_neg (by simp), made]
    rfl
  · apply Slice.text_eq_ok_iff.mpr
    rw [String.toList_ofList]
    exact chars_eq_ok_iff.mp read

end PlacedIn

end TextGrammar.Cursor
