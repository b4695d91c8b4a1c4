import Mathlib.Data.List.TakeWhile
import TextGrammar.Proofs.Cursor.Placement

/-!
Cursor operations in terms of the characters that a cursor reads. Each operation
succeeds where the characters can be read, and what it gives is the cursor behind
an initial part of them (`past`) or the one over this part (`upTo`).
-/

namespace TextGrammar.Cursor

@[simp] theorem Failure.liftM_error_ok
    {α : Type} (value : α) :
    (liftM (Except.ok value : Except Error α) : Except Failure α) =
      .ok value := rfl

@[simp] theorem Failure.liftM_error_error
    {α : Type} (cause : Error) :
    (liftM (Except.error cause : Except Error α) : Except Failure α) =
      .error (.error cause) := rfl

@[simp] theorem Failure.liftM_fault_ok
    {α : Type} (value : α) :
    (liftM (Except.ok value : Except Fault α) : Except Failure α) =
      .ok value := rfl

@[simp] theorem Failure.liftM_fault_error
    {α : Type} (cause : Fault) :
    (liftM (Except.error cause : Except Fault α) : Except Failure α) =
      .error (.fault cause) := rfl

theorem Failure.liftM_error_eq_ok_iff
    {α : Type} {request : Except Error α} {value : α} :
    (liftM request : Except Failure α) = .ok value ↔ request = .ok value := by
  cases request with
  | error cause =>
      simp
  | ok found =>
      simp

theorem Failure.liftM_error_eq_error_iff
    {α : Type} {request : Except Error α} {cause : Error} :
    (liftM request : Except Failure α) = .error (.error cause) ↔
      request = .error cause := by
  cases request with
  | error other =>
      simp
  | ok found =>
      simp

theorem Failure.liftM_fault_eq_ok_iff
    {α : Type} {reading : Except Fault α} {value : α} :
    (liftM reading : Except Failure α) = .ok value ↔ reading = .ok value := by
  cases reading with
  | error cause =>
      simp
  | ok found =>
      simp

/-- Reading never refuses a request. -/
theorem Failure.liftM_fault_ne_error
    {α : Type} (reading : Except Fault α) (cause : Error) :
    (liftM reading : Except Failure α) ≠ .error (.error cause) := by
  cases reading with
  | error other =>
      simp
  | ok found =>
      simp

theorem Failure.bind_eq_ok_iff
    {α β : Type} {request : Except Failure α} {use : α → Except Failure β}
    {answer : β} :
    request >>= use = .ok answer ↔
      ∃ value, request = .ok value ∧ use value = .ok answer := by
  cases request with
  | error cause =>
      simp [bind, Except.bind]
  | ok value =>
      simp [bind, Except.bind]

theorem Failure.bind_eq_error_iff
    {α β : Type} {request : Except Failure α} {use : α → Except Failure β}
    {cause : Failure} :
    request >>= use = .error cause ↔
      request = .error cause ∨
        ∃ value, request = .ok value ∧ use value = .error cause := by
  cases request with
  | error other =>
      simp [bind, Except.bind]
  | ok value =>
      simp [bind, Except.bind]

def upTo (cursor : Cursor) (chars : List Char) : Cursor :=
  { cursor with stop := cursor.pos + byteLength chars }

variable {cursor : Cursor} {chars read rest : List Char}

theorem chars_upTo
    (readable : cursor.chars = .ok (read ++ rest)) :
    (cursor.upTo read).chars = .ok read :=
  chars_eq_ok_iff.mpr
    (window?_of_append (chars_eq_ok_iff.mp readable)).1

theorem pos_add_byteLength
    (readable : cursor.chars = .ok chars) :
    cursor.pos + byteLength chars = cursor.stop :=
  byteLength_of_window? (chars_eq_ok_iff.mp readable)

theorem isEmpty_of_chars
    (readable : cursor.chars = .ok chars) :
    cursor.isEmpty = chars.isEmpty := by
  have length := pos_add_byteLength readable
  rw [isEmpty, Bool.eq_iff_iff, beq_iff_eq, List.isEmpty_iff,
    ← byteLength_eq_zero_iff]
  omega

/-- Bounds where a cursor may stand are accepted. -/
theorem set_of_wellPlaced
    {pos stop : Nat}
    (placed : ({ cursor with pos, stop } : Cursor).WellPlaced) :
    cursor.set pos stop = .ok { cursor with pos, stop } := by
  rcases placed with ⟨ordered, inside, posBoundary, stopBoundary⟩
  have inRange : ¬ (stop < pos ∨ cursor.buffer.size < stop) :=
    not_or.mpr ⟨Nat.not_lt.mpr ordered, Nat.not_lt.mpr inside⟩
  rw [set, if_neg inRange, if_neg (not_not_intro posBoundary),
    if_neg (not_not_intro stopBoundary)]

theorem set_of_window?
    {pos stop : Nat}
    (readable : window? cursor.buffer.chars pos stop = some chars) :
    cursor.set pos stop = .ok { cursor with pos, stop } :=
  set_of_wellPlaced (wellPlaced_iff.mpr ⟨chars, readable⟩)

/-- A jump behind characters that were read at the position. -/
theorem jump_upTo
    (readable : cursor.chars = .ok (read ++ rest)) :
    cursor.jump (cursor.upTo read) = .ok (cursor.past read) := by
  have length := pos_add_byteLength readable
  rw [byteLength_append] at length
  have sameBuffer : ¬ cursor.buffer ≠ (cursor.upTo read).buffer :=
    not_not_intro rfl
  have inside : ¬ cursor.stop < (cursor.upTo read).stop := by
    simp only [upTo]
    omega
  rw [jump, if_neg sameBuffer, if_neg inside]
  rfl

theorem chars_past_blanks
    (readable : cursor.chars = .ok chars) :
    (cursor.past (chars.takeWhile CharClass.isBlank)).chars =
      .ok (chars.dropWhile CharClass.isBlank) := by
  apply chars_past
  rw [List.takeWhile_append_dropWhile, readable]

/-- Nothing but blanks is left just if nothing is left behind the blanks. -/
theorem isEmpty_past_blanks
    (readable : cursor.chars = .ok chars) :
    (cursor.past (chars.takeWhile CharClass.isBlank)).isEmpty =
      chars.all CharClass.isBlank := by
  rw [isEmpty_of_chars (chars_past_blanks readable), Bool.eq_iff_iff,
    List.isEmpty_iff, List.dropWhile_eq_nil_iff, List.all_eq_true]

theorem seek_of_consume_none
    {r : Recognizer} (readable : cursor.chars = .ok chars)
    (stuck : r.consume chars = none) :
    cursor.seek r = none := by
  rw [seek, r.matchIn_of_window? (chars_eq_ok_iff.mp readable), stuck]
  rfl

theorem seek_of_consume_some
    {r : Recognizer} (readable : cursor.chars = .ok (read ++ rest))
    (consumed : r.consume (read ++ rest) = some rest) :
    cursor.seek r = some (cursor.upTo read) := by
  have matched :
      r.matchIn cursor.buffer.chars cursor.pos cursor.stop =
        some (cursor.pos + byteLength read) :=
    Recognizer.matchIn_eq_some_iff.mpr
      ⟨read, rest, chars_eq_ok_iff.mp readable, consumed, rfl⟩
  rw [seek, matched]
  rfl

variable {opening closing : Char}

theorem seekGroup_of_none
    (readable : cursor.chars = .ok chars)
    (absent : findGroup? opening closing chars = none) :
    cursor.seekGroup opening closing =
      .ok (none, { cursor with pos := cursor.stop }) := by
  simp only [seekGroup, readable, bind, Except.bind, absent]
  rfl

theorem seekGroup_of_some
    {before group after : List Char}
    (readable : cursor.chars = .ok chars)
    (found :
      findGroup? opening closing chars = some (before, group, after)) :
    cursor.seekGroup opening closing =
      .ok (some ((cursor.past before).upTo group),
        (cursor.past before).past group) := by
  simp only [seekGroup, readable, bind, Except.bind, found]
  rfl

end TextGrammar.Cursor
