import TextGrammar.Cursor.Error
import TextGrammar.Position
import TextGrammar.Recognizer.Match
import TextGrammar.Text.Bytes
import TextGrammar.Text.Group

/-!
Cursors: movable ranges of a buffer. A cursor reads characters at its position
and sees nothing from its stop on. Every request for new bounds is checked, so
both offsets of a cursor stay character boundaries in order. The main statement
is `pos_lt_of_seekGroup`: a search for a group that succeeds moves the cursor.
-/

namespace TextGrammar

structure Cursor where
  buffer : Buffer
  pos : Nat
  stop : Nat
deriving DecidableEq, Repr

namespace Cursor

/-- The condition that cursors keep: both bounds are character boundaries of
the buffer, in order. -/
def WellPlaced (cursor : Cursor) : Prop :=
  cursor.pos ≤ cursor.stop ∧ cursor.stop ≤ cursor.buffer.size ∧
    IsBoundary cursor.buffer.chars cursor.pos ∧
    IsBoundary cursor.buffer.chars cursor.stop

instance (cursor : Cursor) : Decidable cursor.WellPlaced :=
  inferInstanceAs (Decidable (_ ∧ _))

def whole (buffer : Buffer) : Cursor :=
  ⟨buffer, 0, buffer.size⟩

/-- Sets both bounds. Of two broken conditions the range is reported before the
boundaries, and the first bound before the second. -/
def set (cursor : Cursor) (pos stop : Nat) : Except Error Cursor :=
  if stop < pos ∨ cursor.buffer.size < stop then
    .error (.outOfBounds pos stop cursor.buffer.size)
  else if ¬ IsBoundary cursor.buffer.chars pos then
    .error (.offBoundary pos)
  else if ¬ IsBoundary cursor.buffer.chars stop then
    .error (.offBoundary stop)
  else
    .ok { cursor with pos, stop }

def ofBounds (buffer : Buffer) (pos stop : Nat) : Except Error Cursor :=
  (whole buffer).set pos stop

/-- Sets both bounds to those of another cursor of the same buffer. -/
def setFrom (cursor other : Cursor) : Except Error Cursor :=
  if cursor.buffer ≠ other.buffer then
    .error .foreign
  else
    .ok { cursor with pos := other.pos, stop := other.stop }

/-- Moves to the stop of another cursor of the same buffer, which must not lie
beyond this cursor's own stop. -/
def jump (cursor other : Cursor) : Except Error Cursor :=
  if cursor.buffer ≠ other.buffer then
    .error .foreign
  else if cursor.stop < other.stop then
    .error (.outOfBounds other.stop cursor.stop cursor.buffer.size)
  else
    .ok { cursor with pos := other.stop }

/-- The length of the range in bytes. -/
def size (cursor : Cursor) : Nat :=
  cursor.stop - cursor.pos

def isEmpty (cursor : Cursor) : Bool :=
  cursor.pos == cursor.stop

def chars (cursor : Cursor) : Except Fault (List Char) :=
  match window? cursor.buffer.chars cursor.pos cursor.stop with
  | some chars => .ok chars
  | none => .error (.unreadable cursor.pos cursor.stop)

def text (cursor : Cursor) : Except Fault String :=
  return String.ofList (← cursor.chars)

/-- The line and column of the position. -/
def position (cursor : Cursor) : Position :=
  Position.locate cursor.buffer.text cursor.pos

/-- The next character, or `none` at the stop. -/
def peek (cursor : Cursor) : Except Fault (Option Char) :=
  return (← cursor.chars).head?

/-- Moves past some characters. -/
def past (cursor : Cursor) (chars : List Char) : Cursor :=
  { cursor with pos := cursor.pos + byteLength chars }

/-- The next character and the cursor behind it. At the stop there is none and
the cursor stays. -/
def advance (cursor : Cursor) : Except Fault (Option Char × Cursor) := do
  let next ← cursor.peek
  return (next, cursor.past next.toList)

/-- Moves past the blanks at the position. -/
def skipBlanks (cursor : Cursor) : Except Fault Cursor :=
  return cursor.past ((← cursor.chars).takeWhile CharClass.isBlank)

/-! ## Searching -/

/-- The range that a recognizer matches at the position. -/
def seek (cursor : Cursor) (r : Recognizer) : Option Cursor :=
  (r.matchIn cursor.buffer.chars cursor.pos cursor.stop).map
    fun stop => { cursor with stop }

/-- The first balanced group at or after the position, delimiters included, and
the cursor behind it. If there is no group the cursor moves to its stop. -/
def seekGroup (cursor : Cursor) (opening closing : Char) :
    Except Fault (Option Cursor × Cursor) := do
  let chars ← cursor.chars
  match findGroup? opening closing chars with
  | some (before, group, _) =>
      let found := cursor.past before
      let next := found.past group
      return (some { found with stop := next.pos }, next)
  | none =>
      return (none, { cursor with pos := cursor.stop })

/-- A group that is found ends where the cursor goes on, which is behind the
cursor's old position and not behind its stop. -/
theorem pos_lt_of_seekGroup
    {cursor group next : Cursor} {opening closing : Char}
    (found :
      cursor.seekGroup opening closing = .ok (some group, next)) :
    cursor.pos < next.pos ∧ next.pos ≤ next.stop ∧
      next.stop = cursor.stop := by
  simp only [seekGroup, chars] at found
  split at found
  · rename_i chars read
    simp only [bind, Except.bind, pure, Except.pure] at found
    split at found
    · rename_i before inside after search
      have length := byteLength_of_window? read
      have parts := congrArg byteLength (findGroup?_parts search).1
      have positive := byteLength_group_pos search
      simp only [Except.ok.injEq, Prod.mk.injEq, Option.some.injEq] at found
      obtain ⟨-, rfl⟩ := found
      simp only [byteLength_append] at parts
      simp only [past, and_true]
      omega
    · simp at found
  · simp [bind, Except.bind] at found

/-- Whether the bytes of the range are the bytes between two offsets of a text.
Offsets outside the text give no bytes to be equal to. -/
def equalsBytes (cursor : Cursor) (text : List Char) (start stop : Nat) :
    Except Fault Bool :=
  match bytesBetween? text start stop with
  | some bytes => return bytesOf (← cursor.chars) == bytes
  | none => .ok false

/-- Whether two ranges hold the same bytes, whatever their buffers. -/
def sameBytes (cursor other : Cursor) : Except Fault Bool :=
  cursor.equalsBytes other.buffer.chars other.pos other.stop

/-- The range as a slice, if the cursor belongs to the buffer. -/
def slice (buffer : Buffer) (cursor : Cursor) : Except Failure Slice :=
  if cursor.buffer ≠ buffer then
    throw (.error .foreign)
  else
    Slice.ofBounds buffer cursor.pos cursor.stop

end Cursor

end TextGrammar
