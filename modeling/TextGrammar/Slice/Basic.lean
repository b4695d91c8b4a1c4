import TextGrammar.Text.Offset

/-!
Slices: parts of a shared text given by two byte offsets. Narrowing a slice
never copies text. The bounds of a slice are checked when it is made, but they
may fall inside a character, and then its text cannot be read. The main
statements say when a slice is made, split and read.
-/

namespace TextGrammar

/-- A text that slices and cursors share. Two buffers are the same one when
their keys agree too, so equal texts need not share a buffer. -/
structure Buffer where
  chars : List Char
  key : Nat := 0
deriving DecidableEq, Repr

namespace Buffer

def text (buffer : Buffer) : String :=
  String.ofList buffer.chars

/-- The length of the text in bytes. -/
def size (buffer : Buffer) : Nat :=
  byteLength buffer.chars

end Buffer

/-- A call that breaks the conditions of an operation on slices. -/
inductive Fault where
  | reversed (start stop : Nat)
  | pastEnd (stop size : Nat)
  | outside (offset start stop : Nat)
  | unreadable (start stop : Nat)
  | missingSlot (slot : Nat)
deriving DecidableEq, Repr

/-- The part of a buffer from byte `start` up to byte `stop`. -/
structure Slice where
  buffer : Buffer
  start : Nat
  stop : Nat
deriving DecidableEq, Repr

namespace Slice

/-- The slice between two offsets, which must be in order and inside the
buffer. They are not required to be character boundaries. -/
def ofBounds (buffer : Buffer) (start stop : Nat) : Except Fault Slice :=
  if stop < start then
    .error (.reversed start stop)
  else if buffer.size < stop then
    .error (.pastEnd stop buffer.size)
  else
    .ok ⟨buffer, start, stop⟩

def whole (buffer : Buffer) : Slice :=
  ⟨buffer, 0, buffer.size⟩

/-- A text in a buffer of its own. -/
def ofString (text : String) : Slice :=
  whole { chars := text.toList }

/-- The two parts before and after an offset of the buffer, which must lie
between the bounds of the slice. -/
def splitAt (slice : Slice) (offset : Nat) : Except Fault (Slice × Slice) :=
  if slice.start ≤ offset ∧ offset ≤ slice.stop then do
    let before ← ofBounds slice.buffer slice.start offset
    let after ← ofBounds slice.buffer offset slice.stop
    return (before, after)
  else
    .error (.outside offset slice.start slice.stop)

/-- The condition that the bounds of a slice meet: they are in order and inside
the buffer. -/
def InBounds (slice : Slice) : Prop :=
  slice.start ≤ slice.stop ∧ slice.stop ≤ slice.buffer.size

instance (slice : Slice) : Decidable slice.InBounds :=
  inferInstanceAs (Decidable (_ ∧ _))

theorem ofBounds_eq_ok_iff
    {buffer : Buffer} {start stop : Nat} {slice : Slice} :
    ofBounds buffer start stop = .ok slice ↔
      slice = ⟨buffer, start, stop⟩ ∧ slice.InBounds := by
  simp only [ofBounds, InBounds]
  split
  · simp only [reduceCtorEq, false_iff]
    rintro ⟨rfl, ordered, _⟩
    simp only at ordered
    omega
  · split
    · simp only [reduceCtorEq, false_iff]
      rintro ⟨rfl, _, inside⟩
      simp only at inside
      omega
    · simp only [Except.ok.injEq]
      constructor
      · rintro rfl
        exact ⟨rfl, by simp only; omega, by simp only; omega⟩
      · rintro ⟨rfl, _⟩
        rfl

theorem inBounds_whole
    (buffer : Buffer) : (whole buffer).InBounds :=
  ⟨Nat.zero_le _, Nat.le_refl _⟩

/-- A split of a slice within its bounds succeeds at just the offsets between
them, and the parts meet there. -/
theorem splitAt_eq_ok_iff
    {slice before after : Slice} {offset : Nat}
    (inBounds : slice.InBounds) :
    slice.splitAt offset = .ok (before, after) ↔
      (slice.start ≤ offset ∧ offset ≤ slice.stop) ∧
        before = ⟨slice.buffer, slice.start, offset⟩ ∧
        after = ⟨slice.buffer, offset, slice.stop⟩ := by
  obtain ⟨_, inside⟩ := inBounds
  unfold splitAt
  split
  · rename_i between
    have beforeMade :
        ofBounds slice.buffer slice.start offset =
          .ok ⟨slice.buffer, slice.start, offset⟩ :=
      ofBounds_eq_ok_iff.mpr ⟨rfl, between.1, Nat.le_trans between.2 inside⟩
    have afterMade :
        ofBounds slice.buffer offset slice.stop =
          .ok ⟨slice.buffer, offset, slice.stop⟩ :=
      ofBounds_eq_ok_iff.mpr ⟨rfl, between.2, inside⟩
    simp only [beforeMade, afterMade, bind, Except.bind, pure, Except.pure,
      Except.ok.injEq, Prod.mk.injEq, between, and_self, true_and]
    constructor <;>
      · rintro ⟨rfl, rfl⟩
        exact ⟨rfl, rfl⟩
  · rename_i beyond
    simp only [reduceCtorEq, beyond, false_and]

/-! ## Reading slices -/

/-- The length in bytes. -/
def size (slice : Slice) : Nat :=
  slice.stop - slice.start

def isEmpty (slice : Slice) : Bool :=
  slice.size == 0

/-- The characters of a slice, or `none` if a bound falls inside one. -/
def chars? (slice : Slice) : Option (List Char) :=
  window? slice.buffer.chars slice.start slice.stop

def text (slice : Slice) : Except Fault String :=
  match slice.chars? with
  | some chars => .ok (String.ofList chars)
  | none => .error (.unreadable slice.start slice.stop)

theorem text_eq_ok_iff
    {slice : Slice} {text : String} :
    slice.text = .ok text ↔ slice.chars? = some text.toList := by
  unfold Slice.text
  split
  · rename_i chars found
    simp only [found, Except.ok.injEq, Option.some.injEq]
    constructor
    · rintro rfl
      simp
    · rintro rfl
      simp
  · rename_i missing
    simp [missing]

/-- Whether the text of a slice is the given one. -/
def hasText (slice : Slice) (expected : String) : Except Fault Bool := do
  let text ← slice.text
  return text == expected

/-- Whether two slices have the same text, wherever it stands. -/
def sameText (left right : Slice) : Except Fault Bool := do
  let text ← left.text
  right.hasText text

end Slice

end TextGrammar
