import Mathlib.Data.List.Chain
import TextGrammar.Proofs.Slice.Reading

/-!
Slices split again and again. A tree of cuts says where a slice is split and where
the parts are split in turn, in any order. The pieces that are left lie side by side
and cover what the slice covered (`exists_pieces_iff`), and between boundaries
their texts make up the text of the slice (`exists_texts_of_pieces`).
-/

namespace TextGrammar

/-- Where a slice is split, and where the parts before and behind are. -/
inductive Cuts where
  | none
  | cut (offset : Nat) (before after : Cuts)
deriving DecidableEq, Repr

namespace Cuts

def Within : Cuts → (start stop : Nat) → Prop
  | none, _, _ => True
  | cut offset before after, start, stop =>
      (start ≤ offset ∧ offset ≤ stop) ∧
        before.Within start offset ∧ after.Within offset stop

def offsets : Cuts → List Nat
  | none => []
  | cut offset before after => before.offsets ++ offset :: after.offsets

end Cuts

namespace Slice

/-- What is left of a slice after all splits, from the first piece to the last. -/
def pieces (slice : Slice) : Cuts → Except Fault (List Slice)
  | .none => .ok [slice]
  | .cut offset before after => do
      let (left, right) ← slice.splitAt offset
      let lefts ← left.pieces before
      let rights ← right.pieces after
      return lefts ++ rights

variable {slice : Slice} {cuts before after : Cuts} {offset : Nat}
  {found : List Slice}

/-- A split at the root comes first and the cuts of its two parts follow. -/
theorem pieces_cut_eq_ok_iff
    (inBounds : slice.InBounds) :
    slice.pieces (.cut offset before after) = .ok found ↔
      (slice.start ≤ offset ∧ offset ≤ slice.stop) ∧
        ∃ lefts rights,
          pieces ⟨slice.buffer, slice.start, offset⟩ before = .ok lefts ∧
          pieces ⟨slice.buffer, offset, slice.stop⟩ after = .ok rights ∧
          lefts ++ rights = found := by
  by_cases between : slice.start ≤ offset ∧ offset ≤ slice.stop
  · have split := (splitAt_eq_ok_iff inBounds).mpr ⟨between, rfl, rfl⟩
    simp only [pieces, split, bind, Except.bind, pure, Except.pure, between,
      and_self, true_and]
    cases pieces ⟨slice.buffer, slice.start, offset⟩ before with
    | error fault =>
        simp
    | ok lefts =>
        cases pieces ⟨slice.buffer, offset, slice.stop⟩ after with
        | error fault =>
            simp
        | ok rights =>
            simp
  · rw [pieces, splitAt, if_neg between]
    simp [bind, Except.bind, between]

/-- The parts of a split keep within the buffer. -/
theorem inBounds_of_between
    (inBounds : slice.InBounds)
    (between : slice.start ≤ offset ∧ offset ≤ slice.stop) :
    InBounds ⟨slice.buffer, slice.start, offset⟩ ∧
      InBounds ⟨slice.buffer, offset, slice.stop⟩ :=
  ⟨⟨between.1, Nat.le_trans between.2 inBounds.2⟩, between.2, inBounds.2⟩

/-- The pieces lie side by side in the buffer of the slice, from its start to its
stop. -/
structure PartitionedInto (slice : Slice) (pieces : List Slice) : Prop where
  buffer_eq : ∀ piece ∈ pieces, piece.buffer = slice.buffer
  inBounds : ∀ piece ∈ pieces, piece.InBounds
  adjacent : pieces.IsChain fun left right => left.stop = right.start
  start_eq : pieces.head?.map Slice.start = some slice.start
  stop_eq : pieces.getLast?.map Slice.stop = some slice.stop

theorem PartitionedInto.self
    (inBounds : slice.InBounds) : slice.PartitionedInto [slice] where
  buffer_eq := by simp
  inBounds := by simpa using inBounds
  adjacent := .singleton slice
  start_eq := rfl
  stop_eq := rfl

theorem PartitionedInto.append
    {buffer : Buffer} {start stop : Nat} {lefts rights : List Slice}
    (left : PartitionedInto ⟨buffer, start, offset⟩ lefts)
    (right : PartitionedInto ⟨buffer, offset, stop⟩ rights) :
    PartitionedInto ⟨buffer, start, stop⟩ (lefts ++ rights) := by
  obtain ⟨first, isFirst, starts⟩ := Option.map_eq_some_iff.mp left.start_eq
  obtain ⟨last, isLast, stops⟩ := Option.map_eq_some_iff.mp left.stop_eq
  obtain ⟨next, isNext, meets⟩ := Option.map_eq_some_iff.mp right.start_eq
  obtain ⟨final, isFinal, ends⟩ := Option.map_eq_some_iff.mp right.stop_eq
  constructor
  · exact List.forall_mem_append.mpr ⟨left.buffer_eq, right.buffer_eq⟩
  · exact List.forall_mem_append.mpr ⟨left.inBounds, right.inBounds⟩
  · refine left.adjacent.append right.adjacent ?_
    rw [isLast, isNext]
    rintro _ ⟨⟩ _ ⟨⟩
    exact stops.trans meets.symm
  · simp [List.head?_append, isFirst, starts]
  · simp [List.getLast?_append, isFinal, ends]

/-- A slice can be cut just at offsets within the parts that they split, and then the
pieces lie side by side. -/
theorem exists_pieces_iff
    (inBounds : slice.InBounds) :
    (∃ found, slice.pieces cuts = .ok found) ↔
      cuts.Within slice.start slice.stop := by
  induction cuts generalizing slice with
  | none =>
      exact iff_of_true ⟨_, rfl⟩ True.intro
  | cut offset before after beforeHypothesis afterHypothesis =>
      simp only [pieces_cut_eq_ok_iff inBounds, Cuts.Within]
      constructor
      · rintro ⟨_, between, lefts, rights, leftSplit, rightSplit, _⟩
        have ⟨leftInBounds, rightInBounds⟩ := inBounds_of_between inBounds between
        exact ⟨between, (beforeHypothesis leftInBounds).mp ⟨lefts, leftSplit⟩,
          (afterHypothesis rightInBounds).mp ⟨rights, rightSplit⟩⟩
      · rintro ⟨between, beforeWithin, afterWithin⟩
        have ⟨leftInBounds, rightInBounds⟩ := inBounds_of_between inBounds between
        obtain ⟨lefts, leftSplit⟩ :=
          (beforeHypothesis leftInBounds).mpr beforeWithin
        obtain ⟨rights, rightSplit⟩ :=
          (afterHypothesis rightInBounds).mpr afterWithin
        exact ⟨_, between, lefts, rights, leftSplit, rightSplit, rfl⟩

theorem partitionedInto_of_pieces
    (inBounds : slice.InBounds) (split : slice.pieces cuts = .ok found) :
    slice.PartitionedInto found := by
  induction cuts generalizing slice found with
  | none =>
      obtain rfl := Except.ok.inj split
      exact .self inBounds
  | cut offset before after beforeHypothesis afterHypothesis =>
      obtain ⟨between, lefts, rights, leftSplit, rightSplit, rfl⟩ :=
        (pieces_cut_eq_ok_iff inBounds).mp split
      have ⟨leftInBounds, rightInBounds⟩ := inBounds_of_between inBounds between
      exact (beforeHypothesis leftInBounds leftSplit).append
        (afterHypothesis rightInBounds rightSplit)

/-- A slice that is split at a boundary is read in two parts. -/
theorem exists_append_of_isBoundary
    {chars : List Char} (readable : slice.chars? = some chars)
    (between : slice.start ≤ offset ∧ offset ≤ slice.stop)
    (boundary : IsBoundary slice.buffer.chars offset) :
    ∃ read rest, read ++ rest = chars ∧
      chars? ⟨slice.buffer, slice.start, offset⟩ = some read ∧
      chars? ⟨slice.buffer, offset, slice.stop⟩ = some rest := by
  obtain ⟨_, startBoundary, _⟩ := exists_window?_iff.mp ⟨chars, readable⟩
  obtain ⟨read, readFirst⟩ :=
    exists_window?_iff.mpr ⟨between.1, startBoundary, boundary⟩
  obtain ⟨rest, rfl⟩ := prefix_of_window? readFirst readable between.2
  have readRest := (window?_of_append readable).2
  rw [byteLength_of_window? readFirst] at readRest
  exact ⟨read, rest, rfl, readFirst, readRest⟩

/-- The pieces of a slice that is cut at boundaries can be read, and their texts make
up the text of the slice. -/
theorem exists_texts_of_pieces
    {chars : List Char} (readable : slice.chars? = some chars)
    (boundaries : ∀ offset ∈ cuts.offsets, IsBoundary slice.buffer.chars offset)
    (split : slice.pieces cuts = .ok found) :
    ∃ texts, found.mapM Slice.text = .ok texts ∧
      slice.text = .ok (String.join texts) := by
  induction cuts generalizing slice chars found with
  | none =>
      obtain rfl := Except.ok.inj split
      have read := text_of_chars? readable
      refine ⟨[String.ofList chars], ?_, ?_⟩
      · rw [List.mapM_cons, read]
        rfl
      · rw [read, String.join_cons, String.join_nil, String.append_empty]
  | cut offset before after beforeHypothesis afterHypothesis =>
      obtain ⟨between, lefts, rights, leftSplit, rightSplit, rfl⟩ :=
        (pieces_cut_eq_ok_iff (inBounds_of_chars? readable)).mp split
      rw [Cuts.offsets, List.forall_mem_append, List.forall_mem_cons]
        at boundaries
      obtain ⟨beforeBoundaries, boundary, afterBoundaries⟩ := boundaries
      obtain ⟨read, rest, rfl, leftRead, rightRead⟩ :=
        exists_append_of_isBoundary readable between boundary
      obtain ⟨leftTexts, leftsRead, leftText⟩ :=
        beforeHypothesis leftRead beforeBoundaries leftSplit
      obtain ⟨rightTexts, rightsRead, rightText⟩ :=
        afterHypothesis rightRead afterBoundaries rightSplit
      refine ⟨leftTexts ++ rightTexts, ?_, ?_⟩
      · rw [List.mapM_append, leftsRead, rightsRead]
        rfl
      · have left := (text_of_chars? leftRead).symm.trans leftText
        have right := (text_of_chars? rightRead).symm.trans rightText
        rw [text_of_chars? readable, String.join_append,
          ← Except.ok.inj left, ← Except.ok.inj right, String.ofList_append]

end Slice

end TextGrammar
