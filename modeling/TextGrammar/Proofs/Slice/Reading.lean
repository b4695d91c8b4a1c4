import TextGrammar.Slice.Basic
import TextGrammar.Proofs.Text.Boundary

/-!
Slices that can be read. The bounds of such a slice are boundaries in order, and
what is left of it behind some of its characters can be read again. The main
statement is `exists_chars?_iff`.
-/

namespace TextGrammar.Slice

theorem size_of_chars?
    {slice : Slice} {chars : List Char}
    (readable : slice.chars? = some chars) :
    slice.size = byteLength chars := by
  have length := byteLength_of_window? readable
  rw [size]
  omega

theorem inBounds_of_chars?
    {slice : Slice} {chars : List Char}
    (readable : slice.chars? = some chars) : slice.InBounds := by
  obtain ⟨ordered, _, stopBoundary⟩ :=
    exists_window?_iff.mp ⟨chars, readable⟩
  exact ⟨ordered, stopBoundary.le_byteLength⟩

theorem text_of_chars?
    {slice : Slice} {chars : List Char}
    (readable : slice.chars? = some chars) :
    slice.text = .ok (String.ofList chars) :=
  text_eq_ok_iff.mpr (by rw [readable, String.toList_ofList])

theorem sameText_of_texts
    {left right : Slice} {text other : String}
    (leftRead : left.text = .ok text) (rightRead : right.text = .ok other) :
    left.sameText right = .ok (other == text) := by
  simp only [sameText, hasText, leftRead, rightRead, bind, Except.bind, pure,
    Except.pure]

theorem chars?_whole
    (buffer : Buffer) : (whole buffer).chars? = some buffer.chars :=
  window?_whole buffer.chars

theorem chars?_ofString
    (text : String) : (ofString text).chars? = some text.toList :=
  chars?_whole { chars := text.toList }

/-- A slice can be read just if its bounds are in order and on boundaries. -/
theorem exists_chars?_iff
    {slice : Slice} :
    (∃ chars, slice.chars? = some chars) ↔
      slice.InBounds ∧
        IsBoundary slice.buffer.chars slice.start ∧
        IsBoundary slice.buffer.chars slice.stop := by
  constructor
  · rintro ⟨chars, readable⟩
    exact ⟨inBounds_of_chars? readable,
      (exists_window?_iff.mp ⟨chars, readable⟩).2⟩
  · rintro ⟨inBounds, boundaries⟩
    exact exists_window?_iff.mpr ⟨inBounds.1, boundaries⟩

/-- The text of a slice within its buffer cannot be read just if a bound falls inside
a character. -/
theorem InBounds.exists_fault_iff
    {slice : Slice} (inBounds : slice.InBounds) :
    (∃ fault, slice.text = .error fault) ↔
      ¬ IsBoundary slice.buffer.chars slice.start ∨
        ¬ IsBoundary slice.buffer.chars slice.stop := by
  have faulty :
      (∃ fault, slice.text = .error fault) ↔
        ¬ ∃ chars, slice.chars? = some chars := by
    rw [text]
    cases slice.chars? with
    | none =>
        simp
    | some chars =>
        simp
  rw [faulty, exists_chars?_iff, and_iff_right inBounds,
    Decidable.not_and_iff_not_or_not]

def leaving (slice : Slice) (rest : List Char) : Slice :=
  ⟨slice.buffer, slice.stop - byteLength rest, slice.stop⟩

theorem leaving_leaving
    (slice : Slice) (middle rest : List Char) :
    (slice.leaving middle).leaving rest = slice.leaving rest := rfl

theorem leaving_self
    {slice : Slice} {chars : List Char}
    (readable : slice.chars? = some chars) :
    slice.leaving chars = slice := by
  have length := byteLength_of_window? readable
  have startEq : slice.stop - byteLength chars = slice.start := by
    omega
  rw [leaving, startEq]

theorem stop_eq_of_chars?
    {slice : Slice} {read rest : List Char}
    (readable : slice.chars? = some (read ++ rest)) :
    slice.stop - byteLength rest = slice.start + byteLength read := by
  have length := byteLength_of_window? readable
  rw [byteLength_append] at length
  omega

theorem chars?_leaving
    {slice : Slice} {read rest : List Char}
    (readable : slice.chars? = some (read ++ rest)) :
    (slice.leaving rest).chars? = some rest := by
  rw [leaving, stop_eq_of_chars? readable]
  exact (window?_of_append readable).2

theorem size_leaving
    {slice : Slice} {read rest : List Char}
    (readable : slice.chars? = some (read ++ rest)) :
    (slice.leaving rest).size = byteLength rest := by
  have length := byteLength_of_window? readable
  rw [byteLength_append] at length
  simp only [size, leaving]
  omega

end TextGrammar.Slice
