import TextGrammar.Text.Offset

/-!
The UTF-8 bytes of characters, for comparisons that look at bytes alone.
-/

namespace TextGrammar

/-- The UTF-8 form of the characters. -/
def bytesOf (chars : List Char) : List UInt8 :=
  chars.flatMap String.utf8EncodeChar

@[simp] theorem length_bytesOf
    (chars : List Char) :
    (bytesOf chars).length = byteLength chars := by
  induction chars with
  | nil =>
      rfl
  | cons c rest inductionHypothesis =>
      simp only [bytesOf, List.flatMap_cons, List.length_append,
        String.length_utf8EncodeChar] at inductionHypothesis ⊢
      simp [inductionHypothesis]

/-- The bytes between two offsets, which must be in order and inside the
characters' UTF-8 form but may fall inside a character. -/
def bytesBetween? (chars : List Char) (start stop : Nat) :
    Option (List UInt8) :=
  if start ≤ stop ∧ stop ≤ byteLength chars then
    some (((bytesOf chars).take stop).drop start)
  else
    none

end TextGrammar
