import TextGrammar.Proofs.Text.Boundary
import TextGrammar.Text.Bytes

/-!
Bytes that are equal to those of some characters. UTF-8 tells the first byte of a
character from all others, and no character is written like the beginning of
another. So bytes of a text that spell at least one character stand between two
boundaries of the text and are read there as the same characters. The main
statement is `bytesBetween?_eq_some_bytesOf_iff`.
-/

namespace TextGrammar

theorem bytesOf_cons
    (c : Char) (rest : List Char) :
    bytesOf (c :: rest) = String.utf8EncodeChar c ++ bytesOf rest :=
  List.flatMap_cons

theorem bytesOf_append
    (left right : List Char) :
    bytesOf (left ++ right) = bytesOf left ++ bytesOf right :=
  List.flatMap_append

/-- What stands behind a character does not change how it is read. -/
theorem eq_of_utf8EncodeChar_append_eq
    {c d : Char} {behindLeft behindRight : List UInt8}
    (same :
      String.utf8EncodeChar c ++ behindLeft =
        String.utf8EncodeChar d ++ behindRight) :
    c = d := by
  have read (e : Char) (behind : List UInt8) :
      (String.utf8EncodeChar e ++ behind).toByteArray.utf8DecodeChar? 0 =
        some e := by
    rw [List.toByteArray_append, ByteArray.utf8DecodeChar?_utf8EncodeChar_append]
  have left := read c behindLeft
  rw [same, read d behindRight] at left
  exact (Option.some.inj left).symm

/-- Bytes begin other bytes just if their characters do. -/
theorem bytesOf_prefix_iff
    {read chars : List Char} :
    bytesOf read <+: bytesOf chars ↔ read <+: chars := by
  constructor
  · intro initial
    induction read generalizing chars with
    | nil =>
        exact List.nil_prefix
    | cons c read inductionHypothesis =>
        cases chars with
        | nil =>
            have empty := List.prefix_nil.mp initial
            rw [bytesOf_cons] at empty
            exact absurd (List.append_eq_nil_iff.mp empty).1
              String.utf8EncodeChar_ne_nil
        | cons d chars =>
            rw [bytesOf_cons, bytesOf_cons] at initial
            have same : c = d := by
              rcases initial with ⟨behind, whole⟩
              rw [List.append_assoc] at whole
              exact eq_of_utf8EncodeChar_append_eq whole
            rw [same, List.prefix_append_right_inj] at initial
            rw [same, List.prefix_cons_inj]
            exact inductionHypothesis initial
  · rintro ⟨rest, rfl⟩
    rw [bytesOf_append]
    exact List.prefix_append _ _

theorem bytesOf_injective :
    Function.Injective bytesOf := by
  intro left right same
  have initial : left <+: right :=
    bytesOf_prefix_iff.mp (same ▸ List.prefix_rfl)
  have length := congrArg List.length same
  rw [length_bytesOf, length_bytesOf] at length
  rcases initial with ⟨rest, rfl⟩
  rw [byteLength_append] at length
  have nothing : rest = [] := byteLength_eq_zero_iff.mp (by omega)
  rw [nothing, List.append_nil]

private theorem exists_firstByte
    (c : Char) (rest : List Char) :
    ∃ byte, (bytesOf (c :: rest))[0]? = some byte ∧ byte.IsUTF8FirstByte := by
  have long : 0 < (String.utf8EncodeChar c).length := by
    rw [String.length_utf8EncodeChar]
    exact c.utf8Size_pos
  refine ⟨(String.utf8EncodeChar c)[0], ?_,
    UInt8.isUTF8FirstByte_getElem_utf8EncodeChar.mpr rfl⟩
  rw [bytesOf_cons, List.getElem?_append_left long, List.getElem?_eq_getElem long]

/-- A byte that can begin a character does begin one wherever it stands. -/
theorem isBoundary_of_isUTF8FirstByte
    {chars : List Char} {offset : Nat} {byte : UInt8}
    (found : (bytesOf chars)[offset]? = some byte)
    (first : byte.IsUTF8FirstByte) :
    IsBoundary chars offset := by
  induction chars generalizing offset with
  | nil =>
      contradiction
  | cons c rest inductionHypothesis =>
      have length := String.length_utf8EncodeChar c
      rw [bytesOf_cons] at found
      by_cases inside : offset < (String.utf8EncodeChar c).length
      · rw [List.getElem?_append_left inside, List.getElem?_eq_getElem inside,
          Option.some.injEq] at found
        rw [← found, UInt8.isUTF8FirstByte_getElem_utf8EncodeChar] at first
        rw [first]
        exact isBoundary_append [] (c :: rest)
      · rw [List.getElem?_append_right (Nat.not_lt.mp inside)] at found
        rcases isBoundary_iff.mp (inductionHypothesis found) with
          ⟨before, after, split, behind⟩
        refine isBoundary_iff.mpr ⟨c :: before, after, ?_, ?_⟩
        · rw [split, List.cons_append]
        · rw [byteLength_cons]
          omega

theorem bytesBetween?_eq_some_iff
    {chars : List Char} {start stop : Nat} {bytes : List UInt8} :
    bytesBetween? chars start stop = some bytes ↔
      start ≤ stop ∧ stop ≤ byteLength chars ∧
        ((bytesOf chars).take stop).drop start = bytes := by
  rw [bytesBetween?, Option.ite_none_right_eq_some, Option.some.injEq, and_assoc]

theorem length_of_bytesBetween?
    {chars : List Char} {start stop : Nat} {bytes : List UInt8}
    (found : bytesBetween? chars start stop = some bytes) :
    start + bytes.length = stop := by
  rcases bytesBetween?_eq_some_iff.mp found with ⟨ordered, inside, rfl⟩
  rw [List.length_drop, List.length_take, length_bytesOf]
  omega

/-- Between two boundaries stand the bytes of the characters that are read
there. -/
theorem bytesBetween?_of_window?
    {text chars : List Char} {start stop : Nat}
    (readable : window? text start stop = some chars) :
    bytesBetween? text start stop = some (bytesOf chars) := by
  rcases window?_eq_some_iff.mp readable with
    ⟨before, after, rfl, atStart, atStop⟩
  have beforeLength : (bytesOf before).length = start := by
    rw [length_bytesOf, atStart]
  have insideLength : (bytesOf (before ++ chars)).length = stop := by
    rw [length_bytesOf, byteLength_append, atStart, atStop]
  refine bytesBetween?_eq_some_iff.mpr ⟨by omega, ?_, ?_⟩
  · rw [byteLength_append, byteLength_append]
    omega
  · rw [bytesOf_append, List.take_left' insideLength, bytesOf_append,
      List.drop_left' beforeLength]

/-- Bytes that spell at least one character are found just where these
characters are read. -/
theorem bytesBetween?_eq_some_bytesOf_iff
    {text chars : List Char} {start stop : Nat} (nonempty : chars ≠ []) :
    bytesBetween? text start stop = some (bytesOf chars) ↔
      window? text start stop = some chars := by
  refine ⟨?_, bytesBetween?_of_window?⟩
  intro found
  have length := length_of_bytesBetween? found
  rw [length_bytesOf] at length
  rcases bytesBetween?_eq_some_iff.mp found with ⟨ordered, inside, same⟩
  have startBoundary : IsBoundary text start := by
    rcases List.exists_cons_of_ne_nil nonempty with ⟨c, others, rfl⟩
    rcases exists_firstByte c others with ⟨byte, atFirst, first⟩
    have nonzero := c.utf8Size_pos
    rw [byteLength_cons] at length
    rw [← same, List.getElem?_drop, List.getElem?_take_of_lt (by omega)]
      at atFirst
    exact isBoundary_of_isUTF8FirstByte atFirst first
  rcases isBoundary_iff.mp startBoundary with ⟨before, after, rfl, atStart⟩
  have beforeLength : (bytesOf before).length = start := by
    rw [length_bytesOf, atStart]
  have initial : bytesOf chars <+: bytesOf after := by
    rw [← same, List.drop_take, bytesOf_append, List.drop_left' beforeLength]
    exact List.take_prefix _ _
  rcases bytesOf_prefix_iff.mp initial with ⟨rest, rfl⟩
  refine window?_eq_some_iff.mpr ⟨before, rest, ?_, atStart, length⟩
  rw [List.append_assoc]

/-- No bytes are found between equal offsets, boundaries or not. -/
theorem bytesBetween?_eq_some_nil_iff
    {text : List Char} {start stop : Nat} :
    bytesBetween? text start stop = some [] ↔
      start = stop ∧ stop ≤ byteLength text := by
  constructor
  · intro found
    exact ⟨length_of_bytesBetween? found,
      (bytesBetween?_eq_some_iff.mp found).2.1⟩
  · rintro ⟨rfl, inside⟩
    refine bytesBetween?_eq_some_iff.mpr ⟨Nat.le_refl _, inside, ?_⟩
    apply List.drop_eq_nil_of_le
    rw [List.length_take]
    exact Nat.min_le_left _ _

end TextGrammar
