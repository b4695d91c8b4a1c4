import Mathlib.Data.List.Forall2
import Mathlib.Data.Set.Defs
import TextGrammar.Proofs.CharClass
import TextGrammar.Proofs.Escape.RoundTrip

/-!
The shape of escaped texts. An escaper writes the units of a text one after the
other: a character that it never escapes as it is, a narrow unit with two digits
and a wide one with four. `EscapesAllBut` says this of an escaper and a set of
characters, with what follows for whole texts. It holds of every class set, and
the main statement, `escapers_escapeAllBut`, gives the sets of the three
escapers by their characters.
-/

namespace TextGrammar.Escape

structure UpperDigits (count value : Nat) (digits : List Char) : Prop where
  length_eq : digits.length = count
  upper : ∀ digit ∈ digits, digit ∈ hexadecimals
  value_eq : digitsValue? digits = some value

/-- What an escaper that never escapes the characters `never` writes for a
unit. -/
inductive Written (never : Set Char) : (unit : Nat) → List Char → Prop
  | kept {c : Char} (member : c ∈ never) : Written never c.toNat [c]
  | narrow {unit : Nat} {digits : List Char}
      (below : unit < 256) (outside : ∀ c ∈ never, c.toNat ≠ unit)
      (written : UpperDigits 2 unit digits) :
      Written never unit ('%' :: digits)
  | wide {unit : Nat} {digits : List Char}
      (above : 256 ≤ unit) (written : UpperDigits 4 unit digits) :
      Written never unit ('%' :: 'u' :: digits)

/-- An escaper that escapes all but the characters `never`. -/
structure EscapesAllBut
    (never : Set Char) (escaper : String → String) : Prop where
  /-- The units of a text are written one after the other. -/
  exists_written : ∀ text, ∃ pieces,
    List.Forall₂ (Written never) (text.toList.flatMap unitsOf) pieces ∧
      (escaper text).toList = pieces.flatten
  ascii : ∀ text, ∀ c ∈ (escaper text).toList, c.toNat < 128
  append : ∀ left right,
    escaper (left ++ right) = escaper left ++ escaper right
  /-- Only a text of characters that are never escaped is left as it is. -/
  eq_self_iff : ∀ text, escaper text = text ↔ ∀ c ∈ text.toList, c ∈ never

private theorem upperDigits_hexDigits
    (count : Nat) {value : Nat} (small : value < 16 ^ count) :
    UpperDigits count value (hexDigits count value) where
  length_eq := length_hexDigits count value
  upper _ member := mem_hexDigits member
  value_eq := by
    rw [digitsValue?_hexDigits, Nat.mod_eq_of_lt small]

theorem written_encodeUnit
    (kept : CharClass) {unit : Nat} (small : unit < 0x10000) :
    Written {c | c ∈ kept} unit (encodeUnit kept unit) := by
  unfold encodeUnit
  by_cases below : unit < 256
  · rw [if_pos below]
    by_cases keeps : kept.contains (Char.ofNat unit) = true
    · rw [if_pos keeps]
      have written :
          Written {c | c ∈ kept} (Char.ofNat unit).toNat [Char.ofNat unit] :=
        .kept keeps
      rwa [toNat_ofNat_of_narrow below] at written
    · rw [if_neg keeps]
      refine .narrow below ?_ (upperDigits_hexDigits 2 below)
      rintro c member rfl
      rw [Char.ofNat_toNat] at keeps
      exact keeps member
  · rw [if_neg below]
    exact .wide (Nat.not_lt.mp below) (upperDigits_hexDigits 4 small)

namespace Written

variable {never : Set Char} {piece : List Char}

theorem eq_singleton
    {c : Char} (written : Written never c.toNat piece)
    (member : c ∈ never) (ascii : c.toNat < 128) :
    piece = [c] := by
  generalize same : c.toNat = unit at written
  cases written with
  | kept other =>
      rw [Char.toNat_inj.mp same]
  | narrow below outside digits =>
      exact absurd same (outside c member)
  | wide above digits =>
      omega

/-- An escape takes more room than its unit. -/
theorem one_lt_length
    {unit : Nat} (written : Written never unit piece)
    (absent : ∀ c ∈ never, c.toNat ≠ unit) :
    1 < piece.length := by
  cases written with
  | kept member =>
      exact absurd rfl (absent _ member)
  | narrow below outside digits =>
      rw [List.length_cons, digits.length_eq]
      decide
  | wide above digits =>
      rw [List.length_cons, List.length_cons, digits.length_eq]
      decide

end Written

def encodeChar (kept : CharClass) (c : Char) : List Char :=
  (unitsOf c).flatMap (encodeUnit kept)

theorem toList_encode
    (kept : CharClass) (text : String) :
    (encode kept text).toList = text.toList.flatMap (encodeChar kept) := by
  rw [encode, String.toList_ofList, List.flatMap_assoc]
  rfl

theorem encodeChar_of_mem
    {kept : CharClass} {c : Char} (member : c ∈ kept) :
    encodeChar kept c = [c] := by
  have ascii := CharClass.toNat_lt_of_mem member
  have alone : unitsOf c = [c.toNat] := if_pos (by omega)
  rw [encodeChar, alone, List.flatMap_singleton]
  exact (written_encodeUnit kept (by omega)).eq_singleton member ascii

/-- An escape takes more room than its character. -/
theorem one_lt_length_encodeChar
    {kept : CharClass} {c : Char} (absent : c ∉ kept) :
    1 < (encodeChar kept c).length := by
  have valid := toNat_valid c
  unfold encodeChar unitsOf
  split
  · rename_i basic
    rw [List.flatMap_singleton]
    apply (written_encodeUnit kept basic).one_lt_length
    intro d member same
    exact absent (Char.toNat_inj.mp same ▸ member)
  · have leading :
        1 < (encodeUnit kept (0xD800 + (c.toNat - 0x10000) / 0x400)).length := by
      apply (written_encodeUnit kept (by omega)).one_lt_length
      intro d member
      have ascii := CharClass.toNat_lt_of_mem member
      omega
    rw [List.flatMap_cons, List.length_append]
    exact Nat.lt_add_right _ leading

private theorem length_le_flatMap
    (kept : CharClass) (chars : List Char) :
    chars.length ≤ (chars.flatMap (encodeChar kept)).length := by
  induction chars with
  | nil =>
      exact Nat.le_refl _
  | cons c others inductionHypothesis =>
      rw [List.flatMap_cons, List.length_append, List.length_cons]
      by_cases member : c ∈ kept
      · rw [encodeChar_of_mem member, List.length_singleton]
        omega
      · have longer := one_lt_length_encodeChar member
        omega

theorem flatMap_encodeChar_eq_self_iff
    {kept : CharClass} {chars : List Char} :
    chars.flatMap (encodeChar kept) = chars ↔ ∀ c ∈ chars, c ∈ kept := by
  induction chars with
  | nil =>
      simp
  | cons c others inductionHypothesis =>
      rw [List.flatMap_cons, List.forall_mem_cons]
      by_cases member : c ∈ kept
      · rw [encodeChar_of_mem member, List.singleton_append, List.cons_inj_right,
          inductionHypothesis]
        exact (and_iff_right member).symm
      · refine iff_of_false ?_ fun all => member all.1
        intro same
        have lengths := congrArg List.length same
        have longer := one_lt_length_encodeChar member
        have others := length_le_flatMap kept others
        rw [List.length_append, List.length_cons] at lengths
        omega

/-- Every class set is that of an escaper. -/
theorem escapesAllBut_encode
    (kept : CharClass) : EscapesAllBut {c | c ∈ kept} (encode kept) where
  exists_written text := by
    refine ⟨(text.toList.flatMap unitsOf).map (encodeUnit kept), ?_, ?_⟩
    · rw [List.forall₂_map_right_iff, List.forall₂_same]
      intro unit member
      obtain ⟨c, _, inside⟩ := List.mem_flatMap.mp member
      exact written_encodeUnit kept (lt_of_mem_unitsOf inside)
    · rw [encode, String.toList_ofList, List.flatMap_def]
  ascii text c member := by
    rcases mem_encode member with keeps | escape
    · exact CharClass.toNat_lt_of_mem keeps
    · have each : ∀ c ∈ '%' :: 'u' :: hexadecimals, c.toNat < 128 := by
        simp [hexadecimals]
      exact each c escape
  append left right := by
    apply String.toList_injective
    rw [String.toList_append, toList_encode, toList_encode, toList_encode,
      String.toList_append, List.flatMap_append]
  eq_self_iff text := by
    rw [← String.toList_inj, toList_encode]
    exact flatMap_encodeChar_eq_self_iff

def alphanumerics : Set Char :=
  {c | c.isAlphanum = true}

def uriMarks : Set Char :=
  {c | c ∈ ['-', '_', '.', '!', '~', '*', '\'', '(', ')']}

def uriReserved : Set Char :=
  {c | c ∈ [';', '/', '?', ':', '@', '&', '=', '+', '$', ',']}

def escapeSymbols : Set Char :=
  {c | c ∈ ['@', '*', '_', '+', '-', '.', '/']}

private theorem setOf_mem_union
    (left right : CharClass) :
    {c | c ∈ left ∪ right} = {c | c ∈ left} ∪ {c | c ∈ right} :=
  Set.ext fun _ => CharClass.mem_union_iff

/-- The characters of a primitive class that lists them. -/
theorem setOf_mem_listed
    {primitive : CharClass} {characters : List Char}
    (listed : (primitive, characters.contains) ∈ CharClass.primitives) :
    {c | c ∈ primitive} = {c | c ∈ characters} := by
  ext c
  show primitive.contains c = true ↔ c ∈ characters
  rw [CharClass.contains_of_mem_primitives listed]
  exact List.contains_iff_mem

private theorem setOf_mem_numberSign :
    {c | c ∈ CharClass.numberSign} = {'#'} := by
  have listed : (CharClass.numberSign, (· == '#')) ∈ CharClass.primitives := by
    simp [CharClass.primitives]
  ext c
  show CharClass.numberSign.contains c = true ↔ c = '#'
  rw [CharClass.contains_of_mem_primitives listed]
  exact beq_iff_eq

private theorem setOf_mem_alphanumeric :
    {c | c ∈ CharClass.alphanumeric} = alphanumerics := by
  ext c
  show CharClass.alphanumeric.contains c = true ↔ c.isAlphanum = true
  rw [CharClass.contains_alphanumeric]

theorem setOf_mem_keptInComponent :
    {c | c ∈ keptInComponent} = alphanumerics ∪ uriMarks := by
  have marks : {c | c ∈ CharClass.uriMark} = uriMarks :=
    setOf_mem_listed (by simp [CharClass.primitives])
  calc {c | c ∈ keptInComponent}
      = {c | c ∈ CharClass.alphanumeric} ∪ {c | c ∈ CharClass.uriMark} :=
        setOf_mem_union .alphanumeric .uriMark
    _ = alphanumerics ∪ uriMarks := by
        rw [setOf_mem_alphanumeric, marks]

theorem setOf_mem_keptInUri :
    {c | c ∈ keptInUri} =
      alphanumerics ∪ uriMarks ∪ {'#'} ∪ uriReserved := by
  have reserved : {c | c ∈ CharClass.uriReserved} = uriReserved :=
    setOf_mem_listed (by simp [CharClass.primitives])
  rw [keptInUri, setOf_mem_union, setOf_mem_union, setOf_mem_keptInComponent,
    setOf_mem_numberSign, reserved]

theorem setOf_mem_keptInText :
    {c | c ∈ keptInText} = alphanumerics ∪ escapeSymbols := by
  have symbols : {c | c ∈ CharClass.escapeSymbol} = escapeSymbols :=
    setOf_mem_listed (by simp [CharClass.primitives])
  calc {c | c ∈ keptInText}
      = {c | c ∈ CharClass.alphanumeric} ∪ {c | c ∈ CharClass.escapeSymbol} :=
        setOf_mem_union .alphanumeric .escapeSymbol
    _ = alphanumerics ∪ escapeSymbols := by
        rw [setOf_mem_alphanumeric, symbols]

/-- No escaper escapes letters and digits. Beside these, a component keeps the
unreserved marks, a whole URI also the number sign and what is reserved, and
other text its own symbols. -/
theorem escapers_escapeAllBut :
    EscapesAllBut (alphanumerics ∪ uriMarks ∪ {'#'} ∪ uriReserved) uri ∧
      EscapesAllBut (alphanumerics ∪ uriMarks) uriComponent ∧
      EscapesAllBut (alphanumerics ∪ escapeSymbols) plainText := by
  rw [← setOf_mem_keptInUri, ← setOf_mem_keptInComponent,
    ← setOf_mem_keptInText]
  exact ⟨escapesAllBut_encode keptInUri, escapesAllBut_encode keptInComponent,
    escapesAllBut_encode keptInText⟩

end TextGrammar.Escape
