import Mathlib.Algebra.Group.Nat.Defs
import TextGrammar.Proofs.Escape.Characters

/-!
Reading escaped texts. The units of an escaped text are read from the left: an
escape gives the unit that its digits write, and any other character its own
units. The two widths of an escape are told apart by the `u`, which is no
hexadecimal digit, so the written form of a unit is read alone whatever stands
behind it (`unescape_encodeUnit_append`). The units are then read as UTF-16. The
main statement is `escapers_reversible`.
-/

namespace TextGrammar.Escape

def digitValue? (c : Char) : Option Nat :=
  if '0' ≤ c ∧ c ≤ '9' then
    some (c.toNat - '0'.toNat)
  else if 'A' ≤ c ∧ c ≤ 'F' then
    some (c.toNat - 'A'.toNat + 10)
  else if 'a' ≤ c ∧ c ≤ 'f' then
    some (c.toNat - 'a'.toNat + 10)
  else
    none

def digitsValue? (digits : List Char) : Option Nat :=
  digits.foldlM (fun value c => (16 * value + ·) <$> digitValue? c) 0

private theorem digitValue?_hexDigit
    {value : Nat} (small : value < 16) :
    digitValue? (hexDigit value) = some value := by
  have each : ∀ value < 16, digitValue? (hexDigit value) = some value := by
    decide
  exact each value small

theorem length_hexDigits
    (count value : Nat) : (hexDigits count value).length = count := by
  induction count generalizing value with
  | zero =>
      rfl
  | succ count inductionHypothesis =>
      rw [hexDigits, List.length_append, inductionHypothesis,
        List.length_singleton]

theorem digitsValue?_concat
    {digits : List Char} {c : Char} {high low : Nat}
    (before : digitsValue? digits = some high)
    (last : digitValue? c = some low) :
    digitsValue? (digits ++ [c]) = some (16 * high + low) := by
  unfold digitsValue? at before ⊢
  rw [List.foldlM_append, before]
  simp [last]

/-- So many digits of a number write its remainder by that power of sixteen. -/
theorem digitsValue?_hexDigits
    (count value : Nat) :
    digitsValue? (hexDigits count value) = some (value % 16 ^ count) := by
  induction count generalizing value with
  | zero =>
      rw [Nat.pow_zero, Nat.mod_one]
      rfl
  | succ count inductionHypothesis =>
      have last := digitValue?_hexDigit (Nat.mod_lt value (by decide : 0 < 16))
      have joined :
          16 * (value / 16 % 16 ^ count) + value % 16 =
            value % 16 ^ (count + 1) := by
        rw [Nat.pow_succ', Nat.mod_mul]
        exact Nat.add_comm _ _
      rw [hexDigits, digitsValue?_concat (inductionHypothesis _) last, joined]

def readDigits? (count : Nat) (chars : List Char) : Option (Nat × List Char) :=
  if count ≤ chars.length then
    (·, chars.drop count) <$> digitsValue? (chars.take count)
  else
    none

def readEscape? : List Char → Option (Nat × List Char)
  | '%' :: 'u' :: digits => readDigits? 4 digits
  | '%' :: digits => readDigits? 2 digits
  | _ => none

private theorem length_le_of_readDigits?
    {count unit : Nat} {chars behind : List Char}
    (found : readDigits? count chars = some (unit, behind)) :
    behind.length ≤ chars.length := by
  unfold readDigits? at found
  split at found
  · obtain ⟨_, _, same⟩ := Option.map_eq_some_iff.mp found
    rw [← (Prod.mk.inj same).2, List.length_drop]
    exact Nat.sub_le _ _
  · contradiction

private theorem length_lt_of_readEscape?
    {unit : Nat} {chars behind : List Char}
    (found : readEscape? chars = some (unit, behind)) :
    behind.length < chars.length := by
  unfold readEscape? at found
  split at found
  · have shorter := length_le_of_readDigits? found
    simp only [List.length_cons]
    omega
  · have shorter := length_le_of_readDigits? found
    simp only [List.length_cons]
    omega
  · contradiction

/-- The units of an escaped text: those of its escapes, and of every character
in no escape its own. -/
def unescape : List Char → List Nat
  | [] => []
  | c :: others =>
      match _found : readEscape? (c :: others) with
      | some (unit, behind) => unit :: unescape behind
      | none => unitsOf c ++ unescape others
termination_by chars => chars.length
decreasing_by
  · exact length_lt_of_readEscape? _found
  · exact Nat.lt_succ_self _

private theorem unescape_of_readEscape?
    {unit : Nat} {chars behind : List Char}
    (found : readEscape? chars = some (unit, behind)) :
    unescape chars = unit :: unescape behind := by
  cases chars with
  | nil =>
      contradiction
  | cons c others =>
      rw [unescape]
      split
      · rename_i unit' behind' found'
        rw [found] at found'
        obtain ⟨rfl, rfl⟩ := Prod.mk.inj (Option.some.inj found')
        rfl
      · rename_i missing
        rw [found] at missing
        contradiction

private theorem unescape_cons_of_ne
    {c : Char} (different : c ≠ '%') (others : List Char) :
    unescape (c :: others) = unitsOf c ++ unescape others := by
  have missing : readEscape? (c :: others) = none := by
    unfold readEscape?
    split <;> simp_all
  rw [unescape]
  split
  · rename_i found
    rw [missing] at found
    contradiction
  · rfl

private theorem readDigits?_hexDigits_append
    (count : Nat) {value : Nat} (small : value < 16 ^ count)
    (behind : List Char) :
    readDigits? count (hexDigits count value ++ behind) =
      some (value, behind) := by
  have written : (hexDigits count value).length = count :=
    length_hexDigits count value
  have long : count ≤ (hexDigits count value ++ behind).length := by
    rw [List.length_append, written]
    exact Nat.le_add_right _ _
  rw [readDigits?, if_pos long, List.take_left' written,
    List.drop_left' written, digitsValue?_hexDigits, Nat.mod_eq_of_lt small]
  rfl

/-- The digits of a narrow escape do not begin with the mark of a wide one. -/
theorem readEscape?_narrow
    {unit : Nat} (narrow : unit < 256) (behind : List Char) :
    readEscape? ('%' :: (hexDigits 2 unit ++ behind)) =
      some (unit, behind) := by
  have digits := readDigits?_hexDigits_append 2 narrow behind
  have noMark : ∀ others, hexDigits 2 unit ++ behind ≠ 'u' :: others := by
    intro others same
    have first : hexDigit (unit / 16 % 16) = 'u' := (List.cons.inj same).1
    have digit := hexDigit_mem (Nat.mod_lt (unit / 16) (by decide : 0 < 16))
    rw [first] at digit
    revert digit
    decide
  unfold readEscape?
  split
  · rename_i others same
    exact absurd (List.cons.inj same).2 (noMark others)
  · rename_i others _ same
    rw [← (List.cons.inj same).2]
    exact digits
  · rename_i other
    exact absurd rfl (other _)

private theorem readEscape?_wide
    {unit : Nat} (small : unit < 0x10000) (behind : List Char) :
    readEscape? ('%' :: 'u' :: (hexDigits 4 unit ++ behind)) =
      some (unit, behind) :=
  readDigits?_hexDigits_append 4 small behind

theorem toNat_ofNat_of_narrow
    {unit : Nat} (narrow : unit < 256) : (Char.ofNat unit).toNat = unit := by
  have valid : unit.isValidChar := .inl (by omega)
  rw [Char.ofNat, dif_pos valid]
  rfl

/-- What is written for a unit is read alone, whatever stands behind it. -/
theorem unescape_encodeUnit_append
    {kept : CharClass} (escapesPercent : '%' ∉ kept)
    {unit : Nat} (small : unit < 0x10000) (behind : List Char) :
    unescape (encodeUnit kept unit ++ behind) = unit :: unescape behind := by
  unfold encodeUnit
  by_cases narrow : unit < 256
  · rw [if_pos narrow]
    by_cases keeps : kept.contains (Char.ofNat unit) = true
    · have different : Char.ofNat unit ≠ '%' := by
        intro same
        exact escapesPercent (same ▸ keeps)
      have alone : unitsOf (Char.ofNat unit) = [unit] := by
        rw [unitsOf, toNat_ofNat_of_narrow narrow, if_pos small]
      rw [if_pos keeps, List.singleton_append, unescape_cons_of_ne different,
        alone, List.singleton_append]
    · rw [if_neg keeps]
      exact unescape_of_readEscape? (readEscape?_narrow narrow behind)
  · rw [if_neg narrow]
    exact unescape_of_readEscape? (readEscape?_wide small behind)

private theorem unescape_flatMap
    {kept : CharClass} (escapesPercent : '%' ∉ kept)
    {units : List Nat} (small : ∀ unit ∈ units, unit < 0x10000) :
    unescape (units.flatMap (encodeUnit kept)) = units := by
  induction units with
  | nil =>
      rw [List.flatMap_nil, unescape]
  | cons unit others inductionHypothesis =>
      have smallOthers := fun other member =>
        small other (List.mem_cons_of_mem unit member)
      rw [List.flatMap_cons,
        unescape_encodeUnit_append escapesPercent
          (small unit List.mem_cons_self),
        inductionHypothesis smallOthers]

/-- The characters that UTF-16 units spell. A leading surrogate makes one
character with a trailing one behind it, and no surrogate stands otherwise. -/
def charsOfUnits? : List Nat → Option (List Char)
  | [] => some []
  | unit :: others =>
      if 0xD800 ≤ unit ∧ unit < 0xDC00 then
        match others with
        | [] => none
        | trailing :: behind =>
            if 0xDC00 ≤ trailing ∧ trailing < 0xE000 then
              (Char.ofNat
                (0x10000 + (unit - 0xD800) * 0x400 + (trailing - 0xDC00)) :: ·)
                  <$> charsOfUnits? behind
            else
              none
      else if 0xDC00 ≤ unit ∧ unit < 0xE000 then
        none
      else
        (Char.ofNat unit :: ·) <$> charsOfUnits? others

theorem toNat_valid
    (c : Char) : c.toNat < 0xD800 ∨ (0xDFFF < c.toNat ∧ c.toNat < 0x110000) :=
  c.valid

theorem lt_of_mem_unitsOf
    {c : Char} {unit : Nat} (member : unit ∈ unitsOf c) : unit < 0x10000 := by
  have valid := toNat_valid c
  unfold unitsOf at member
  split at member
  · rename_i narrow
    rwa [List.mem_singleton.mp member]
  · simp only [List.mem_cons, List.not_mem_nil, or_false] at member
    omega

/-- The units of a character spell it, whatever stands behind them. -/
theorem charsOfUnits?_unitsOf_append
    (c : Char) (others : List Nat) :
    charsOfUnits? (unitsOf c ++ others) =
      (c :: ·) <$> charsOfUnits? others := by
  have valid := toNat_valid c
  unfold unitsOf
  split
  · have noLeading : ¬ (0xD800 ≤ c.toNat ∧ c.toNat < 0xDC00) := by omega
    have noTrailing : ¬ (0xDC00 ≤ c.toNat ∧ c.toNat < 0xE000) := by omega
    rw [List.singleton_append, charsOfUnits?.eq_def]
    simp only [if_neg noLeading, if_neg noTrailing, Char.ofNat_toNat]
  · have leading :
        0xD800 ≤ 0xD800 + (c.toNat - 0x10000) / 0x400 ∧
          0xD800 + (c.toNat - 0x10000) / 0x400 < 0xDC00 := by omega
    have trailing :
        0xDC00 ≤ 0xDC00 + (c.toNat - 0x10000) % 0x400 ∧
          0xDC00 + (c.toNat - 0x10000) % 0x400 < 0xE000 := by omega
    have joined :
        0x10000 + (0xD800 + (c.toNat - 0x10000) / 0x400 - 0xD800) * 0x400 +
          (0xDC00 + (c.toNat - 0x10000) % 0x400 - 0xDC00) = c.toNat := by omega
    simp only [List.cons_append, List.nil_append, charsOfUnits?, if_pos leading,
      if_pos trailing, joined, Char.ofNat_toNat]

private theorem charsOfUnits?_flatMap
    (chars : List Char) :
    charsOfUnits? (chars.flatMap unitsOf) = some chars := by
  induction chars with
  | nil =>
      rfl
  | cons c others inductionHypothesis =>
      rw [List.flatMap_cons, charsOfUnits?_unitsOf_append, inductionHypothesis]
      rfl

/-- The text of which an escaped text gives the units, if these are UTF-16. -/
def decode (text : String) : Option String :=
  String.ofList <$> charsOfUnits? (unescape text.toList)

theorem decode_encode
    {kept : CharClass} (escapesPercent : '%' ∉ kept) (text : String) :
    decode (encode kept text) = some text := by
  have small : ∀ unit ∈ text.toList.flatMap unitsOf, unit < 0x10000 := by
    intro unit member
    obtain ⟨c, _, inside⟩ := List.mem_flatMap.mp member
    exact lt_of_mem_unitsOf inside
  rw [decode, encode, String.toList_ofList, unescape_flatMap escapesPercent small,
    charsOfUnits?_flatMap]
  exact congrArg some (String.ofList_toList)

theorem encode_injective
    {kept : CharClass} (escapesPercent : '%' ∉ kept) :
    Function.Injective (encode kept) := by
  intro left right same
  have leftRead := decode_encode escapesPercent left
  rw [same, decode_encode escapesPercent right] at leftRead
  exact (Option.some.inj leftRead).symm

/-- What any of the escapers writes is read back as the text it was given, so no
two texts are written alike. -/
theorem escapers_reversible :
    (∀ text, decode (uri text) = some text ∧
      decode (uriComponent text) = some text ∧
      decode (plainText text) = some text) ∧
    Function.Injective uri ∧ Function.Injective uriComponent ∧
      Function.Injective plainText := by
  have inUri : '%' ∉ keptInUri := by decide
  have inComponent : '%' ∉ keptInComponent := by decide
  have inText : '%' ∉ keptInText := by decide
  constructor
  · intro text
    exact ⟨decode_encode inUri text, decode_encode inComponent text,
      decode_encode inText text⟩
  · exact ⟨encode_injective inUri, encode_injective inComponent,
      encode_injective inText⟩

end TextGrammar.Escape
