import Mathlib.Data.List.Basic
import TextGrammar.Proofs.Numeral
import TextGrammar.Proofs.Recognizer.Offsets
import TextGrammar.Proofs.Recognizer.Runs
import TextGrammar.Proofs.Text.Bytes

/-!
Numerals at the start of a text. The value of a text is that of its leading run of
digits, whether the digits are told by their bytes or by their characters, and
this run is what the recognizer of digits matches. The main statement is
`leadingValue_of_leading_digits`.
-/

namespace TextGrammar.Numeral

def isDigitByte (byte : UInt8) : Bool :=
  48 ≤ byte && byte ≤ 57

/-- The value, modulo `2 ^ 64`, of the digits at the start of some bytes. -/
def leadingValueOfBytes (bytes : List UInt8) : UInt64 :=
  (bytes.takeWhile isDigitByte).foldl
    (fun value byte => value * 10 + (byte - 48).toUInt64) 0

theorem isDigitByte_iff
    {byte : UInt8} :
    isDigitByte byte = true ↔ 48 ≤ byte.toNat ∧ byte.toNat ≤ 57 := by
  simp [isDigitByte, UInt8.le_iff_toNat_le]

private theorem isDigit_iff
    {c : Char} : c.isDigit = true ↔ 48 ≤ c.toNat ∧ c.toNat ≤ 57 := by
  simp [Char.isDigit, UInt32.le_iff_toNat_le]

private theorem toNat_toUInt8_of_isDigit
    {c : Char} (digit : c.isDigit = true) : c.toUInt8.toNat = c.toNat := by
  obtain ⟨_, bounded⟩ := isDigit_iff.mp digit
  have modulo : c.toUInt8.toNat = c.toNat % 256 := UInt32.toNat_toUInt8 c.val
  omega

/-- A digit is a single byte. -/
theorem utf8EncodeChar_of_isDigit
    {c : Char} (digit : c.isDigit = true) :
    String.utf8EncodeChar c = [c.toUInt8] := by
  obtain ⟨_, bounded⟩ := isDigit_iff.mp digit
  have single : c.utf8Size = 1 := by
    rw [Char.utf8Size_eq_one_iff, UInt32.le_iff_toNat_le]
    exact Nat.le_trans bounded (by decide)
  rw [String.utf8EncodeChar_eq_singleton single]
  rfl

/-- A byte that is a digit is all of a character that is a digit. -/
theorem exists_digit_of_isDigitByte
    {byte : UInt8} (passed : isDigitByte byte = true) :
    ∃ c : Char, c.isDigit = true ∧ String.utf8EncodeChar c = [byte] := by
  obtain ⟨low, high⟩ := isDigitByte_iff.mp passed
  have valid : byte.toNat.isValidChar := Or.inl (by omega)
  have code : (Char.ofNat byte.toNat).toNat = byte.toNat := by
    rw [Char.ofNat, dif_pos valid]
    rfl
  have digit : (Char.ofNat byte.toNat).isDigit = true := by
    rw [isDigit_iff, code]
    exact ⟨low, high⟩
  refine ⟨Char.ofNat byte.toNat, digit, ?_⟩
  have same : (Char.ofNat byte.toNat).toUInt8 = byte := by
    apply UInt8.toNat_inj.mp
    rw [toNat_toUInt8_of_isDigit digit, code]
  rw [utf8EncodeChar_of_isDigit digit, same]

/-- The bytes of a character that is no digit do not begin with one. -/
theorem head?_utf8EncodeChar_of_not_isDigit
    {c : Char} (other : c.isDigit = false) (behind : List UInt8) :
    (String.utf8EncodeChar c ++ behind).head?.any isDigitByte = false := by
  rw [Option.any_eq_false]
  intro byte first
  rw [← Bool.not_eq_true]
  intro digitByte
  obtain ⟨rest, split⟩ := List.head?_eq_some_iff.mp first
  obtain ⟨d, digit, single⟩ := exists_digit_of_isDigitByte digitByte
  have same :
      String.utf8EncodeChar c ++ behind = String.utf8EncodeChar d ++ rest := by
    rw [split, single]
    rfl
  rw [eq_of_utf8EncodeChar_append_eq same, digit] at other
  contradiction

/-- Looking for digits among the bytes finds those among the characters. -/
theorem takeWhile_isDigitByte
    (chars : List Char) :
    (bytesOf chars).takeWhile isDigitByte =
      (chars.takeWhile Char.isDigit).map Char.toUInt8 := by
  induction chars with
  | nil =>
      rfl
  | cons c rest inductionHypothesis =>
      rw [bytesOf_cons, List.takeWhile_cons]
      by_cases digit : c.isDigit = true
      · have passed : isDigitByte c.toUInt8 = true := by
          rw [isDigitByte_iff, toNat_toUInt8_of_isDigit digit]
          exact isDigit_iff.mp digit
        rw [utf8EncodeChar_of_isDigit digit, List.singleton_append,
          List.takeWhile_cons, passed, digit]
        simp only [if_true, List.map_cons, inductionHypothesis]
      · rw [Bool.not_eq_true] at digit
        have nothing :=
          head?_utf8EncodeChar_of_not_isDigit digit (bytesOf rest)
        rw [digit]
        cases spelled : String.utf8EncodeChar c ++ bytesOf rest with
        | nil =>
            rfl
        | cons byte others =>
            rw [spelled, List.head?_cons, Option.any_some] at nothing
            rw [List.takeWhile_cons, nothing]
            rfl

private theorem toUInt64_toUInt8_sub
    {c : Char} (digit : c.isDigit = true) :
    (c.toUInt8 - 48).toUInt64 = digitValue c := by
  have code := toNat_toUInt8_of_isDigit digit
  obtain ⟨low, high⟩ := isDigit_iff.mp digit
  have above : 48 ≤ c.toUInt8 := by
    rw [UInt8.le_iff_toNat_le, code]
    exact low
  have value : (digitValue c).toNat = (c.toNat - 48) % 2 ^ 64 := by
    simp [digitValue]
  apply UInt64.toNat_inj.mp
  rw [UInt8.toNat_toUInt64, UInt8.toNat_sub_of_le _ _ above, code, value,
    Nat.mod_eq_of_lt (by omega)]
  rfl

theorem leadingValueOfBytes_bytesOf
    (text : String) :
    leadingValueOfBytes (bytesOf text.toList) = leadingValue text := by
  rw [leadingValueOfBytes, leadingValue, takeWhile_isDigitByte, extend,
    List.foldl_map]
  apply List.foldl_ext
  intro value c member
  rw [toUInt64_toUInt8_sub (List.mem_takeWhile_imp member)]

/-- What follows a run of digits does not change its value. -/
theorem leadingValue_append
    {run behind : List Char} (digits : ∀ c ∈ run, c.isDigit = true)
    (stops : behind.head?.any Char.isDigit = false) :
    leadingValue (String.ofList (run ++ behind)) = extend 0 run := by
  rw [leadingValue, String.toList_ofList,
    takeWhile_append_of_head? digits stops]

theorem leadingValue_of_run
    {run : List Char} (digits : ∀ c ∈ run, c.isDigit = true) :
    leadingValue (String.ofList run) = extend 0 run := by
  have stops : ([] : List Char).head?.any Char.isDigit = false := rfl
  have read := leadingValue_append digits stops
  rwa [List.append_nil] at read

/-- A number that is written in decimal is read back, whatever zeros stand before
it and whatever follows but another digit. -/
theorem leadingValue_of_decimal_append
    (value : UInt64) (zeros : Nat) {behind : List Char}
    (stops : behind.head?.any Char.isDigit = false) :
    leadingValue
        (String.ofList
          (List.replicate zeros '0' ++ Nat.toDigits 10 value.toNat ++ behind)) =
      value := by
  have digits :
      ∀ c ∈ List.replicate zeros '0' ++ Nat.toDigits 10 value.toNat,
        c.isDigit = true :=
    fun _ member => isDigit_of_mem_decimal member
  rw [leadingValue_append digits stops, ← leadingValue_of_run digits,
    leadingValue_of_decimal]

/-- The run of digits at the start of some characters, and what follows it. -/
theorem exists_run_of_digits
    (chars : List Char) :
    ∃ run rest, chars = run ++ rest ∧ (∀ c ∈ run, c.isDigit = true) ∧
      rest.head?.any Char.isDigit = false := by
  refine ⟨chars.takeWhile Char.isDigit, chars.dropWhile Char.isDigit,
    List.takeWhile_append_dropWhile.symm, fun _ member =>
      List.mem_takeWhile_imp member, ?_⟩
  rw [Option.any_eq_false]
  intro c first
  have stopped := List.head?_dropWhile_not Char.isDigit chars
  rw [first] at stopped
  exact stopped

private theorem recognize_digits
    {text : String} {run rest : List Char}
    (split : text.toList = run ++ rest)
    (digits : ∀ c ∈ run, c.isDigit = true)
    (stops : rest.head?.any Char.isDigit = false) :
    Recognizer.digits.recognize text =
      if run = [] then none else some (byteLength run) := by
  have matched :=
    Recognizer.digits.matchIn_of_window? (window?_whole text.toList)
  rw [Recognizer.recognize, matched, split, Recognizer.consume_digits,
    dropWhile_append_of_head? digits stops]
  cases run with
  | nil =>
      simp [stops]
  | cons c others =>
      have first := digits c List.mem_cons_self
      rw [List.cons_append, List.head?_cons, Option.any_some, if_pos first,
        if_neg (List.cons_ne_nil c others), Option.map_some, ← List.cons_append,
        byteLength_append, Nat.add_sub_cancel_right]

/-- The value of a text is that of its longest leading run of digits in base ten,
modulo `2 ^ 64`. The digits may be looked for among bytes or among characters,
and the recognizer of digits ends just behind the run, so what it matches alone
has the value of the text. A number in decimal is read back, whatever zeros stand
before it and whatever follows but another digit. -/
theorem leadingValue_of_leading_digits :
    (∀ text : String,
      (∃ run rest, text.toList = run ++ rest ∧
        (∀ c ∈ run, c.isDigit = true) ∧
        rest.head?.any Char.isDigit = false ∧
        (leadingValue text).toNat = Nat.ofDigitChars 10 run 0 % 2 ^ 64 ∧
        leadingValueOfBytes (bytesOf text.toList) = leadingValue text ∧
        Recognizer.digits.recognize text =
          if run = [] then none else some (byteLength run)) ∧
      (∀ stop, Recognizer.digits.recognize text = some stop →
        ∃ read, window? text.toList 0 stop = some read ∧
          leadingValue (String.ofList read) = leadingValue text) ∧
      (Recognizer.digits.recognize text = none → leadingValue text = 0)) ∧
    ∀ (value : UInt64) (zeros : Nat) (behind : List Char),
      behind.head?.any Char.isDigit = false →
        leadingValue
            (String.ofList
              (List.replicate zeros '0' ++ Nat.toDigits 10 value.toNat ++
                behind)) =
          value := by
  refine ⟨fun text => ?_, fun value zeros _ stops =>
    leadingValue_of_decimal_append value zeros stops⟩
  obtain ⟨run, rest, split, digits, stops⟩ := exists_run_of_digits text.toList
  have value : leadingValue text = extend 0 run := by
    rw [← String.ofList_toList (s := text), split]
    exact leadingValue_append digits stops
  have recognized := recognize_digits split digits stops
  refine ⟨⟨run, rest, split, digits, stops, ?_, leadingValueOfBytes_bytesOf text,
    recognized⟩, ?_, ?_⟩
  · rw [value, toNat_extend]
    rfl
  · intro stop found
    rw [recognized, Option.ite_none_left_eq_some, Option.some.injEq] at found
    obtain ⟨_, rfl⟩ := found
    refine ⟨run, window?_eq_some_iff.mpr ⟨[], rest, split, rfl, ?_⟩, ?_⟩
    · exact Nat.zero_add _
    · rw [value, leadingValue_of_run digits]
  · intro missing
    have empty : run = [] := by
      by_contra nonempty
      rw [recognized, if_neg nonempty] at missing
      contradiction
    rw [value, empty]
    rfl

/-- The digits of `0042é7` end before the accent. -/
theorem leadingValue_of_leading_digits_before_accent :
    ['é', '7'].head?.any Char.isDigit = false ∧
      leadingValue "0042é7" = 42 ∧
      Recognizer.digits.recognize "0042é7" = some 4 ∧
      ∃ read, window? "0042é7".toList 0 4 = some read ∧
        leadingValue (String.ofList read) = leadingValue "0042é7" := by
  obtain ⟨ofText, ofDecimal⟩ := leadingValue_of_leading_digits
  have stops : ['é', '7'].head?.any Char.isDigit = false := by decide
  have found : Recognizer.digits.recognize "0042é7" = some 4 := by
    decide +kernel
  exact ⟨stops, ofDecimal 42 2 ['é', '7'] stops, found,
    (ofText "0042é7").2.1 4 found⟩

end TextGrammar.Numeral
