import Mathlib.Algebra.Group.Nat.Defs
import Mathlib.Data.List.TakeWhile
import TextGrammar.Numeral

/-!
The values of numerals. Reading digits one after the other gives their value in
base ten modulo `2 ^ 64`. The main statement is `leadingValue_of_decimal`: a
number that is written in decimal, with any zeros before it, is read back.
-/

namespace TextGrammar.Numeral

private theorem ofDigitChars_mod
    (digits : List Char) (number modulus : Nat) :
    Nat.ofDigitChars 10 digits (number % modulus) % modulus =
      Nat.ofDigitChars 10 digits number % modulus := by
  have shifted :=
    fun start => @Nat.ofDigitChars_eq_ofDigitChars_zero digits start
  rw [shifted (number % modulus), shifted number, Nat.add_mod, Nat.mul_mod,
    Nat.mod_mod, ← Nat.mul_mod, ← Nat.add_mod]

/-- Appending digits gives the value in base ten modulo `2 ^ 64`. -/
theorem toNat_extend
    (number : UInt64) (digits : List Char) :
    (extend number digits).toNat =
      Nat.ofDigitChars 10 digits number.toNat % 2 ^ 64 := by
  induction digits generalizing number with
  | nil =>
      exact (Nat.mod_eq_of_lt number.toNat_lt).symm
  | cons c rest inductionHypothesis =>
      have appended :
          (number * 10 + digitValue c).toNat =
            (10 * number.toNat + (c.toNat - '0'.toNat)) % 2 ^ 64 := by
        simp [digitValue, UInt64.toNat_add, UInt64.toNat_mul, Nat.mul_comm]
      have step :
          extend number (c :: rest) =
            extend (number * 10 + digitValue c) rest := rfl
      rw [step, inductionHypothesis, appended, ofDigitChars_mod,
        Nat.ofDigitChars_cons]

private theorem toNat_leadingValue
    (text : String) :
    (leadingValue text).toNat =
      Nat.ofDigitChars 10 (text.toList.takeWhile Char.isDigit) 0 % 2 ^ 64 := by
  rw [leadingValue, toNat_extend]
  rfl

theorem isDigit_of_mem_decimal
    {zeros number : Nat} {c : Char}
    (member : c ∈ List.replicate zeros '0' ++ Nat.toDigits 10 number) :
    c.isDigit = true := by
  rcases List.mem_append.mp member with padding | digit
  · rw [List.eq_of_mem_replicate padding]
    rfl
  · exact Nat.isDigit_of_mem_toDigits (by decide) (by decide) digit

/-- A number that is written in decimal is read back, whatever zeros stand
before it. -/
theorem leadingValue_of_decimal
    (value : UInt64) (zeros : Nat) :
    leadingValue
        (String.ofList
          (List.replicate zeros '0' ++ Nat.toDigits 10 value.toNat)) =
      value := by
  have small : value.toNat < 2 ^ 64 := value.toNat_lt
  have allDigits :
      (List.replicate zeros '0' ++ Nat.toDigits 10 value.toNat).takeWhile
          Char.isDigit =
        List.replicate zeros '0' ++ Nat.toDigits 10 value.toNat :=
    List.takeWhile_eq_self_iff.mpr fun _ member =>
      isDigit_of_mem_decimal member
  apply UInt64.toNat_inj.mp
  rw [toNat_leadingValue, String.toList_ofList, allDigits,
    Nat.ofDigitChars_append, Nat.ofDigitChars_replicate_zero, Nat.mul_zero,
    Nat.ofDigitChars_ten_toDigits, Nat.mod_eq_of_lt small]

end TextGrammar.Numeral
