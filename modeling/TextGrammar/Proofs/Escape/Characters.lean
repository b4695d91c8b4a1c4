import TextGrammar.Escape.Basic

/-!
The characters of escaped texts. Whatever is escaped, the result holds nothing
but kept characters and those of the escapes themselves (`mem_encode`), so a
character that is neither cannot come from a value.
-/

namespace TextGrammar.Escape

def hexadecimals : List Char :=
  ['0', '1', '2', '3', '4', '5', '6', '7', '8', '9', 'A', 'B', 'C', 'D', 'E',
    'F']

theorem hexDigit_mem
    {value : Nat} (small : value < 16) : hexDigit value ∈ hexadecimals := by
  have each : ∀ value < 16, hexDigit value ∈ hexadecimals := by decide
  exact each value small

theorem mem_hexDigits
    {c : Char} {count value : Nat} (member : c ∈ hexDigits count value) :
    c ∈ hexadecimals := by
  induction count generalizing value with
  | zero =>
      simp [hexDigits] at member
  | succ count inductionHypothesis =>
      rw [hexDigits] at member
      rcases List.mem_append.mp member with higher | last
      · exact inductionHypothesis higher
      · rw [List.mem_singleton.mp last]
        exact hexDigit_mem (Nat.mod_lt value (by decide))

private theorem mem_encodeUnit
    {kept : CharClass} {c : Char} {unit : Nat}
    (member : c ∈ encodeUnit kept unit) :
    c ∈ kept ∨ c ∈ '%' :: 'u' :: hexadecimals := by
  unfold encodeUnit at member
  split at member
  · split at member
    · rename_i keeps
      rw [List.mem_singleton.mp member]
      exact Or.inl keeps
    · rcases List.mem_cons.mp member with rfl | digit
      · exact Or.inr List.mem_cons_self
      · exact Or.inr (List.mem_cons_of_mem _
          (List.mem_cons_of_mem _ (mem_hexDigits digit)))
  · rcases List.mem_cons.mp member with rfl | wide
    · exact Or.inr List.mem_cons_self
    · refine Or.inr (List.mem_cons_of_mem _ ?_)
      rcases List.mem_cons.mp wide with rfl | digit
      · exact List.mem_cons_self
      · exact List.mem_cons_of_mem _ (mem_hexDigits digit)

/-- An escaped text holds kept characters, percent signs, the letter `u` and
hexadecimal digits only. -/
theorem mem_encode
    {kept : CharClass} {c : Char} {text : String}
    (member : c ∈ (encode kept text).toList) :
    c ∈ kept ∨ c ∈ '%' :: 'u' :: hexadecimals := by
  rw [encode, String.toList_ofList] at member
  obtain ⟨unit, _, inside⟩ := List.mem_flatMap.mp member
  exact mem_encodeUnit inside

/-- No brace opens in an escaped component. -/
theorem opening_not_mem_uriComponent
    (value : String) : '{' ∉ (uriComponent value).toList := by
  intro member
  have absent : ¬ ('{' ∈ keptInComponent ∨ '{' ∈ '%' :: 'u' :: hexadecimals) := by
    decide
  exact absent (mem_encode member)

end TextGrammar.Escape
