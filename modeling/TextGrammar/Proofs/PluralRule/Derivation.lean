import TextGrammar.Proofs.PluralRule.Agreement
import TextGrammar.Proofs.PluralRule.Reading

/-!
The recognizer of rules decides its grammar. A word that it consumes is always a
word of the grammar. Conversely a word of the grammar is the text of a rule,
which the parser reads to its end, and the recognizer stops where the parser
does. The main statement is `recognize_eq_some_iff_mem_rule`.
-/

namespace TextGrammar.PluralRule

/-- A rule is recognized as a whole just if nothing is left of it. -/
theorem recognize_eq_some_iff_consume
    (rule : String) :
    ruleRecognizer.recognize rule = some (byteLength rule.toList) ↔
      ruleRecognizer.consume rule.toList = some [] := by
  rw [recognize_eq_map]
  constructor
  · intro whole
    obtain ⟨rest, consumed, atEnd⟩ := Option.map_eq_some_iff.mp whole
    have shorter := byteLength_le_of_suffix
      (ruleRecognizer.suffix_of_consume rule.toList rest consumed)
    have nothing : rest = [] := byteLength_eq_zero_iff.mp (by omega)
    rw [consumed, nothing]
  · intro consumed
    rw [consumed, Option.map_some, byteLength_nil, Nat.sub_zero]

theorem mem_rule_of_consume
    {word : List Char} (consumed : ruleRecognizer.consume word = some []) :
    word ∈ Grammar.rule := by
  rw [← language_ruleRecognizer]
  apply ruleRecognizer.mem_language_of_consume word []
  rwa [List.append_nil]

/-- No greedy step takes anything that the derivation of a rule needs later. -/
theorem consume_of_mem_rule
    {word : List Char} (member : word ∈ Grammar.rule) :
    ruleRecognizer.consume word = some [] := by
  obtain ⟨rule, member⟩ := mem_rule_iff.mp member
  have readable : (Slice.ofString (String.ofList word)).chars? =
      some (word ++ []) := by
    rw [Slice.chars?_ofString, String.toList_ofList, List.append_nil]
  obtain ⟨tree, parsed, _⟩ :=
    reads_ruleParser rule word member _ [] readable rfl
  cases consumed : ruleRecognizer.consume (word ++ []) with
  | none =>
      rw [follows_ruleParser.of_none readable consumed] at parsed
      contradiction
  | some rest =>
      obtain ⟨read, _, split, _, parsedRest⟩ :=
        follows_ruleParser.of_some readable consumed
      rw [parsedRest, Outcome.matched.injEq] at parsed
      have nothing : byteLength rest = 0 := by
        rw [← Slice.size_leaving (readable.trans (congrArg some split)),
          parsed.2, Slice.size_leaving readable, byteLength_nil]
      rw [← byteLength_eq_zero_iff.mp nothing, ← consumed, List.append_nil]

/-- The recognizer takes a rule as a whole just if the rule has a derivation in
the grammar. -/
theorem recognize_eq_some_iff_mem_rule
    (rule : String) :
    ruleRecognizer.recognize rule = some (byteLength rule.toList) ↔
      rule.toList ∈ Grammar.rule := by
  rw [recognize_eq_some_iff_consume]
  exact ⟨mem_rule_of_consume, consume_of_mem_rule⟩

end TextGrammar.PluralRule
