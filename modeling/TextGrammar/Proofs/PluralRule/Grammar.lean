import TextGrammar.PluralRule.Recognizer
import TextGrammar.Proofs.CharClass
import TextGrammar.Proofs.Recognizer.Language

/-!
The grammar of plural rules as a language, written with unions, products and
stars. It knows neither an order of alternatives nor how far a repetition goes:

* `range` is an integer, or two of them around dots;
* `condition` is an operand, perhaps a remainder, a relation and ranges;
* `rule` is conditions with connectives between them, and blanks behind.

The main statement is `language_ruleRecognizer`: these are the words that the
tree of the recognizer describes.
-/

namespace TextGrammar.PluralRule

open scoped Computability

namespace Grammar

def oneOf (listed : List Char) : Language Char :=
  {word | ∃ c ∈ listed, word = [c]}

def blank : Language Char :=
  oneOf [' ', '\t', '\n', '\r', '\x0b', '\x0c']

def blanks : Language Char := blank∗

def digit : Language Char :=
  oneOf ['0', '1', '2', '3', '4', '5', '6', '7', '8', '9']

def digits : Language Char := digit * digit∗

/-- An integer, or two of them with dots and no blanks between them. -/
def range : Language Char :=
  blanks * digits * (1 + {"..".toList} * digits)

def remainder : Language Char :=
  blanks * {"%".toList} * (blanks * digits)

def condition : Language Char :=
  blanks * oneOf ['n', 'i', 'v', 'w', 'f', 't'] * (1 + remainder) *
    (blanks * ({"=".toList} + {"!=".toList})) *
    range * (blanks * {",".toList} * range)∗

def rule : Language Char :=
  condition * (blanks * ({"and".toList} + {"or".toList}) * condition)∗ * blanks

private theorem mem_star_oneOf_iff
    {listed word : List Char} :
    word ∈ (oneOf listed)∗ ↔ ∀ c ∈ word, c ∈ listed := by
  constructor
  · rintro ⟨singles, rfl, each⟩ c member
    rcases List.mem_flatten.mp member with ⟨single, singleMember, inside⟩
    rcases each single singleMember with ⟨d, known, rfl⟩
    rwa [List.mem_singleton.mp inside]
  · intro each
    have split : word = (word.map fun c => [c]).flatten := by
      rw [← List.flatMap_def, List.flatMap_singleton']
    refine ⟨word.map fun c => [c], split, ?_⟩
    intro single member
    rcases List.mem_map.mp member with ⟨c, inside, rfl⟩
    exact ⟨c, each c inside, rfl⟩

private theorem mem_plus_oneOf_iff
    {listed word : List Char} :
    word ∈ oneOf listed * (oneOf listed)∗ ↔
      word ≠ [] ∧ ∀ c ∈ word, c ∈ listed := by
  constructor
  · rintro ⟨_, ⟨c, known, rfl⟩, rest, member, rfl⟩
    refine ⟨List.cons_ne_nil c rest, List.forall_mem_cons.mpr ⟨known, ?_⟩⟩
    exact mem_star_oneOf_iff.mp member
  · rintro ⟨nonempty, each⟩
    cases word with
    | nil =>
        contradiction
    | cons c rest =>
        rcases List.forall_mem_cons.mp each with ⟨known, others⟩
        exact ⟨[c], ⟨c, known, rfl⟩, rest, mem_star_oneOf_iff.mpr others, rfl⟩

theorem mem_blanks_iff
    {word : List Char} :
    word ∈ blanks ↔ ∀ c ∈ word, CharClass.isBlank c = true := by
  simp only [blanks, blank, mem_star_oneOf_iff, CharClass.isBlank,
    List.contains_iff_mem]

private theorem mem_decimals_iff
    {c : Char} :
    c ∈ ['0', '1', '2', '3', '4', '5', '6', '7', '8', '9'] ↔
      c.isDigit = true := by
  simp only [List.mem_cons, List.not_mem_nil, or_false, ← Char.toNat_inj,
    Char.isDigit_iff_toNat, Char.reduceToNat]
  omega

theorem mem_digits_iff
    {word : List Char} :
    word ∈ digits ↔ word ≠ [] ∧ ∀ c ∈ word, c.isDigit = true := by
  simp only [digits, digit, mem_plus_oneOf_iff, mem_decimals_iff]

private theorem oneOf_singleton
    (c : Char) : oneOf [c] = {[c]} := by
  ext word
  constructor
  · rintro ⟨d, known, rfl⟩
    rw [List.mem_singleton.mp known]
    rfl
  · rintro rfl
    exact ⟨c, List.mem_singleton_self c, rfl⟩

private theorem oneOf_sub_one
    (listed : List Char) : oneOf listed - 1 = oneOf listed := by
  ext word
  rw [Language.mem_sub, Language.mem_one]
  constructor
  · exact And.left
  · rintro ⟨c, known, rfl⟩
    exact ⟨⟨c, known, rfl⟩, List.cons_ne_nil c []⟩

private theorem star_plus
    (language : Language Char) : (language * language∗)∗ = language∗ := by
  apply le_antisymm
  · have within : language * language∗ ≤ language∗ := mul_kstar_le_kstar
    exact (kstar_mono within).trans_eq (kstar_idem language)
  · apply kstar_mono
    have widened : language * 1 ≤ language * language∗ :=
      mul_le_mul_right one_le_kstar language
    rwa [mul_one] at widened

end Grammar

section

open TextGrammar.Recognizer (language languageOfEach languageOfAny)

theorem language_oneOf
    (listed : List Char) :
    language (.oneOf listed) = Grammar.oneOf listed := by
  rw [language]
  rfl

theorem language_ofClass
    {classes : CharClass} {listed : List Char}
    (same : ∀ c, c ∈ classes ↔ c ∈ listed) :
    language (.ofClass classes) = Grammar.oneOf listed := by
  rw [language]
  simp only [same]
  rfl

theorem language_blanks :
    language .blanks = Grammar.blanks := by
  have blank : language (.ofClass .whitespace) = Grammar.blank := by
    apply language_ofClass
    intro c
    rw [CharClass.mem_iff, CharClass.contains_whitespace,
      CharClass.isBlank, List.contains_iff_mem]
  rw [Recognizer.blanks, Recognizer.whitespace, language, language, blank,
    Grammar.blank, Grammar.oneOf_sub_one, Grammar.star_plus]
  rfl

theorem language_digits :
    language .digits = Grammar.digits := by
  have digit : language (.ofClass .digit) = Grammar.digit := by
    apply language_ofClass
    intro c
    rw [CharClass.mem_iff, CharClass.contains_digit,
      Grammar.mem_decimals_iff]
  rw [Recognizer.digits, Recognizer.digit, language, digit, Grammar.digit,
    Grammar.oneOf_sub_one]
  rfl

theorem language_token
    (r : Recognizer) :
    language (.token r) = Grammar.blanks * language r := by
  simp only [Recognizer.token, language, languageOfEach, mul_one,
    language_blanks]

theorem language_optional
    (r : Recognizer) :
    language (.optional r) = 1 + language r := by
  simp only [Recognizer.optional, Recognizer.nothing, language,
    languageOfEach, languageOfAny, add_zero]
  exact add_comm _ _

private theorem language_percent : language percent = {"%".toList} := by
  rw [percent, language_oneOf, Grammar.oneOf_singleton]
  rfl

private theorem language_comma : language comma = {",".toList} := by
  rw [comma, language_oneOf, Grammar.oneOf_singleton]
  rfl

theorem language_relation :
    language relation = {"=".toList} + {"!=".toList} := by
  rw [relation, language, languageOfAny, languageOfAny, languageOfAny,
    add_zero, language_oneOf, Grammar.oneOf_singleton, language]
  rfl

theorem language_logic :
    language logic = {"and".toList} + {"or".toList} := by
  rw [logic, language, languageOfAny, languageOfAny, languageOfAny, add_zero,
    language, language]

theorem language_rangeRecognizer :
    language rangeRecognizer = Grammar.range := by
  simp only [rangeRecognizer, dots, language, languageOfEach, mul_one,
    language_token, language_optional, language_digits]
  rfl

theorem language_conditionRecognizer :
    language conditionRecognizer = Grammar.condition := by
  simp only [conditionRecognizer, language, languageOfEach, mul_one,
    language_token, language_optional, language_digits, language_percent,
    language_relation, language_comma, language_rangeRecognizer]
  rw [operand, language_oneOf, Grammar.condition, Grammar.remainder]
  simp only [mul_assoc]
  rfl

/-- The tree of the recognizer describes the words of the grammar. -/
theorem language_ruleRecognizer :
    language ruleRecognizer = Grammar.rule := by
  simp only [ruleRecognizer, language, languageOfEach, mul_one,
    language_token, language_logic, language_conditionRecognizer,
    language_blanks]
  rw [Grammar.rule]
  simp only [mul_assoc]

end

end TextGrammar.PluralRule
