import Mathlib.Order.CompletePartialOrder
import TextGrammar.Proofs.Numeral
import TextGrammar.Proofs.PluralRule.Grammar
import TextGrammar.Proofs.PluralRule.Tree

/-!
The texts in which rules are written. Blanks may stand before every token except
around dots, and a number may be written in different ways, which `Numerals`
collects. The main statement is `mem_rule_iff`: the words of the grammar
are just the texts of rules, if numbers may be written by all digits that are
read as them.
-/

namespace TextGrammar.PluralRule

open scoped Computability

/-- Ways of writing numbers: words of digits for each of them, all of which are
read as the number. -/
structure Numerals where
  words : UInt64 → Language Char
  mem_digits : ∀ {value word}, word ∈ words value → word ∈ Grammar.digits
  leadingValue_eq : ∀ {value word}, word ∈ words value →
    Numeral.leadingValue (String.ofList word) = value

namespace Numerals

def decimal : Numerals where
  words value :=
    {word | ∃ zeros,
      word = List.replicate zeros '0' ++ Nat.toDigits 10 value.toNat}
  mem_digits := by
    rintro value word ⟨zeros, rfl⟩
    apply Grammar.mem_digits_iff.mpr
    refine ⟨?_, fun c member => Numeral.isDigit_of_mem_decimal member⟩
    exact List.append_ne_nil_of_right_ne_nil _ Nat.toDigits_ne_nil
  leadingValue_eq := by
    rintro value word ⟨zeros, rfl⟩
    exact Numeral.leadingValue_of_decimal value zeros

/-- All words of digits, for the number that they are read as. -/
def modular : Numerals where
  words value :=
    {word | word ∈ Grammar.digits ∧
      Numeral.leadingValue (String.ofList word) = value}
  mem_digits := And.left
  leadingValue_eq := And.right

end Numerals

section

variable (numerals : Numerals)

def Span.texts : Span → Language Char
  | single value => Grammar.blanks * numerals.words value
  | between low high =>
      Grammar.blanks * numerals.words low *
        ({"..".toList} * numerals.words high)

def remainderTexts : Option UInt64 → Language Char
  | none => 1
  | some value =>
      Grammar.blanks * {"%".toList} * (Grammar.blanks * numerals.words value)

def Condition.texts (condition : Condition) : Language Char :=
  Grammar.blanks * {[condition.operand]} *
    remainderTexts numerals condition.modulus *
    (Grammar.blanks * {condition.relation.word.toList}) *
    condition.first.texts numerals *
    (condition.others.map fun span =>
      Grammar.blanks * {",".toList} * span.texts numerals).prod

def furtherTexts (further : Connective × Condition) : Language Char :=
  Grammar.blanks * {further.1.word.toList} * further.2.texts numerals

/-- All texts in which a rule is written, with any blanks at the end. -/
def Rule.texts (rule : Rule) : Language Char :=
  rule.first.texts numerals *
    (rule.further.map (furtherTexts numerals)).prod * Grammar.blanks

end

section

variable {numerals : Numerals}

theorem Numerals.words_le_digits
    (value : UInt64) : numerals.words value ≤ Grammar.digits :=
  fun _ member => numerals.mem_digits member

theorem Span.texts_le_range
    (span : Span) : span.texts numerals ≤ Grammar.range := by
  cases span with
  | single value =>
      rw [Span.texts, Grammar.range, mul_add, mul_one]
      apply le_add_of_le_left
      gcongr
      exact numerals.words_le_digits value
  | between low high =>
      rw [Span.texts, Grammar.range]
      gcongr
      · exact numerals.words_le_digits low
      · apply le_add_of_le_right
        gcongr
        exact numerals.words_le_digits high

private theorem remainderTexts_le
    (modulus : Option UInt64) :
    remainderTexts numerals modulus ≤ 1 + Grammar.remainder := by
  cases modulus with
  | none =>
      exact le_self_add
  | some value =>
      apply le_add_of_le_right
      rw [remainderTexts, Grammar.remainder]
      gcongr
      exact numerals.words_le_digits value

private theorem prod_le_kstar
    {ι : Type} {language : Language Char} {item : ι → Language Char}
    (within : ∀ i, item i ≤ language) (items : List ι) :
    (items.map item).prod ≤ language∗ := by
  induction items with
  | nil =>
      exact one_le_kstar
  | cons i items inductionHypothesis =>
      rw [List.map_cons, List.prod_cons]
      exact (mul_le_mul' (within i) inductionHypothesis).trans
        mul_kstar_le_kstar

private theorem Relation.word_le
    (relation : Relation) :
    ({relation.word.toList} : Language Char) ≤
      {"=".toList} + {"!=".toList} := by
  cases relation with
  | equal =>
      exact le_self_add
  | unequal =>
      exact le_add_self

private theorem Connective.word_le
    (connective : Connective) :
    ({connective.word.toList} : Language Char) ≤
      {"and".toList} + {"or".toList} := by
  cases connective with
  | both =>
      exact le_self_add
  | either =>
      exact le_add_self

theorem Condition.texts_le_condition
    (condition : Condition) :
    condition.texts numerals ≤ Grammar.condition := by
  have operand :
      ({[condition.operand]} : Language Char) ≤
        Grammar.oneOf ['n', 'i', 'v', 'w', 'f', 't'] := by
    rintro _ rfl
    exact ⟨condition.operand, condition.operand_mem, rfl⟩
  rw [Condition.texts, Grammar.condition]
  gcongr
  · exact remainderTexts_le condition.modulus
  · exact condition.relation.word_le
  · exact condition.first.texts_le_range
  · apply prod_le_kstar
    intro span
    gcongr
    exact span.texts_le_range

/-- Every text of a rule is a word of the grammar. -/
theorem Rule.texts_le_rule
    (rule : Rule) : rule.texts numerals ≤ Grammar.rule := by
  rw [Rule.texts, Grammar.rule]
  gcongr
  · exact rule.first.texts_le_condition
  · apply prod_le_kstar
    rintro ⟨connective, condition⟩
    rw [furtherTexts]
    gcongr
    · exact connective.word_le
    · exact condition.texts_le_condition

end

/-- Every word of digits is read as some number. -/
theorem Numerals.exists_mem_words
    {word : List Char} (member : word ∈ Grammar.digits) :
    ∃ value, word ∈ modular.words value :=
  ⟨_, member, rfl⟩

private theorem exists_mem_prod_of_mem_kstar
    {ι : Type} {language : Language Char} {item : ι → Language Char}
    (covered : ∀ word ∈ language, ∃ i, word ∈ item i)
    {word : List Char} (member : word ∈ language∗) :
    ∃ items : List ι, word ∈ (items.map item).prod := by
  rcases member with ⟨words, rfl, each⟩
  induction words with
  | nil =>
      exact ⟨[], Language.nil_mem_one⟩
  | cons first words inductionHypothesis =>
      rcases List.forall_mem_cons.mp each with ⟨firstMember, members⟩
      obtain ⟨i, firstItem⟩ := covered first firstMember
      obtain ⟨items, others⟩ := inductionHypothesis members
      exact ⟨i :: items, Language.append_mem_mul firstItem others⟩

private theorem exists_span_of_mem_range
    {word : List Char} (member : word ∈ Grammar.range) :
    ∃ span : Span, word ∈ span.texts .modular := by
  obtain ⟨_, ⟨spaces, spacesMember, low, lowMember, rfl⟩, upper,
    upperMember, rfl⟩ := member
  obtain ⟨lowValue, lowMember⟩ := Numerals.exists_mem_words lowMember
  have opening := Language.append_mem_mul spacesMember lowMember
  rcases upperMember with absent | ⟨dots, dotsMember, high, highMember, rfl⟩
  · obtain rfl := (Language.mem_one upper).mp absent
    refine ⟨.single lowValue, ?_⟩
    show (spaces ++ low) ++ [] ∈ Span.texts .modular (.single lowValue)
    rw [List.append_nil]
    exact opening
  · obtain ⟨highValue, highMember⟩ := Numerals.exists_mem_words highMember
    exact ⟨.between lowValue highValue, Language.append_mem_mul opening
      (Language.append_mem_mul dotsMember highMember)⟩

private theorem exists_modulus_of_mem
    {word : List Char} (member : word ∈ 1 + Grammar.remainder) :
    ∃ modulus, word ∈ remainderTexts .modular modulus := by
  rcases member with absent | ⟨sign, signMember, _,
    ⟨spaces, spacesMember, number, numberMember, rfl⟩, rfl⟩
  · exact ⟨none, absent⟩
  · obtain ⟨value, numberMember⟩ := Numerals.exists_mem_words numberMember
    exact ⟨some value, Language.append_mem_mul signMember
      (Language.append_mem_mul spacesMember numberMember)⟩

theorem exists_relation_of_mem
    {word : List Char}
    (member : word ∈ ({"=".toList} + {"!=".toList} : Language Char)) :
    ∃ relation : Relation, word = relation.word.toList := by
  rcases member with equal | unequal
  · exact ⟨.equal, equal⟩
  · exact ⟨.unequal, unequal⟩

theorem exists_connective_of_mem
    {word : List Char}
    (member : word ∈ ({"and".toList} + {"or".toList} : Language Char)) :
    ∃ connective : Connective, word = connective.word.toList := by
  rcases member with both | either
  · exact ⟨.both, both⟩
  · exact ⟨.either, either⟩

private theorem exists_further_span_of_mem
    {word : List Char}
    (member : word ∈ Grammar.blanks * {",".toList} * Grammar.range) :
    ∃ span : Span,
      word ∈ Grammar.blanks * {",".toList} * span.texts .modular := by
  obtain ⟨comma, commaMember, range, rangeMember, rfl⟩ := member
  obtain ⟨span, spanMember⟩ := exists_span_of_mem_range rangeMember
  exact ⟨span, Language.append_mem_mul commaMember spanMember⟩

private theorem exists_condition_of_mem
    {word : List Char} (member : word ∈ Grammar.condition) :
    ∃ condition : Condition, word ∈ condition.texts .modular := by
  obtain ⟨_, ⟨_, ⟨_, ⟨_, ⟨spaces, spacesMember, _, ⟨operand, known, rfl⟩, rfl⟩,
    remainder, remainderMember, rfl⟩, _,
    ⟨gap, gapMember, sign, signMember, rfl⟩, rfl⟩, range, rangeMember, rfl⟩,
    further, furtherMember, rfl⟩ := member
  obtain ⟨modulus, modulusMember⟩ := exists_modulus_of_mem remainderMember
  obtain ⟨relation, rfl⟩ := exists_relation_of_mem signMember
  obtain ⟨first, firstMember⟩ := exists_span_of_mem_range rangeMember
  obtain ⟨others, othersMember⟩ :=
    exists_mem_prod_of_mem_kstar (fun _ => exists_further_span_of_mem)
      furtherMember
  refine ⟨⟨operand, known, modulus, relation, first, others⟩, ?_⟩
  have opening := Language.append_mem_mul
    (Language.append_mem_mul spacesMember (Set.mem_singleton [operand]))
    modulusMember
  have compared := Language.append_mem_mul opening
    (Language.append_mem_mul gapMember
      (Set.mem_singleton relation.word.toList))
  exact Language.append_mem_mul
    (Language.append_mem_mul compared firstMember) othersMember

private theorem exists_further_of_mem
    {word : List Char}
    (member : word ∈ Grammar.blanks * ({"and".toList} + {"or".toList}) *
      Grammar.condition) :
    ∃ further, word ∈ furtherTexts .modular further := by
  obtain ⟨_, ⟨spaces, spacesMember, logic, logicMember, rfl⟩, next, nextMember,
    rfl⟩ := member
  obtain ⟨connective, rfl⟩ := exists_connective_of_mem logicMember
  obtain ⟨condition, conditionMember⟩ := exists_condition_of_mem nextMember
  exact ⟨(connective, condition), Language.append_mem_mul
    (Language.append_mem_mul spacesMember
      (Set.mem_singleton connective.word.toList))
    conditionMember⟩

/-- The words of the grammar are just the texts of rules. -/
theorem mem_rule_iff
    {word : List Char} :
    word ∈ Grammar.rule ↔ ∃ rule : Rule, word ∈ rule.texts .modular := by
  constructor
  · rintro ⟨_, ⟨condition, conditionMember, further, furtherMember, rfl⟩,
      spaces, spacesMember, rfl⟩
    obtain ⟨first, firstMember⟩ := exists_condition_of_mem conditionMember
    obtain ⟨others, othersMember⟩ :=
      exists_mem_prod_of_mem_kstar (fun _ => exists_further_of_mem)
        furtherMember
    exact ⟨⟨first, others⟩, Language.append_mem_mul
      (Language.append_mem_mul firstMember othersMember) spacesMember⟩
  · rintro ⟨rule, member⟩
    exact rule.texts_le_rule member

end TextGrammar.PluralRule
