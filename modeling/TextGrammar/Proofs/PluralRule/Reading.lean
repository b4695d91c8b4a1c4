import TextGrammar.Proofs.Parser.Reading
import TextGrammar.Proofs.PluralRule.Agreement
import TextGrammar.Proofs.PluralRule.Writing
import TextGrammar.Proofs.Recognizer.Runs

/-!
The parser of each phrase reads the texts of the phrase. No repetition and no
optional part takes characters that a later token needs: a number ends where no
digit follows, and what stands behind the blanks after a phrase tells whether
the phrase goes on. The main statement is `reads_ruleParser`.
-/

namespace TextGrammar.PluralRule

open scoped Computability
open TextGrammar.Parser (Reads Declines Tracks)

/-- No digit follows, so a run of digits ends. -/
def EndsDigits (rest : List Char) : Prop :=
  rest.head?.any Char.isDigit = false

def EndsRange (rest : List Char) : Prop :=
  EndsDigits rest ∧ rest.head? ≠ some '.'

/-- The first character behind any blanks. -/
def visible? (chars : List Char) : Option Char :=
  (chars.dropWhile CharClass.isBlank).head?

/-- A range ends and no comma follows, so a condition ends. -/
def EndsCondition (rest : List Char) : Prop :=
  EndsRange rest ∧ visible? rest ≠ some ','

def EndsRemainder (rest : List Char) : Prop :=
  EndsDigits rest ∧ visible? rest ≠ some '%'

def Opens (c : Char) (chars : List Char) : Prop :=
  ∃ spaces ∈ Grammar.blanks, ∃ more, chars = spaces ++ c :: more

namespace Opens

variable {c : Char} {chars : List Char}

theorem append
    (opens : Opens c chars) (rest : List Char) : Opens c (chars ++ rest) := by
  rcases opens with ⟨spaces, member, more, rfl⟩
  exact ⟨spaces, member, more ++ rest, by simp⟩

theorem ne_nil
    (opens : Opens c chars) : chars ≠ [] := by
  rcases opens with ⟨spaces, _, more, rfl⟩
  exact List.append_ne_nil_of_right_ne_nil spaces (List.cons_ne_nil c more)

theorem of_mem_blanks_mul
    {token tail : List Char} (member : chars ∈ Grammar.blanks * {token})
    (begins : token = c :: tail) : Opens c chars := by
  rcases member with ⟨spaces, spacesMember, _, rfl, rfl⟩
  exact ⟨spaces, spacesMember, tail, by rw [begins]⟩

theorem dropWhile
    (opens : Opens c chars) (notBlank : CharClass.isBlank c = false) :
    ∃ more, chars.dropWhile CharClass.isBlank = c :: more := by
  rcases opens with ⟨spaces, member, more, rfl⟩
  refine ⟨more, dropWhile_append_of_head? (Grammar.mem_blanks_iff.mp member) ?_⟩
  rw [List.head?_cons, Option.any_some, notBlank]

private theorem visible?_eq
    (opens : Opens c chars) (notBlank : CharClass.isBlank c = false) :
    visible? chars = some c := by
  obtain ⟨more, dropped⟩ := opens.dropWhile notBlank
  rw [visible?, dropped, List.head?_cons]

/-- Neither blanks nor the character go on with a range. -/
theorem endsRange
    (opens : Opens c chars) (notDigit : c.isDigit = false)
    (notDot : c ≠ '.') : EndsRange chars := by
  rcases opens with ⟨spaces, member, more, rfl⟩
  cases spaces with
  | nil =>
      exact ⟨notDigit, by simpa using notDot⟩
  | cons space spaces =>
      have blank :=
        Grammar.mem_blanks_iff.mp member space List.mem_cons_self
      refine ⟨CharClass.isDigit_eq_false_of_isBlank blank, ?_⟩
      rintro ⟨⟩
      contradiction

end Opens

abbrev Anything (_ : List Char) : Prop := True

def HasText (words : Language Char) (text : Slice) : Prop :=
  ∃ word ∈ words, text.chars? = some word

/-- The parser of a recognizer reads the words that the recognizer consumes. -/
theorem reads_ofRecognizer
    {r : Recognizer} {words : Language Char} {allowed : List Char → Prop}
    (consumes : ∀ word ∈ words, ∀ rest, allowed rest →
      r.consume (word ++ rest) = some rest) :
    (Parser.ofRecognizer r).Reads words allowed (HasText words) :=
  (Tracks.ofRecognizer r).reads consumes fun word member _ readable =>
    ⟨word, member, readable⟩

theorem reads_blanks :
    Parser.blanks.Reads Grammar.blanks
      (fun rest => rest.head?.any CharClass.isBlank = false)
      (HasText Grammar.blanks) := by
  apply reads_ofRecognizer
  intro word member rest stops
  rw [Recognizer.consume_blanks,
    dropWhile_append_of_head? (Grammar.mem_blanks_iff.mp member) stops]

/-- A token is read behind blanks, of which it must not begin with one. -/
theorem reads_token
    {r : Recognizer} {words : Language Char} {allowed : List Char → Prop}
    (begins : ∀ word ∈ words, ∃ c tail,
      word = c :: tail ∧ CharClass.isBlank c = false)
    (consumes : ∀ word ∈ words, ∀ rest, allowed rest →
      r.consume (word ++ rest) = some rest) :
    (Parser.token r).Reads (Grammar.blanks * words) allowed (HasText words) := by
  apply reads_blanks.seqRight (reads_ofRecognizer consumes)
  intro word member rest _
  obtain ⟨c, tail, rfl, notBlank⟩ := begins word member
  exact notBlank

/-- The parser of a token declines where its recognizer rejects the first
character behind the blanks. -/
theorem declines_token
    {r : Recognizer} {opening : List Char → Prop}
    (rejects : ∀ chars, opening chars →
      Recognizer.verdict (visible? chars) r = .rejects) :
    (Parser.token r).Declines opening := by
  apply (Tracks.token r).declines
  intro chars opens
  rw [Recognizer.consume_token]
  exact r.consume_eq_none_of_rejects (rejects chars opens)

private theorem verdict_oneOf_singleton
    {c : Char} {next : Option Char} (different : next ≠ some c) :
    Recognizer.verdict next (.oneOf [c]) = .rejects := by
  cases next with
  | none =>
      rfl
  | some d =>
      have absent : d ≠ c := fun same => different (by rw [same])
      simp [Recognizer.verdict, Verdict.ofBool, absent]

private theorem verdict_literal_cons
    {word : String} {c : Char} {tail : List Char} {next : Option Char}
    (spelled : word.toList = c :: tail) (different : next ≠ some c) :
    Recognizer.verdict next (.literal word) = .rejects := by
  have unequal : (next == some c) = false := beq_eq_false_iff_ne.mpr different
  simp only [Recognizer.verdict, spelled, unequal, Verdict.ofBool]

private theorem reads_textParser
    {r : Recognizer} {word : String} (tag : Tag)
    (begins : ∃ c tail, word.toList = c :: tail ∧ CharClass.isBlank c = false)
    (consumes : ∀ rest, r.consume (word.toList ++ rest) = some rest) :
    (textParser tag r).Reads (Grammar.blanks * {word.toList}) Anything
      (HasWord tag word) := by
  have read :
      (Parser.token r).Reads (Grammar.blanks * {word.toList}) Anything
        (HasText {word.toList}) := by
    apply reads_token
    · rintro _ rfl
      exact begins
    · rintro _ rfl rest _
      exact consumes rest
  apply read.map
  rintro text ⟨_, rfl, readable⟩
  exact ⟨text, rfl, readable⟩

section

variable {numerals : Numerals} {value : UInt64}

private theorem consume_digits_append
    {word rest : List Char} (member : word ∈ numerals.words value)
    (ends : EndsDigits rest) :
    Recognizer.digits.consume (word ++ rest) = some rest := by
  obtain ⟨nonempty, allDigits⟩ :=
    Grammar.mem_digits_iff.mp (numerals.mem_digits member)
  cases word with
  | nil =>
      contradiction
  | cons c tail =>
      have first := allDigits c List.mem_cons_self
      rw [Recognizer.consume_digits, dropWhile_append_of_head? allDigits ends]
      exact if_pos first

/-- The digits of a number become an atom of the number. -/
theorem reads_integerAtom
    (tag : Tag) {p : Parser Slice} {words : Language Char}
    {allowed : List Char → Prop}
    (reads : p.Reads words allowed (HasText (numerals.words value))) :
    (do
      let digits ← p
      Parser.ofExcept (integerAtom tag digits)).Reads words allowed
      (Node.atom tag (.integer value) = ·) := by
  apply reads.bind_one
  rintro digits ⟨word, member, readable⟩
  have computed :
      integerAtom tag digits = .ok (.atom tag (.integer value)) := by
    rw [integerAtom, Slice.text_of_chars? readable,
      ← numerals.leadingValue_eq member]
    rfl
  rw [computed]
  exact Reads.pure rfl

private theorem reads_token_digits
    (tag : Tag) :
    (do
      let digits ← Parser.token .digits
      Parser.ofExcept (integerAtom tag digits)).Reads
      (Grammar.blanks * numerals.words value) EndsDigits
      (Node.atom tag (.integer value) = ·) := by
  apply reads_integerAtom
  apply reads_token
  · intro word member
    obtain ⟨nonempty, allDigits⟩ :=
      Grammar.mem_digits_iff.mp (numerals.mem_digits member)
    obtain ⟨c, tail, rfl⟩ := List.exists_cons_of_ne_nil nonempty
    refine ⟨c, tail, rfl, Bool.eq_false_iff.mpr fun blank => ?_⟩
    have digit := allDigits c List.mem_cons_self
    rw [CharClass.isDigit_eq_false_of_isBlank blank] at digit
    contradiction
  · intro word member rest ends
    exact consume_digits_append member ends

theorem reads_integerParser :
    integerParser.Reads (Grammar.blanks * numerals.words value) EndsDigits
      (Node.atom .integer (.integer value) = ·) :=
  reads_token_digits .integer

private theorem reads_modulusParser :
    modulusParser.Reads
      (Grammar.blanks * {"%".toList} * (Grammar.blanks * numerals.words value))
      EndsDigits (Node.atom .modulus (.integer value) = ·) := by
  have sign :
      (Parser.token percent).Reads (Grammar.blanks * {"%".toList}) Anything
        (HasText {"%".toList}) := by
    apply reads_token
    · rintro _ rfl
      exact ⟨'%', [], rfl, rfl⟩
    · rintro _ rfl rest _
      rfl
  exact sign.bind (fun _ _ => reads_token_digits .modulus)
    fun _ _ _ _ => trivial

private theorem declines_modulusParser :
    modulusParser.Declines fun chars => visible? chars ≠ some '%' := by
  apply Declines.bind
  apply declines_token
  intro chars different
  exact verdict_oneOf_singleton different

private theorem reads_upperParser :
    upperParser.Reads ({"..".toList} * numerals.words value) EndsDigits
      (Node.atom .integer (.integer value) = ·) := by
  have dotsRead :
      (Parser.ofRecognizer dots).Reads {"..".toList} Anything
        (HasText {"..".toList}) := by
    apply reads_ofRecognizer
    rintro _ rfl rest _
    rfl
  apply dotsRead.bind
  · intro _ _
    apply reads_integerAtom
    apply reads_ofRecognizer
    intro word member rest ends
    exact consume_digits_append member ends
  · intro _ _ _ _
    trivial

private theorem declines_upperParser :
    upperParser.Declines fun chars => chars.head? ≠ some '.' := by
  apply Declines.bind
  apply (Tracks.ofRecognizer dots).declines
  intro chars different
  exact dots.consume_eq_none_of_rejects (verdict_literal_cons rfl different)

/-- Behind the first number a range goes on just if dots follow. -/
theorem reads_rangeParser
    (span : Span) :
    rangeParser.Reads (span.texts numerals) EndsRange (span.tree = ·) := by
  cases span with
  | single value =>
      have alone :
          (optional upperParser).Reads 1 EndsRange (none = ·) :=
        (Reads.absent declines_upperParser rfl).weaken
          (fun _ ends => ends.2) fun _ => id
      rw [Span.texts, ← mul_one (Grammar.blanks * numerals.words value)]
      apply reads_integerParser.bind
      · rintro _ rfl
        apply alone.bind_one
        rintro _ rfl
        exact Reads.pure rfl
      · rintro _ rfl rest ends
        exact ends.1
  | between low high =>
      have upper :
          (optional upperParser).Reads ({"..".toList} * numerals.words high)
            EndsRange (some (Node.atom .integer (.integer high)) = ·) := by
        apply Reads.present
        · exact reads_upperParser.weaken (fun _ ends => ends.1) fun _ => id
        · rintro _ rfl
          rfl
      rw [Span.texts]
      apply reads_integerParser.bind
      · rintro _ rfl
        apply upper.bind_one
        rintro _ rfl
        exact Reads.pure rfl
      · rintro _ ⟨_, rfl, digits, _, rfl⟩ rest _
        rfl

private theorem reads_token_comma :
    (Parser.token comma).Reads (Grammar.blanks * {",".toList}) Anything
      (HasText {",".toList}) := by
  apply reads_token
  · rintro _ rfl
    exact ⟨',', [], rfl, rfl⟩
  · rintro _ rfl rest _
    rfl

private theorem opens_of_mem_further_span
    {span : Span} {word : List Char}
    (member : word ∈ Grammar.blanks * {",".toList} * span.texts numerals) :
    Opens ',' word := by
  rcases member with ⟨comma, commaMember, range, _, rfl⟩
  exact (Opens.of_mem_blanks_mul commaMember rfl).append range

private theorem declines_token_comma :
    (Parser.token comma *> rangeParser).Declines EndsCondition := by
  rw [seqRight_eq_bind]
  apply Declines.bind
  apply declines_token
  intro chars ends
  exact verdict_oneOf_singleton ends.2

/-- The list of ranges goes on just if a comma stands behind the blanks. -/
theorem reads_rangesParser
    (first : Span) (others : List Span) :
    rangesParser.Reads
      (first.texts numerals *
        (others.map fun span =>
          Grammar.blanks * {",".toList} * span.texts numerals).prod)
      EndsCondition
      (Node.branch .ranges ((first :: others).map Span.tree) = ·) := by
  have read :
      (rangeParser.sepBy (Parser.token comma)).Reads
        (first.texts numerals *
          (others.map fun span =>
            Grammar.blanks * {",".toList} * span.texts numerals).prod)
        EndsCondition
        (List.Forall₂ (fun span node => span.tree = node) (first :: others)) := by
    apply Reads.sepBy reads_rangeParser reads_token_comma
    · intro _ _ _ _ _
      trivial
    · intro span empty
      exact (opens_of_mem_further_span empty).ne_nil rfl
    · intro span word member rest
      exact ((opens_of_mem_further_span member).append rest).endsRange rfl
        (by decide)
    · intro rest ends
      exact ends.1
    · exact declines_token_comma
  apply read.map
  intro nodes shown
  rw [← List.forall₂_map_left_iff, List.forall₂_eq_eq_eq] at shown
  rw [shown]

/-! ## Conditions -/

private theorem reads_relation
    (relation : Relation) :
    (textParser .relation PluralRule.relation).Reads
      (Grammar.blanks * {relation.word.toList}) Anything
      (HasWord .relation relation.word) := by
  cases relation with
  | equal =>
      exact reads_textParser .relation ⟨'=', [], rfl, rfl⟩ fun _ => rfl
  | unequal =>
      exact reads_textParser .relation ⟨'!', ['='], rfl, rfl⟩ fun _ => rfl

private theorem opens_of_mem_relation
    {relation : Relation} {word : List Char}
    (member : word ∈ Grammar.blanks * {relation.word.toList}) :
    ∃ c ∈ ['=', '!'], Opens c word := by
  cases relation with
  | equal =>
      exact ⟨'=', by decide, Opens.of_mem_blanks_mul member rfl⟩
  | unequal =>
      exact ⟨'!', by decide, Opens.of_mem_blanks_mul member rfl⟩

/-- A relation ends the remainder before it. -/
theorem endsRemainder_append
    {relation : Relation} {word : List Char}
    (member : word ∈ Grammar.blanks * {relation.word.toList})
    (rest : List Char) :
    EndsRemainder (word ++ rest) := by
  have signs : ∀ c ∈ ['=', '!'], CharClass.isBlank c = false ∧
      c.isDigit = false ∧ c ≠ '.' ∧ c ≠ '%' := by
    simp [CharClass.isBlank]
  obtain ⟨c, known, opens⟩ := opens_of_mem_relation member
  obtain ⟨notBlank, notDigit, notDot, notPercent⟩ := signs c known
  have opens := opens.append rest
  refine ⟨(opens.endsRange notDigit notDot).1, ?_⟩
  rw [opens.visible?_eq notBlank]
  simpa using notPercent

private theorem reads_remainder
    (modulus : Option UInt64) :
    (optional modulusParser).Reads (remainderTexts numerals modulus)
      EndsRemainder (fun found => found.toList = modulusTrees modulus) := by
  cases modulus with
  | none =>
      exact (Reads.absent declines_modulusParser rfl).weaken
        (fun _ ends => ends.2) (by rintro _ rfl; rfl)
  | some value =>
      apply Reads.present
      · exact reads_modulusParser.weaken (fun _ ends => ends.1) fun _ => id
      · rintro _ rfl
        rfl

/-- The children of a condition, of which the remainder may be absent. -/
theorem build_condition
    (left sign right : Node Tag) (modulus : Option (Node Tag)) :
    (({ tag := .condition } : Node.Builder Tag).add left |>.addIfPresent modulus
      |>.add sign |>.add right |>.build) =
      .branch .condition ([left] ++ modulus.toList ++ [sign, right]) := by
  cases modulus with
  | none =>
      rfl
  | some node =>
      rfl

private theorem reads_operand
    {c : Char} (known : c ∈ operands) :
    (textParser .operand operand).Reads (Grammar.blanks * {[c]}) Anything
      (HasWord .operand (String.singleton c)) := by
  have notBlank : ∀ c ∈ operands, CharClass.isBlank c = false := by
    simp [operands, CharClass.isBlank]
  rw [← String.toList_singleton c]
  apply reads_textParser
  · exact ⟨c, [], String.toList_singleton c, notBlank c known⟩
  · intro rest
    rw [String.toList_singleton, operand, Recognizer.consume,
      afterChar?_eq_some_iff]
    exact ⟨c, List.contains_iff_mem.mpr known, rfl⟩

theorem reads_conditionParser
    (condition : Condition) :
    conditionParser.Reads (condition.texts numerals) EndsCondition
      condition.ShownBy := by
  have grouped :
      condition.texts numerals =
        Grammar.blanks * {[condition.operand]} *
          (remainderTexts numerals condition.modulus *
            (Grammar.blanks * {condition.relation.word.toList} *
              (condition.first.texts numerals *
                (condition.others.map fun span =>
                  Grammar.blanks * {",".toList} *
                    span.texts numerals).prod))) := by
    simp only [Condition.texts, mul_assoc]
  rw [grouped]
  apply (reads_operand condition.operand_mem).bind
  · intro left leftShown
    apply (reads_remainder condition.modulus).bind
    · intro modulus modulusShown
      apply (reads_relation condition.relation).bind
      · intro sign signShown
        apply (reads_rangesParser condition.first condition.others).bind_one
        rintro _ rfl
        apply Reads.pure
        rw [build_condition, modulusShown]
        exact ⟨left, sign, leftShown, signShown, rfl⟩
      · intro _ _ _ _
        trivial
    · rintro _ ⟨word, member, more, _, rfl⟩ rest _
      rw [List.append_assoc]
      exact endsRemainder_append member (more ++ rest)
  · intro _ _ _ _
    trivial

private theorem reads_logic
    (connective : Connective) :
    (textParser .logic logic).Reads
      (Grammar.blanks * {connective.word.toList}) Anything
      (HasWord .logic connective.word) := by
  cases connective with
  | both =>
      exact reads_textParser .logic ⟨'a', ['n', 'd'], rfl, rfl⟩ fun _ => rfl
  | either =>
      exact reads_textParser .logic ⟨'o', ['r'], rfl, rfl⟩ fun _ => rfl

private theorem reads_furtherParser
    (further : Connective × Condition) :
    furtherParser.Reads (furtherTexts numerals further) EndsCondition
      (ShownByPair further) := by
  apply (reads_logic further.1).bind
  · intro connective connectiveShown
    apply (reads_conditionParser further.2).bind_one
    intro next nextShown
    exact Reads.pure ⟨connective, next, connectiveShown, nextShown, rfl⟩
  · intro _ _ _ _
    trivial

private theorem opens_of_mem_logic
    {connective : Connective} {word : List Char}
    (member : word ∈ Grammar.blanks * {connective.word.toList}) :
    ∃ c ∈ ['a', 'o'], Opens c word := by
  cases connective with
  | both =>
      exact ⟨'a', by decide, Opens.of_mem_blanks_mul member rfl⟩
  | either =>
      exact ⟨'o', by decide, Opens.of_mem_blanks_mul member rfl⟩

private theorem opens_of_mem_furtherTexts
    {further : Connective × Condition} {word : List Char}
    (member : word ∈ furtherTexts numerals further) :
    ∃ c ∈ ['a', 'o'], Opens c word := by
  rcases member with ⟨logic, logicMember, next, _, rfl⟩
  obtain ⟨c, known, opens⟩ := opens_of_mem_logic logicMember
  exact ⟨c, known, opens.append next⟩

/-- A connective ends the condition before it. -/
theorem endsCondition_append
    {further : Connective × Condition} {word : List Char}
    (member : word ∈ furtherTexts numerals further) (rest : List Char) :
    EndsCondition (word ++ rest) := by
  have letters : ∀ c ∈ ['a', 'o'], CharClass.isBlank c = false ∧
      c.isDigit = false ∧ c ≠ '.' ∧ c ≠ ',' := by
    simp [CharClass.isBlank]
  obtain ⟨c, known, opens⟩ := opens_of_mem_furtherTexts member
  obtain ⟨notBlank, notDigit, notDot, notComma⟩ := letters c known
  have opens := opens.append rest
  refine ⟨opens.endsRange notDigit notDot, ?_⟩
  rw [opens.visible?_eq notBlank]
  simpa using notComma

private theorem visible?_of_mem_blanks
    {chars : List Char} (member : chars ∈ Grammar.blanks) :
    visible? chars = none := by
  rw [visible?, List.dropWhile_eq_nil_iff.mpr (Grammar.mem_blanks_iff.mp member),
    List.head?_nil]

private theorem endsCondition_of_mem_blanks
    {chars : List Char} (member : chars ∈ Grammar.blanks) :
    EndsCondition chars := by
  refine ⟨?_, by simp [visible?_of_mem_blanks member]⟩
  cases chars with
  | nil =>
      exact ⟨rfl, by simp⟩
  | cons space spaces =>
      have blank := Grammar.mem_blanks_iff.mp member space List.mem_cons_self
      refine ⟨CharClass.isDigit_eq_false_of_isBlank blank, ?_⟩
      rintro ⟨⟩
      contradiction

private theorem declines_furtherParser :
    furtherParser.Declines (· ∈ Grammar.blanks) := by
  apply Declines.bind
  apply Declines.bind
  apply declines_token
  intro chars member
  rw [visible?_of_mem_blanks member]
  rfl

/-- The parser of rules reads every text of a rule, and the tree it builds shows
the rule. -/
theorem reads_ruleParser
    (rule : Rule) :
    ruleParser.Reads (rule.texts numerals) (· = []) rule.ShownBy := by
  have furtherRead :
      furtherParser.zeroOrMore.Reads
        (rule.further.map (furtherTexts numerals)).prod (· ∈ Grammar.blanks)
        (List.Forall₂ ShownByPair rule.further) := by
    apply Reads.zeroOrMore reads_furtherParser
    · intro further empty
      obtain ⟨_, _, opens⟩ := opens_of_mem_furtherTexts empty
      exact opens.ne_nil rfl
    · intro further word member rest
      exact endsCondition_append member rest
    · intro rest
      exact endsCondition_of_mem_blanks
    · exact declines_furtherParser
  have blanksRead :
      Parser.blanks.Reads Grammar.blanks (· = []) (HasText Grammar.blanks) :=
    reads_blanks.weaken (by rintro _ rfl; rfl) fun _ => id
  rw [Rule.texts, mul_assoc]
  apply (reads_conditionParser rule.first).bind
  · intro first firstShown
    apply furtherRead.bind
    · intro pairs pairsShown
      apply blanksRead.bind_one
      intro _ _
      exact Reads.pure ⟨first, pairs, firstShown, pairsShown, rfl⟩
    · intro word member rest ended
      rwa [ended, List.append_nil]
  · rintro _ ⟨word, member, spaces, spacesMember, rfl⟩ rest ended
    rw [ended, List.append_nil]
    exact Reads.allowed_append
      (fun _ _ furtherMember rest => endsCondition_append furtherMember rest)
      (fun _ => endsCondition_of_mem_blanks) member spacesMember

end

end TextGrammar.PluralRule
