import Mathlib.Data.Set.List
import TextGrammar.Proofs.Parser.Values
import TextGrammar.Proofs.PluralRule.Reading

/-!
Writing a rule and parsing it again. Every text in which a tree is written, with
numbers in decimal, is parsed to its end and gives a tree of the same content.
Conversely the parser returns no tree but those of rules: each phrase of the
grammar returns only what shows a phrase of some rule. The main statement is
`parse_texts_and_wellShaped`.
-/

namespace TextGrammar.PluralRule

open TextGrammar.Parser (Returns)

private theorem returns_textParser
    (tag : Tag) (r : Recognizer) :
    (textParser tag r).Returns fun node =>
      ∃ word : String, word.toList ∈ r.language ∧ HasWord tag word node := by
  refine (Returns.token r).map ?_
  rintro text ⟨word, member, readable⟩
  refine ⟨String.ofList word, ?_, text, rfl, ?_⟩
  · rwa [String.toList_ofList]
  · rwa [String.toList_ofList]

private theorem returns_operand :
    (textParser .operand operand).Returns fun node =>
      ∃ c ∈ operands, HasWord .operand (String.singleton c) node := by
  intro input node rest parsed
  obtain ⟨word, member, shown⟩ :=
    returns_textParser .operand operand input node rest parsed
  rw [operand, language_oneOf] at member
  obtain ⟨c, known, spelled⟩ := member
  rw [← String.toList_singleton, String.toList_inj] at spelled
  exact ⟨c, known, spelled ▸ shown⟩

private theorem returns_relation :
    (textParser .relation relation).Returns fun node =>
      ∃ relation : Relation, HasWord .relation relation.word node := by
  intro input node rest parsed
  obtain ⟨word, member, shown⟩ :=
    returns_textParser .relation relation input node rest parsed
  rw [language_relation] at member
  obtain ⟨relation, spelled⟩ := exists_relation_of_mem member
  exact ⟨relation, String.toList_inj.mp spelled ▸ shown⟩

private theorem returns_logic :
    (textParser .logic logic).Returns fun node =>
      ∃ connective : Connective, HasWord .logic connective.word node := by
  intro input node rest parsed
  obtain ⟨word, member, shown⟩ :=
    returns_textParser .logic logic input node rest parsed
  rw [language_logic] at member
  obtain ⟨connective, spelled⟩ := exists_connective_of_mem member
  exact ⟨connective, String.toList_inj.mp spelled ▸ shown⟩

/-- An integer atom holds a number, whatever digits it is computed from. -/
theorem returns_integerAtom
    (tag : Tag) (digits : Slice) :
    (Parser.ofExcept (integerAtom tag digits)).Returns fun node =>
      ∃ value, node = .atom tag (.integer value) := by
  apply Returns.ofExcept
  intro node computed
  cases readable : digits.text with
  | error cause =>
      simp [integerAtom, readable, bind, Except.bind] at computed
  | ok text =>
      simp only [integerAtom, readable, bind, Except.bind, pure, Except.pure,
        Except.ok.injEq] at computed
      exact ⟨_, computed.symm⟩

private theorem returns_integer
    (tag : Tag) (p : Parser Slice) :
    (do
      let digits ← p
      Parser.ofExcept (integerAtom tag digits) : Parser (Node Tag)).Returns
      fun node => ∃ value, node = .atom tag (.integer value) :=
  (Returns.anything p).bind fun digits _ => returns_integerAtom tag digits

private theorem returns_upperParser :
    upperParser.Returns fun node =>
      ∃ value, node = .atom .integer (.integer value) := by
  refine (Returns.anything (.ofRecognizer dots)).bind fun _ _ => ?_
  exact returns_integer .integer (.ofRecognizer .digits)

theorem returns_rangeParser :
    rangeParser.Returns fun node => ∃ span : Span, span.tree = node := by
  have upper :
      (optional upperParser).Returns fun last =>
        ∃ value : Option UInt64,
          last = value.map fun high => .atom .integer (.integer high) := by
    refine returns_upperParser.optional ?_ ?_
    · rintro _ ⟨high, rfl⟩
      exact ⟨some high, rfl⟩
    · exact ⟨none, rfl⟩
  refine (returns_integer .integer (.token .digits)).bind ?_
  rintro _ ⟨low, rfl⟩
  refine upper.bind ?_
  rintro _ ⟨high, rfl⟩
  cases high with
  | none =>
      exact Returns.pure ⟨.single low, rfl⟩
  | some high =>
      exact Returns.pure ⟨.between low high, rfl⟩

theorem returns_rangesParser :
    rangesParser.Returns fun node =>
      ∃ first others,
        node = .branch .ranges ((first :: others).map Span.tree) := by
  refine (returns_rangeParser.sepBy (q := Parser.token comma)).map ?_
  rintro _ ⟨firstNode, otherNodes, rfl, shown⟩
  obtain ⟨⟨first, rfl⟩, othersShown⟩ := List.forall_mem_cons.mp shown
  obtain ⟨others, rfl⟩ : otherNodes ∈ Set.range (List.map Span.tree) := by
    rw [Set.range_list_map]
    exact othersShown
  exact ⟨first, others, rfl⟩

private theorem returns_remainder :
    (optional modulusParser).Returns fun found =>
      ∃ modulus, found.toList = modulusTrees modulus := by
  have returns :
      modulusParser.Returns fun node =>
        ∃ value, node = .atom .modulus (.integer value) := by
    refine (Returns.anything (.token percent)).bind fun _ _ => ?_
    exact returns_integer .modulus (.token .digits)
  refine returns.optional ?_ ?_
  · rintro _ ⟨value, rfl⟩
    exact ⟨some value, rfl⟩
  · exact ⟨none, rfl⟩

theorem returns_conditionParser :
    conditionParser.Returns fun node =>
      ∃ condition : Condition, condition.ShownBy node := by
  refine returns_operand.bind fun left => ?_
  rintro ⟨operand, known, leftShown⟩
  refine returns_remainder.bind fun found => ?_
  rintro ⟨modulus, modulusShown⟩
  refine returns_relation.bind fun sign => ?_
  rintro ⟨relation, signShown⟩
  refine returns_rangesParser.bind ?_
  rintro _ ⟨first, others, rfl⟩
  apply Returns.pure
  rw [build_condition, modulusShown]
  exact ⟨⟨operand, known, modulus, relation, first, others⟩, left, sign,
    leftShown, signShown, rfl⟩

private theorem returns_furtherParser :
    furtherParser.Returns fun pair =>
      ∃ further, ShownByPair further pair := by
  refine returns_logic.bind fun logic => ?_
  rintro ⟨connective, logicShown⟩
  refine returns_conditionParser.bind fun next => ?_
  rintro ⟨condition, nextShown⟩
  exact Returns.pure
    ⟨(connective, condition), logic, next, logicShown, nextShown, rfl⟩

/-- Pairs that each show a connective and a condition show a list of them. -/
theorem exists_further_of_pairs
    {pairs : List (List (Node Tag))}
    (shown : ∀ pair ∈ pairs, ∃ further, ShownByPair further pair) :
    ∃ further, List.Forall₂ ShownByPair further pairs := by
  induction pairs with
  | nil =>
      exact ⟨[], .nil⟩
  | cons pair pairs inductionHypothesis =>
      rcases List.forall_mem_cons.mp shown with
        ⟨⟨first, firstShown⟩, othersShown⟩
      obtain ⟨others, each⟩ := inductionHypothesis othersShown
      exact ⟨first :: others, .cons firstShown each⟩

theorem returns_ruleParser :
    ruleParser.Returns WellShaped := by
  refine returns_conditionParser.bind fun first => ?_
  rintro ⟨condition, firstShown⟩
  refine returns_furtherParser.zeroOrMore.bind fun pairs shown => ?_
  obtain ⟨further, pairsShown⟩ := exists_further_of_pairs shown
  refine (Returns.anything .blanks).bind fun _ _ => ?_
  exact Returns.pure
    ⟨⟨condition, further⟩, first, pairs, firstShown, pairsShown, rfl⟩

/-- Parsing inverts writing: every text of a tree with decimal numbers is parsed
to its end and gives a tree of the same content, and on no input does the parser
return anything but the tree of a rule. -/
theorem parse_texts_and_wellShaped :
    (∀ (rule : Rule) (tree : Node Tag), rule.ShownBy tree →
      ∀ text : String, text.toList ∈ rule.texts .decimal →
        ∃ node rest, ruleParser.parseString text = .matched node rest ∧
          rest.isEmpty = true ∧ node.same tree = .ok true) ∧
    ∀ input node rest, ruleParser.parse input = .matched node rest →
      WellShaped node := by
  refine ⟨?_, returns_ruleParser⟩
  intro rule tree shown text member
  have readable : (Slice.ofString text).chars? = some (text.toList ++ []) := by
    rw [Slice.chars?_ofString, List.append_nil]
  obtain ⟨node, parsed, built⟩ :=
    reads_ruleParser rule text.toList member _ [] readable rfl
  refine ⟨node, _, parsed, ?_, built.same shown⟩
  rw [Slice.isEmpty, Slice.size_leaving readable, byteLength_nil]
  rfl

/-- Blanks and zeros do not change the tree of a condition. -/
theorem parse_texts_with_blanks_and_zeros :
    ∃ node rest,
      ruleParser.parseString " n%10 = 2..4,\t007 " = .matched node rest ∧
        rest.isEmpty = true ∧ WellShaped node ∧
        node.same
          (.branch .rule
            [.branch .condition
              [.atom .operand (.text (.ofString "n")),
                .atom .modulus (.integer 10),
                .atom .relation (.text (.ofString "=")),
                .branch .ranges
                  [.branch .range
                    [.atom .integer (.integer 2), .atom .integer (.integer 4)],
                    .atom .integer (.integer 7)]]]) = .ok true := by
  have blank : [' '] ∈ Grammar.blanks :=
    Grammar.mem_blanks_iff.mpr (List.forall_mem_singleton.mpr rfl)
  have tab : ['\t'] ∈ Grammar.blanks :=
    Grammar.mem_blanks_iff.mpr (List.forall_mem_singleton.mpr rfl)
  have none : [] ∈ Grammar.blanks :=
    Grammar.mem_blanks_iff.mpr (List.forall_mem_nil _)
  have number (zeros : Nat) (value : UInt64) :
      List.replicate zeros '0' ++ Nat.toDigits 10 value.toNat ∈
        Numerals.decimal.words value :=
    ⟨zeros, rfl⟩
  have word (chars : List Char) : chars ∈ ({chars} : Language Char) := rfl
  have operandRead := Language.append_mem_mul blank (word ['n'])
  have remainder := Language.append_mem_mul
    (Language.append_mem_mul none (word "%".toList))
    (Language.append_mem_mul none (number 0 10))
  have relation := Language.append_mem_mul blank (word "=".toList)
  have first := Language.append_mem_mul
    (Language.append_mem_mul blank (number 0 2))
    (Language.append_mem_mul (word "..".toList) (number 0 4))
  have others := Language.append_mem_mul
    (Language.append_mem_mul
      (Language.append_mem_mul none (word ",".toList))
      (Language.append_mem_mul tab (number 2 7)))
    Language.nil_mem_one
  have condition := Language.append_mem_mul
    (Language.append_mem_mul
      (Language.append_mem_mul
        (Language.append_mem_mul operandRead remainder) relation) first)
    others
  have text := Language.append_mem_mul
    (Language.append_mem_mul condition Language.nil_mem_one) blank
  have shown (tag : Tag) (written : String) :
      HasWord tag written (.atom tag (.text (.ofString written))) :=
    ⟨.ofString written, rfl, Slice.chars?_ofString written⟩
  obtain ⟨node, rest, parsed, finished, same⟩ :=
    parse_texts_and_wellShaped.1
      ⟨⟨'n', by decide, some 10, .equal, .between 2 4, [.single 7]⟩, []⟩ _
      ⟨_, [], ⟨_, _, shown .operand "n", shown .relation "=", rfl⟩, .nil, rfl⟩
      " n%10 = 2..4,\t007 " text
  exact ⟨node, rest, parsed, finished,
    parse_texts_and_wellShaped.2 _ node rest parsed, same⟩

end TextGrammar.PluralRule
