import TextGrammar.PluralRule.Check
import TextGrammar.Proofs.Parser.Tracking

/-!
The two grammars of plural rules agree. The recognizer and the parser of a rule
are written apart; the parser of each phrase tracks the recognizer of that
phrase, so both end at the same place of every text. The main statement is
`recognize_iff_parse`, and with it no rule that is recognized as a whole can be
rejected or left unfinished by the parser.
-/

namespace TextGrammar.PluralRule

open TextGrammar.Parser (Tracks)
open TextGrammar.Recognizer (consume_sequence consume_optional
  consume_zeroOrMore consumeEach_nil consumeEach_cons)

abbrev Follows {α : Type} (p : Parser α) (r : Recognizer) : Prop :=
  p.Tracks r.consume fun _ _ => True

private theorem follows_optional
    {α : Type} {p : Parser α} {r : Recognizer}
    (follows : Follows p r) :
    Follows (optional p) (.optional r) := by
  rw [Follows, consume_optional]
  exact Tracks.optional follows (fun _ _ _ => trivial) trivial

private theorem tracks_integerAtom
    (tag : Tag) {digits : Slice} {word : List Char}
    (readable : digits.chars? = some word) :
    (Parser.ofExcept (integerAtom tag digits)).Tracks some
      fun _ _ => True := by
  have digitsText := Slice.text_of_chars? readable
  have computed :
      integerAtom tag digits =
        .ok (.atom tag
          (.integer (Numeral.leadingValue (String.ofList word)))) := by
    rw [integerAtom, digitsText]
    rfl
  exact Tracks.ofExcept computed trivial

private theorem follows_textParser
    (tag : Tag) (r : Recognizer) :
    Follows (textParser tag r) (.token r) :=
  (Tracks.token r).map fun _ _ _ => trivial

/-- An integer behind blanks follows its digits. -/
theorem follows_token_digits
    (tag : Tag) :
    Follows
      (do
        let digits ← Parser.token .digits
        Parser.ofExcept (integerAtom tag digits))
      (.token .digits) := by
  apply Tracks.congr
  · apply (Tracks.token .digits).bind
    rintro read digits ⟨spaces, word, rfl, readable⟩
    exact tracks_integerAtom tag readable
  · intro chars
    exact Option.bind_fun_some _

private theorem follows_integerParser :
    Follows integerParser (.token .digits) :=
  follows_token_digits .integer

private theorem follows_modulusParser :
    Follows modulusParser
      (.sequence [.token percent, .token .digits]) := by
  apply Tracks.congr
  · apply (Tracks.token percent).bind
    intro _ _ _
    exact follows_token_digits .modulus
  · intro chars
    rw [consume_sequence]
    simp only [consumeEach_cons, consumeEach_nil, Option.bind_fun_some]

private theorem follows_upperParser :
    Follows upperParser (.sequence [dots, .digits]) := by
  apply Tracks.congr
  · apply (Tracks.ofRecognizer dots).bind
    intro _ _ _
    apply (Tracks.ofRecognizer .digits).bind
    intro word digits readable
    exact tracks_integerAtom .integer readable
  · intro chars
    rw [consume_sequence]
    simp only [consumeEach_cons, consumeEach_nil, Option.bind_fun_some]

theorem follows_rangeParser :
    Follows rangeParser rangeRecognizer := by
  apply Tracks.congr
  · apply follows_integerParser.bind
    intro _ first _
    apply (follows_optional follows_upperParser).bind
    intro _ last _
    cases last with
    | none =>
        exact Tracks.pure trivial
    | some last =>
        exact Tracks.pure trivial
  · intro chars
    rw [rangeRecognizer, consume_sequence]
    simp only [consumeEach_cons, consumeEach_nil, Option.bind_fun_some]

def rangesRecognizer : Recognizer :=
  .sequence
    [rangeRecognizer,
      .zeroOrMore (.sequence [.token comma, rangeRecognizer])]

theorem follows_rangesParser :
    Follows rangesParser rangesRecognizer := by
  apply Tracks.congr
  · apply (follows_rangeParser.sepBy (Tracks.token comma)).map
    intro _ _ _
    trivial
  · intro chars
    rw [rangesRecognizer, consume_sequence]
    simp only [consume_sequence, consume_zeroOrMore, consumeEach_cons,
      consumeEach_nil, Option.bind_fun_some, Option.map_eq_bind]
    rfl

theorem follows_conditionParser :
    Follows conditionParser conditionRecognizer := by
  apply Tracks.congr
  · apply (follows_textParser .operand operand).bind
    intro _ left _
    apply (follows_optional follows_modulusParser).bind
    intro _ modulus _
    apply (follows_textParser .relation relation).bind
    intro _ sign _
    apply follows_rangesParser.bind
    intro _ right _
    exact Tracks.pure trivial
  · intro chars
    rw [conditionRecognizer, rangesRecognizer, consume_sequence,
      consume_sequence]
    simp only [consumeEach_cons, consumeEach_nil, Option.bind_fun_some]

private theorem follows_furtherParser :
    Follows furtherParser (.sequence [.token logic, conditionRecognizer]) := by
  apply Tracks.congr
  · apply (follows_textParser .logic logic).bind
    intro _ connective _
    apply follows_conditionParser.bind
    intro _ next _
    exact Tracks.pure trivial
  · intro chars
    rw [consume_sequence]
    simp only [consumeEach_cons, consumeEach_nil, Option.bind_fun_some]

theorem follows_ruleParser :
    Follows ruleParser ruleRecognizer := by
  apply Tracks.congr
  · apply follows_conditionParser.bind
    intro _ first _
    apply follows_furtherParser.zeroOrMore.bind
    intro _ further _
    apply (Tracks.ofRecognizer .blanks).bind
    intro _ spaces _
    exact Tracks.pure trivial
  · intro chars
    simp only [ruleRecognizer, consume_sequence, consume_zeroOrMore,
      consumeEach_cons, consumeEach_nil, Option.bind_fun_some]

/-- What the recognizer answers on a rule, by what it leaves of it. -/
theorem recognize_eq_map
    (rule : String) :
    ruleRecognizer.recognize rule =
      (ruleRecognizer.consume rule.toList).map fun rest =>
        byteLength rule.toList - byteLength rest :=
  ruleRecognizer.matchIn_of_window? (window?_whole rule.toList)

private theorem parse_of_consume_none
    {rule : String}
    (stuck : ruleRecognizer.consume rule.toList = none) :
    ruleParser.parseString rule = .unmatched :=
  follows_ruleParser.of_none (Slice.chars?_ofString rule) stuck

private theorem parse_of_consume_some
    {rule : String} {rest : List Char}
    (consumed : ruleRecognizer.consume rule.toList = some rest) :
    ∃ tree, ruleParser.parseString rule =
      .matched tree ((Slice.ofString rule).leaving rest) := by
  obtain ⟨_, tree, _, _, parsed⟩ :=
    follows_ruleParser.of_some (Slice.chars?_ofString rule) consumed
  exact ⟨tree, parsed⟩

/-- Just the rules that are recognized over their whole length pass. -/
def RecognizedWhole (rule : String) : Prop :=
  ruleRecognizer.recognize rule = some (byteLength rule.toList)

instance (rule : String) : Decidable (RecognizedWhole rule) :=
  inferInstanceAs (Decidable (_ = _))

/-- What a check may answer, by what the recognizer and the parser of rules do on
the rule. -/
inductive Checked (rule : String) :
    Except Problem (Node Tag) → Prop where
  | accepted {tree : Node Tag} {rest : Slice} :
      RecognizedWhole rule →
        ruleParser.parseString rule = .matched tree rest →
          rest.isEmpty = true → Checked rule (.ok tree)
  | unexpected {stop : Nat} {rest : List Char} :
      ruleRecognizer.recognize rule = some stop →
        stop ≠ byteLength rule.toList →
          dropBytes? rule.toList stop = some rest →
            Checked rule (.error
              (.unexpectedInput (.locate rule stop) (String.ofList rest)))
  | unrecognized :
      ruleRecognizer.recognize rule = none →
        Checked rule (.error (.notRecognized rule))

/-- A check never faults: where the recognizer stops, the rest of the rule can be
read, and the parser accepts what is recognized as a whole. -/
theorem exists_checked
    (rule : String) :
    ∃ result, check rule = .ok result ∧ Checked rule result := by
  have recognized := recognize_eq_map rule
  cases consumed : ruleRecognizer.consume rule.toList with
  | none =>
      rw [consumed, Option.map_none] at recognized
      refine ⟨_, ?_, .unrecognized recognized⟩
      rw [check, recognized]
      rfl
  | some rest =>
      rcases parse_of_consume_some consumed with ⟨tree, parsed⟩
      obtain ⟨read, split⟩ :=
        ruleRecognizer.suffix_of_consume rule.toList rest consumed
      have readable : (Slice.ofString rule).chars? = some (read ++ rest) := by
        rw [split, Slice.chars?_ofString]
      rw [consumed, Option.map_some] at recognized
      by_cases whole :
          byteLength rule.toList - byteLength rest = byteLength rule.toList
      · have nothingLeft :
            ((Slice.ofString rule).leaving rest).isEmpty = true := by
          have shorter := byteLength_le_of_suffix ⟨read, split⟩
          rw [Slice.isEmpty, Slice.size_leaving readable, beq_iff_eq]
          omega
        have recognizedWhole : RecognizedWhole rule := by
          rw [RecognizedWhole, recognized, whole]
        refine ⟨_, ?_, .accepted recognizedWhole parsed nothingLeft⟩
        rw [check, recognized]
        simp only [parsed, nothingLeft]
        exact if_pos whole
      · have cutOff :
            (Slice.ofString rule).splitAt
                (byteLength rule.toList - byteLength rest) =
              .ok (⟨{ chars := rule.toList }, 0,
                  byteLength rule.toList - byteLength rest⟩,
                (Slice.ofString rule).leaving rest) := by
          apply (Slice.splitAt_eq_ok_iff
            (Slice.inBounds_whole { chars := rule.toList })).mpr
          exact ⟨⟨Nat.zero_le _, Nat.sub_le _ _⟩, rfl, rfl⟩
        have restText :=
          Slice.text_of_chars? (Slice.chars?_leaving readable)
        have restDropped :
            dropBytes? rule.toList
              (byteLength rule.toList - byteLength rest) = some rest := by
          apply dropBytes?_eq_some_iff.mpr
          refine ⟨read, split.symm, ?_⟩
          rw [← split, byteLength_append, Nat.add_sub_cancel]
        refine ⟨_, ?_, .unexpected recognized whole restDropped⟩
        rw [check, recognized]
        simp only [cutOff, bind, Except.bind, restText]
        exact if_neg whole

/-- A rule is either not recognized, or unexpected input follows what is
recognized of it, or it has a tree. -/
theorem check_cases
    (rule : String) :
    check rule = .ok (.error (.notRecognized rule)) ∨
      (∃ place rest,
        check rule = .ok (.error (.unexpectedInput place rest))) ∨
      ∃ tree, check rule = .ok (.ok tree) := by
  obtain ⟨result, computed, checked⟩ := exists_checked rule
  cases checked with
  | accepted _ _ _ =>
      exact Or.inr (Or.inr ⟨_, computed⟩)
  | unexpected _ _ _ =>
      exact Or.inr (Or.inl ⟨_, _, computed⟩)
  | unrecognized _ =>
      exact Or.inl computed

/-- The recognizer and the parser of rules stop at the same place of every
text, and neither matches where the other does not. So checking a rule never
finds that the parser stopped early or rejected what was recognized. -/
theorem recognize_iff_parse
    (rule : String) :
    (∀ stop, ruleRecognizer.recognize rule = some stop ↔
      ∃ tree rest, ruleParser.parseString rule = .matched tree rest ∧
        rest.start = stop ∧ rest.stop = byteLength rule.toList) ∧
    (ruleRecognizer.recognize rule = none ↔
      ruleParser.parseString rule = .unmatched) ∧
    ∃ result, check rule = .ok result ∧
      (∀ place, result ≠ .error (.parserStopped place)) ∧
      result ≠ .error .parserRejected := by
  refine ⟨?_, ?_, ?_⟩
  · intro stop
    rw [recognize_eq_map]
    cases consumed : ruleRecognizer.consume rule.toList with
    | none =>
        simp [parse_of_consume_none consumed]
    | some rest =>
        rcases parse_of_consume_some consumed with ⟨tree, parsed⟩
        rw [parsed, Option.map_some, Option.some.injEq]
        constructor
        · rintro rfl
          exact ⟨tree, _, rfl, rfl, rfl⟩
        · rintro ⟨_, _, same, rfl, _⟩
          rw [Outcome.matched.injEq] at same
          rw [← same.2]
          rfl
  · rw [recognize_eq_map]
    cases consumed : ruleRecognizer.consume rule.toList with
    | none =>
        simp [parse_of_consume_none consumed]
    | some rest =>
        rcases parse_of_consume_some consumed with ⟨tree, parsed⟩
        simp [parsed]
  · rcases check_cases rule with
      unrecognized | ⟨place, rest, unexpected⟩ | ⟨tree, accepted⟩
    · exact ⟨_, unrecognized, by simp, by simp⟩
    · exact ⟨_, unexpected, by simp, by simp⟩
    · exact ⟨_, accepted, by simp, by simp⟩

end TextGrammar.PluralRule
