import TextGrammar.Proofs.Parser.Tracking

/-!
Recognizers as parsers. A recognizer tree translates into a parser built from
the combinators alone, with recognizers left only at its leaves, and the parser
collects the texts of these leaves. The main statement is `toParser_agrees`: the
translation matches where the recognizer matches, leaves the same remainder,
and its leaves make up the text of the match.
-/

namespace TextGrammar

namespace Recognizer

def leafParser (leaf : Recognizer) : Parser (List Slice) :=
  (fun text => [text]) <$> Parser.ofRecognizer leaf

mutual

/-- The translation of a tree. It collects the texts of the leaves in order. -/
def toParser : Recognizer → Parser (List Slice)
  | literal word => leafParser (literal word)
  | oneOf listed => leafParser (oneOf listed)
  | ofClass classes => leafParser (ofClass classes)
  | sequence parts => sequenceParser parts
  | choice alternatives => choiceParser alternatives
  | zeroOrMore inner => List.flatten <$> inner.toParser.zeroOrMore
  | oneOrMore inner => List.flatten <$> inner.toParser.oneOrMore

def sequenceParser : List Recognizer → Parser (List Slice)
  | [] => pure []
  | part :: parts => do
      let leaves ← part.toParser
      let further ← sequenceParser parts
      return leaves ++ further

def choiceParser : List Recognizer → Parser (List Slice)
  | [] => failure
  | first :: others => orEachParser first.toParser others

def orEachParser (p : Parser (List Slice)) :
    List Recognizer → Parser (List Slice)
  | [] => p
  | next :: others => orEachParser (p <|> next.toParser) others

end

/-- The leaves can be read, and their characters make up the given ones. -/
inductive Spells : List Char → List Slice → Prop
  | nil : Spells [] []
  | cons {word more : List Char} {leaf : Slice} {leaves : List Slice} :
      leaf.chars? = some word → Spells more leaves →
        Spells (word ++ more) (leaf :: leaves)

namespace Spells

theorem singleton
    {word : List Char} {leaf : Slice}
    (readable : leaf.chars? = some word) : Spells word [leaf] := by
  simpa using cons readable nil

theorem append
    {read more : List Char} {leaves further : List Slice}
    (spelled : Spells read leaves) (spelledFurther : Spells more further) :
    Spells (read ++ more) (leaves ++ further) := by
  induction spelled with
  | nil =>
      exact spelledFurther
  | cons readable _ inductionHypothesis =>
      rw [List.append_assoc]
      exact cons readable inductionHypothesis

theorem flatten
    {read : List Char} {groups : List (List Slice)}
    (repeated : Parser.Tracks.Repeated Spells read groups) :
    Spells read groups.flatten := by
  induction repeated with
  | nil =>
      exact nil
  | cons _ spelled _ inductionHypothesis =>
      exact append spelled inductionHypothesis

/-- The texts of leaves concatenate to the text that they spell. -/
theorem join_texts
    {read : List Char} {leaves : List Slice}
    (spelled : Spells read leaves) :
    String.join <$> leaves.mapM Slice.text = .ok (String.ofList read) := by
  induction spelled with
  | nil =>
      rfl
  | @cons word more leaf leaves readable _ inductionHypothesis =>
      have leafText := Slice.text_of_chars? readable
      cases texts : leaves.mapM Slice.text with
      | error cause =>
          rw [texts] at inductionHypothesis
          contradiction
      | ok words =>
          rw [texts] at inductionHypothesis
          have joined : String.join words = String.ofList more :=
            Except.ok.inj inductionHypothesis
          rw [List.mapM_cons, leafText, texts, String.ofList_append,
            ← joined]
          exact congrArg Except.ok String.join_cons

end Spells

private theorem tracks_leafParser
    (leaf : Recognizer) : leaf.leafParser.Tracks leaf.consume Spells := by
  apply (Parser.Tracks.ofRecognizer leaf).map
  intro read text readable
  exact Spells.singleton readable

private theorem tracks_sequenceParser
    {parts : List Recognizer}
    (tracks : ∀ part ∈ parts, part.toParser.Tracks part.consume Spells) :
    (sequenceParser parts).Tracks (consumeEach parts) Spells := by
  induction parts with
  | nil =>
      exact Parser.Tracks.pure Spells.nil
  | cons part parts inductionHypothesis =>
      rcases List.forall_mem_cons.mp tracks with ⟨partTracks, partsTrack⟩
      rw [sequenceParser]
      apply Parser.Tracks.congr
      · apply partTracks.bind
        intro read leaves spelled
        apply (inductionHypothesis partsTrack).bind
        intro more further spelledFurther
        apply Parser.Tracks.pure
        rw [List.append_nil]
        exact spelled.append spelledFurther
      · intro chars
        simp only [consumeEach_cons, Option.bind_fun_some]

private theorem tracks_orEachParser
    {p : Parser (List Slice)} {step : List Char → Option (List Char)}
    {alternatives : List Recognizer}
    (first : p.Tracks step Spells)
    (tracks : ∀ r ∈ alternatives, r.toParser.Tracks r.consume Spells) :
    (orEachParser p alternatives).Tracks
      (fun chars =>
        (step chars).or (alternatives.findSome? fun r => r.consume chars))
      Spells := by
  induction alternatives generalizing p step with
  | nil =>
      rw [orEachParser]
      exact first.congr fun chars => by simp
  | cons next others inductionHypothesis =>
      rcases List.forall_mem_cons.mp tracks with ⟨nextTracks, othersTrack⟩
      rw [orEachParser]
      apply (inductionHypothesis (first.orElse nextTracks) othersTrack).congr
      intro chars
      rw [Option.or_assoc, List.findSome?_cons]
      cases next.consume chars <;> simp

theorem tracks_toParser
    (r : Recognizer) : r.toParser.Tracks r.consume Spells := by
  induction r with
  | literal word | oneOf listed | ofClass classes =>
      rw [toParser]
      exact tracks_leafParser _
  | sequence parts inductionHypothesis =>
      rw [toParser]
      rw [consume_sequence]
      exact tracks_sequenceParser inductionHypothesis
  | choice alternatives inductionHypothesis =>
      rw [toParser]
      cases alternatives with
      | nil =>
          exact Parser.Tracks.failure
      | cons first others =>
          obtain ⟨firstTracks, othersTrack⟩ :=
            List.forall_mem_cons.mp inductionHypothesis
          rw [choiceParser]
          apply (tracks_orEachParser firstTracks othersTrack).congr
          intro chars
          rw [consume_choice, List.findSome?_cons]
          cases first.consume chars <;> simp
  | zeroOrMore inner inductionHypothesis =>
      rw [toParser]
      apply (inductionHypothesis.zeroOrMore.map fun _ _ => Spells.flatten).congr
      intro chars
      rw [consume]
  | oneOrMore inner inductionHypothesis =>
      rw [toParser]
      apply (inductionHypothesis.oneOrMore.map fun _ _ => Spells.flatten).congr
      intro chars
      rw [consume]

/-- On every slice whose bounds are boundaries in order, the translation of a
recognizer and the recognizer itself either both match, with the same remainder
and with leaves that make up the text of the match, or both do not. -/
theorem toParser_agrees
    (r : Recognizer) {input : Slice}
    (inBounds : input.InBounds)
    (startBoundary : IsBoundary input.buffer.chars input.start)
    (stopBoundary : IsBoundary input.buffer.chars input.stop) :
    (∃ leaves text rest word,
      r.toParser.parse input = .matched leaves rest ∧
        (Parser.ofRecognizer r).parse input = .matched text rest ∧
        text.text = .ok word ∧
        String.join <$> leaves.mapM Slice.text = .ok word) ∨
      (r.toParser.parse input = .unmatched ∧
        (Parser.ofRecognizer r).parse input = .unmatched) := by
  obtain ⟨chars, readable⟩ :=
    Slice.exists_chars?_iff.mpr ⟨inBounds, startBoundary, stopBoundary⟩
  have translated := tracks_toParser r
  have direct := Parser.Tracks.ofRecognizer r
  cases consumed : r.consume chars with
  | none =>
      exact Or.inr ⟨translated.of_none readable consumed,
        direct.of_none readable consumed⟩
  | some rest =>
      obtain ⟨read, leaves, rfl, spelled, parsed⟩ :=
        translated.of_some readable consumed
      obtain ⟨word, text, split, textReadable, matched⟩ :=
        direct.of_some readable consumed
      obtain rfl := List.append_cancel_right split
      have textRead : text.text = .ok (String.ofList read) :=
        Slice.text_eq_ok_iff.mpr
          (by rw [textReadable, String.toList_ofList])
      exact Or.inl ⟨leaves, text, input.leaving rest, String.ofList read,
        parsed, matched, textRead, spelled.join_texts⟩

/-- The part `ab` of the text `éabé`, matched by a nested repetition. -/
theorem toParser_agrees_between_accents :
    let input : Slice := ⟨{ chars := ['é', 'a', 'b', 'é'] }, 2, 4⟩
    let r := zeroOrMore (oneOrMore (choice [literal "ba", oneOf ['a', 'b']]))
    input.InBounds ∧
      IsBoundary input.buffer.chars input.start ∧
      IsBoundary input.buffer.chars input.stop ∧
      ((∃ leaves text rest word,
        r.toParser.parse input = .matched leaves rest ∧
          (Parser.ofRecognizer r).parse input = .matched text rest ∧
          text.text = .ok word ∧
          String.join <$> leaves.mapM Slice.text = .ok word) ∨
        (r.toParser.parse input = .unmatched ∧
          (Parser.ofRecognizer r).parse input = .unmatched)) := by
  intro input r
  have inBounds : input.InBounds := by decide
  have startBoundary : IsBoundary input.buffer.chars input.start := by
    decide
  have stopBoundary : IsBoundary input.buffer.chars input.stop := by
    decide
  exact ⟨inBounds, startBoundary, stopBoundary,
    toParser_agrees r inBounds startBoundary stopBoundary⟩

end Recognizer

end TextGrammar
