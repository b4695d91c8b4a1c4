import Mathlib.Data.List.Forall2
import TextGrammar.Proofs.Parser.Consumption
import TextGrammar.Proofs.Parser.Tracking

/-!
Parsers see only their slice. A parser is run twice, on two slices with the same
characters, which may stand at different places of different buffers. If all its
functions treat texts with the same characters alike, both runs match or neither
does, the values agree, and the remainders have the same characters. One lemma
says it of each combinator, and the main statement `MadeAlike.parse_copy`
compares a slice with a copy of its text.
-/

namespace TextGrammar

def Slice.SameText (left right : Slice) : Prop :=
  ∃ text, left.text = .ok text ∧ right.text = .ok text

theorem Slice.sameText_of_chars?
    {left right : Slice} {chars : List Char}
    (leftReadable : left.chars? = some chars)
    (rightReadable : right.chars? = some chars) :
    left.SameText right :=
  ⟨String.ofList chars, text_of_chars? leftReadable,
    text_of_chars? rightReadable⟩

/-- Relates the outcomes of two runs on slices that both have the given
characters. Both leave the same characters, and `agrees` relates the values. -/
inductive Outcome.Agree
    {α : Type} (agrees : α → α → Prop) (left right : Slice)
    (chars : List Char) : Outcome α → Outcome α → Prop
  | matched {read rest : List Char} {value other : α} :
      chars = read ++ rest → agrees value other →
        Agree agrees left right chars
          (.matched value (left.leaving rest))
          (.matched other (right.leaving rest))
  | unmatched : Agree agrees left right chars .unmatched .unmatched

/-- What agrees behind some characters that were read agrees from there on. -/
theorem Outcome.Agree.behind
    {α : Type} {agrees : α → α → Prop} {left right : Slice}
    {read rest : List Char} {outcome other : Outcome α}
    (agree : outcome.Agree agrees (left.leaving rest) (right.leaving rest)
      rest other) :
    outcome.Agree agrees left right (read ++ rest) other := by
  cases agree with
  | @matched more last value other split related =>
      subst split
      rw [Slice.leaving_leaving, Slice.leaving_leaving]
      exact .matched (List.append_assoc read more last).symm related
  | unmatched =>
      exact .unmatched

namespace Parser

variable {α β : Type} {agrees : α → α → Prop} {concludes : β → β → Prop}

/-- On slices with the same characters the two parsers have outcomes that
agree. -/
def Agree (agrees : α → α → Prop) (p q : Parser α) : Prop :=
  ∀ left right chars, left.chars? = some chars → right.chars? = some chars →
    (p.parse left).Agree agrees left right chars (q.parse right)

namespace Agree

theorem ofRecognizer
    (r : Recognizer) :
    Agree Slice.SameText (ofRecognizer r) (ofRecognizer r) := by
  intro left right chars leftReadable rightReadable
  have tracks := Tracks.ofRecognizer r
  cases consumed : r.consume chars with
  | none =>
      rw [tracks.of_none leftReadable consumed,
        tracks.of_none rightReadable consumed]
      exact .unmatched
  | some rest =>
      obtain ⟨read, text, split, textReadable, parsed⟩ :=
        tracks.of_some leftReadable consumed
      obtain ⟨otherRead, other, otherSplit, otherReadable, otherParsed⟩ :=
        tracks.of_some rightReadable consumed
      have sameRead : otherRead = read :=
        List.append_cancel_right (otherSplit.symm.trans split)
      rw [sameRead] at otherReadable
      rw [parsed, otherParsed]
      exact .matched split
        (Slice.sameText_of_chars? textReadable otherReadable)

theorem pure
    {value other : α} (related : agrees value other) :
    Agree agrees (pure value) (pure other) := by
  intro left right chars leftReadable rightReadable
  have matched :
      (Outcome.matched value (left.leaving chars)).Agree agrees left right
        chars (.matched other (right.leaving chars)) :=
    .matched (List.nil_append chars).symm related
  rwa [Slice.leaving_self leftReadable,
    Slice.leaving_self rightReadable] at matched

theorem bind
    {p q : Parser α} {next following : α → Parser β}
    (first : Agree agrees p q)
    (second : ∀ value other, agrees value other →
      Agree concludes (next value) (following other)) :
    Agree concludes (p >>= next) (q >>= following) := by
  intro left right chars leftReadable rightReadable
  have firstAgree := first left right chars leftReadable rightReadable
  rw [parse_bind, parse_bind]
  generalize p.parse left = outcome, q.parse right = other at firstAgree ⊢
  cases firstAgree with
  | @matched read rest value other split related =>
      subst split
      have secondAgree :=
        second value other related (left.leaving rest) (right.leaving rest)
          rest (Slice.chars?_leaving leftReadable)
          (Slice.chars?_leaving rightReadable)
      exact secondAgree.behind
  | unmatched =>
      exact .unmatched

theorem map
    {p q : Parser α} {transform otherTransform : α → β}
    (agree : Agree agrees p q)
    (implied : ∀ value other, agrees value other →
      concludes (transform value) (otherTransform other)) :
    Agree concludes (transform <$> p) (otherTransform <$> q) := by
  rw [map_eq_pure_bind, map_eq_pure_bind]
  apply agree.bind
  intro value other related
  exact pure (implied value other related)

theorem seqRight
    {p q : Parser α} {further otherFurther : Parser β}
    (first : Agree agrees p q)
    (second : Agree concludes further otherFurther) :
    Agree concludes (p *> further) (q *> otherFurther) := by
  rw [seqRight_eq_bind, seqRight_eq_bind]
  exact first.bind fun _ _ _ => second

theorem seqLeft
    {p q : Parser α} {further otherFurther : Parser β}
    (first : Agree agrees p q)
    (second : Agree concludes further otherFurther) :
    Agree agrees (p <* further) (q <* otherFurther) := by
  rw [seqLeft_eq_bind, seqLeft_eq_bind]
  apply first.bind
  intro value other related
  exact second.bind fun _ _ _ => pure related

theorem orElse
    {p q alternative otherAlternative : Parser α}
    (first : Agree agrees p q)
    (second : Agree agrees alternative otherAlternative) :
    Agree agrees (p <|> alternative) (q <|> otherAlternative) := by
  intro left right chars leftReadable rightReadable
  have firstAgree := first left right chars leftReadable rightReadable
  rw [parse_orElse, parse_orElse]
  generalize p.parse left = outcome, q.parse right = other at firstAgree ⊢
  cases firstAgree with
  | matched split related =>
      exact .matched split related
  | unmatched =>
      exact second left right chars leftReadable rightReadable

/-- Both repetitions take the same rounds, since a round goes on in both runs if
it leaves fewer characters. -/
theorem gather
    {p q : Parser α} (agree : Agree agrees p q)
    {earlier otherEarlier : List α}
    (collected : List.Forall₂ agrees earlier otherEarlier)
    {left right : Slice} {chars : List Char}
    (leftReadable : left.chars? = some chars)
    (rightReadable : right.chars? = some chars) :
    (p.gather earlier left).Agree (List.Forall₂ agrees) left right chars
      (q.gather otherEarlier right) := by
  induction count : chars.length using Nat.strongRecOn
    generalizing earlier otherEarlier left right chars with
  | ind length inductionHypothesis =>
      have stopped :
          (Outcome.matched earlier left).Agree (List.Forall₂ agrees)
            left right chars (.matched otherEarlier right) :=
        Agree.pure collected left right chars leftReadable rightReadable
      have round := agree left right chars leftReadable rightReadable
      rw [Parser.gather, Parser.gather]
      generalize p.parse left = outcome, q.parse right = other at round ⊢
      cases round with
      | unmatched =>
          exact stopped
      | @matched read rest value other split related =>
          subst split
          have leftSize := Slice.size_leaving leftReadable
          have rightSize := Slice.size_leaving rightReadable
          have leftWhole := Slice.size_of_chars? leftReadable
          have rightWhole := Slice.size_of_chars? rightReadable
          simp only [leftSize, rightSize, leftWhole, rightWhole]
          by_cases shorter : byteLength rest < byteLength (read ++ rest)
          · simp only [if_pos shorter]
            have fewer : rest.length < length := by
              rw [← count]
              exact (byteLength_lt_iff_of_suffix
                (List.suffix_append read rest)).mp shorter
            have collectedMore :
                List.Forall₂ agrees (earlier ++ [value])
                  (otherEarlier ++ [other]) :=
              List.rel_append collected (.cons related .nil)
            have furtherAgree :=
              inductionHypothesis rest.length fewer collectedMore
                (Slice.chars?_leaving leftReadable)
                (Slice.chars?_leaving rightReadable) rfl
            exact furtherAgree.behind
          · simp only [if_neg shorter]
            exact stopped

theorem zeroOrMore
    {p q : Parser α} (agree : Agree agrees p q) :
    Agree (List.Forall₂ agrees) p.zeroOrMore q.zeroOrMore :=
  fun _ _ _ leftReadable rightReadable =>
    agree.gather .nil leftReadable rightReadable

theorem oneOrMore
    {p q : Parser α} (agree : Agree agrees p q) :
    Agree (List.Forall₂ agrees) p.oneOrMore q.oneOrMore := by
  intro left right chars leftReadable rightReadable
  have gathered := agree.gather .nil leftReadable rightReadable
  simp only [Parser.oneOrMore]
  generalize p.gather [] left = outcome,
    q.gather [] right = other at gathered ⊢
  cases gathered with
  | unmatched =>
      exact .unmatched
  | matched split related =>
      cases related with
      | nil =>
          exact .unmatched
      | cons first others =>
          exact .matched split (.cons first others)

theorem sepBy
    {p q : Parser α} {delimiter otherDelimiter : Parser β}
    (item : Agree agrees p q)
    (between : Agree concludes delimiter otherDelimiter) :
    Agree (List.Forall₂ agrees) (p.sepBy delimiter)
      (q.sepBy otherDelimiter) := by
  intro left right chars leftReadable rightReadable
  have firstAgree := item left right chars leftReadable rightReadable
  simp only [Parser.sepBy]
  generalize p.parse left = outcome, q.parse right = other at firstAgree ⊢
  cases firstAgree with
  | unmatched =>
      exact .unmatched
  | @matched read rest value other split related =>
      subst split
      have furtherAgree :=
        (between.seqRight item).gather (.cons related .nil)
          (Slice.chars?_leaving leftReadable)
          (Slice.chars?_leaving rightReadable)
      exact furtherAgree.behind

end Agree

/-! ## Parsers made alike -/

/-- Two parsers made in the same way from recognizers and values by the
combinators, where every function takes values that agree to values that agree
or to parsers made alike. Matched texts agree if they are the same text, and
values that hold no text may have to be equal. So a parser is made like itself
if its functions see of a slice only the text. -/
inductive MadeAlike :
    {α : Type} → (α → α → Prop) → Parser α → Parser α → Prop
  | ofRecognizer (r : Recognizer) :
      MadeAlike Slice.SameText (ofRecognizer r) (ofRecognizer r)
  | pure {α : Type} {agrees : α → α → Prop} {value other : α} :
      agrees value other → MadeAlike agrees (pure value) (pure other)
  | map {α β : Type} {agrees : α → α → Prop} {concludes : β → β → Prop}
      {p q : Parser α} {transform otherTransform : α → β} :
      MadeAlike agrees p q →
        (∀ value other, agrees value other →
          concludes (transform value) (otherTransform other)) →
        MadeAlike concludes (transform <$> p) (otherTransform <$> q)
  | bind {α β : Type} {agrees : α → α → Prop} {concludes : β → β → Prop}
      {p q : Parser α} {next following : α → Parser β} :
      MadeAlike agrees p q →
        (∀ value other, agrees value other →
          MadeAlike concludes (next value) (following other)) →
        MadeAlike concludes (p >>= next) (q >>= following)
  | seqRight {α β : Type} {agrees : α → α → Prop}
      {concludes : β → β → Prop} {p q : Parser α}
      {further otherFurther : Parser β} :
      MadeAlike agrees p q → MadeAlike concludes further otherFurther →
        MadeAlike concludes (p *> further) (q *> otherFurther)
  | seqLeft {α β : Type} {agrees : α → α → Prop}
      {concludes : β → β → Prop} {p q : Parser α}
      {further otherFurther : Parser β} :
      MadeAlike agrees p q → MadeAlike concludes further otherFurther →
        MadeAlike agrees (p <* further) (q <* otherFurther)
  | orElse {α : Type} {agrees : α → α → Prop}
      {p q alternative otherAlternative : Parser α} :
      MadeAlike agrees p q →
        MadeAlike agrees alternative otherAlternative →
        MadeAlike agrees (p <|> alternative) (q <|> otherAlternative)
  | orDefault {α : Type} {agrees : α → α → Prop} {p q : Parser α}
      {default otherDefault : α} :
      MadeAlike agrees p q → agrees default otherDefault →
        MadeAlike agrees (p.orDefault default) (q.orDefault otherDefault)
  | zeroOrMore {α : Type} {agrees : α → α → Prop} {p q : Parser α} :
      MadeAlike agrees p q →
        MadeAlike (List.Forall₂ agrees) p.zeroOrMore q.zeroOrMore
  | oneOrMore {α : Type} {agrees : α → α → Prop} {p q : Parser α} :
      MadeAlike agrees p q →
        MadeAlike (List.Forall₂ agrees) p.oneOrMore q.oneOrMore
  | sepBy {α β : Type} {agrees : α → α → Prop} {concludes : β → β → Prop}
      {p q : Parser α} {delimiter otherDelimiter : Parser β} :
      MadeAlike agrees p q → MadeAlike concludes delimiter otherDelimiter →
        MadeAlike (List.Forall₂ agrees) (p.sepBy delimiter)
          (q.sepBy otherDelimiter)

namespace MadeAlike

theorem agree
    {p q : Parser α} (alike : MadeAlike agrees p q) :
    Agree agrees p q := by
  induction alike with
  | ofRecognizer r =>
      exact .ofRecognizer r
  | pure related =>
      exact .pure related
  | map _ implied inductionHypothesis =>
      exact inductionHypothesis.map implied
  | bind _ _ firstAgree nextAgree =>
      exact firstAgree.bind nextAgree
  | seqRight _ _ firstAgree secondAgree =>
      exact firstAgree.seqRight secondAgree
  | seqLeft _ _ firstAgree secondAgree =>
      exact firstAgree.seqLeft secondAgree
  | orElse _ _ firstAgree secondAgree =>
      exact firstAgree.orElse secondAgree
  | orDefault _ related inductionHypothesis =>
      exact inductionHypothesis.orElse (.pure related)
  | zeroOrMore _ inductionHypothesis =>
      exact inductionHypothesis.zeroOrMore
  | oneOrMore _ inductionHypothesis =>
      exact inductionHypothesis.oneOrMore
  | sepBy _ _ itemAgree betweenAgree =>
      exact itemAgree.sepBy betweenAgree

/-- A parser that sees of slices only their texts does on a slice between two
boundaries what it does on a copy of its text. Both match or neither does, the
values agree, and the remainder begins as far behind the start of the slice as
it begins in the copy. -/
theorem parse_copy
    {p : Parser α} (alike : MadeAlike agrees p p)
    (buffer : Buffer) {start stop : Nat}
    (ordered : start ≤ stop)
    (startBoundary : IsBoundary buffer.chars start)
    (stopBoundary : IsBoundary buffer.chars stop) :
    ∃ text, Slice.text ⟨buffer, start, stop⟩ = .ok text ∧
      ((∃ value rest copied copyRest,
        p.parse ⟨buffer, start, stop⟩ = .matched value rest ∧
          p.parseString text = .matched copied copyRest ∧
          agrees value copied ∧
          rest.buffer = buffer ∧
          rest.start = copyRest.start + start ∧ rest.stop = stop) ∨
        (p.parse ⟨buffer, start, stop⟩ = .unmatched ∧
          p.parseString text = .unmatched)) := by
  obtain ⟨chars, readable⟩ :=
    exists_window?_iff.mpr ⟨ordered, startBoundary, stopBoundary⟩
  have sliceReadable :
      Slice.chars? ⟨buffer, start, stop⟩ = some chars := readable
  have copyReadable :
      (Slice.ofString (String.ofList chars)).chars? = some chars := by
    rw [Slice.chars?_ofString, String.toList_ofList]
  refine ⟨String.ofList chars, Slice.text_of_chars? sliceReadable, ?_⟩
  have outcomes :=
    alike.agree ⟨buffer, start, stop⟩ (.ofString (String.ofList chars))
      chars sliceReadable copyReadable
  rw [parseString]
  generalize p.parse ⟨buffer, start, stop⟩ = outcome,
    p.parse (.ofString (String.ofList chars)) = other at outcomes ⊢
  cases outcomes with
  | unmatched =>
      exact Or.inr ⟨rfl, rfl⟩
  | @matched read rest value copied split related =>
      refine Or.inl ⟨value, _, copied, _, rfl, rfl, related, rfl, ?_, rfl⟩
      subst split
      let copy := Slice.ofString (String.ofList (read ++ rest))
      have restStart : stop - byteLength rest = start + byteLength read :=
        Slice.stop_eq_of_chars? sliceReadable
      have copyRestStart :
          copy.stop - byteLength rest = 0 + byteLength read :=
        Slice.stop_eq_of_chars? copyReadable
      show stop - byteLength rest = copy.stop - byteLength rest + start
      rw [restStart, copyRestStart, Nat.zero_add, Nat.add_comm]

private theorem inTurn
    {parsers : List (Parser α)}
    (alike : ∀ p ∈ parsers, MadeAlike agrees p p) :
    MadeAlike (List.Forall₂ agrees) (Parser.inTurn parsers)
      (Parser.inTurn parsers) := by
  induction parsers with
  | nil =>
      exact .pure .nil
  | cons p others inductionHypothesis =>
      obtain ⟨firstAlike, othersAlike⟩ := List.forall_mem_cons.mp alike
      apply firstAlike.bind
      intro value other related
      apply (inductionHypothesis othersAlike).bind
      intro values otherValues relatedEach
      exact .pure (.cons related relatedEach)

private theorem exactly
    {p : Parser α} (alike : MadeAlike agrees p p) (count : Nat) :
    MadeAlike (List.Forall₂ agrees) (p.exactly count) (p.exactly count) := by
  apply inTurn
  intro q member
  rw [List.eq_of_mem_replicate member]
  exact alike

end MadeAlike

/-- The count is taken from the text of the digit and from nothing else. -/
theorem madeAlike_countedLetters :
    MadeAlike (List.Forall₂ Slice.SameText) countedLetters
      countedLetters := by
  apply MadeAlike.bind (.ofRecognizer .digit)
  rintro digit other ⟨numeral, read, otherRead⟩
  have numerals :
      MadeAlike (fun left right => left = right)
        (ofExcept digit.text) (ofExcept other.text) := by
    rw [read, otherRead]
    exact .pure rfl
  apply numerals.bind
  rintro numeral _ rfl
  exact MadeAlike.exactly (.ofRecognizer (.ofClass .lowercase)) _

/-- The counted groups of `é2ab,1cé` behind the first accent, and those of a
copy of this part. -/
theorem sepBy_countedLetters_parse_copy :
    let buffer : Buffer :=
      { chars := ['é', '2', 'a', 'b', ',', '1', 'c', 'é'] }
    let groups := countedLetters.sepBy (ofRecognizer (.literal ","))
    IsBoundary buffer.chars 2 ∧ IsBoundary buffer.chars 10 ∧
      MadeAlike (List.Forall₂ (List.Forall₂ Slice.SameText)) groups groups ∧
      ∃ values rest copied copyRest,
        groups.parse ⟨buffer, 2, 10⟩ = .matched values rest ∧
          groups.parseString "2ab,1cé" = .matched copied copyRest ∧
          List.Forall₂ (List.Forall₂ Slice.SameText) values copied ∧
          rest.start = copyRest.start + 2 ∧ rest.stop = 10 := by
  intro buffer groups
  have startBoundary : IsBoundary buffer.chars 2 := by decide
  have stopBoundary : IsBoundary buffer.chars 10 := by decide
  have alike :
      MadeAlike (List.Forall₂ (List.Forall₂ Slice.SameText)) groups groups :=
    madeAlike_countedLetters.sepBy (.ofRecognizer (.literal ","))
  have found : groups.parse ⟨buffer, 2, 10⟩ ≠ .unmatched := by
    decide +kernel
  have copyText : Slice.text ⟨buffer, 2, 10⟩ = .ok "2ab,1cé" := by
    decide +kernel
  obtain ⟨text, textRead, outcomes⟩ :=
    alike.parse_copy buffer (by decide : 2 ≤ 10) startBoundary stopBoundary
  obtain rfl := Except.ok.inj (copyText.symm.trans textRead)
  refine ⟨startBoundary, stopBoundary, alike, ?_⟩
  rcases outcomes with
    ⟨values, rest, copied, copyRest, matched, copyMatched, related, _,
      startEq, stopEq⟩ | ⟨unmatched, _⟩
  · exact ⟨values, rest, copied, copyRest, matched, copyMatched, related,
      startEq, stopEq⟩
  · exact absurd unmatched found

end Parser

end TextGrammar
