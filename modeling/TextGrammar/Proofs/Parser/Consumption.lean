import TextGrammar.Numeral
import TextGrammar.Parser.Repetition
import TextGrammar.Proofs.Recognizer.Window

/-!
What parsers consume. A parser that is made from recognizers and values by the
combinators reads on from where its input begins, so what it leaves is a final
part of its input, and no combinator cuts a slice outside its bounds. One lemma
says it of each combinator, and the main statement
`Made.leaves_final_part` follows by induction over how the parser is made.
-/

namespace TextGrammar

/-- A slice that begins within another one and ends where that ends. It begins
between two characters if the other one does. -/
structure Slice.FinalPartOf (rest input : Slice) : Prop where
  buffer_eq : rest.buffer = input.buffer
  stop_eq : rest.stop = input.stop
  start_le : input.start ≤ rest.start
  ordered : rest.start ≤ rest.stop
  isBoundary :
    IsBoundary input.buffer.chars input.start →
      IsBoundary rest.buffer.chars rest.start

namespace Slice.FinalPartOf

variable {input middle rest : Slice}

theorem refl (inBounds : input.InBounds) : input.FinalPartOf input :=
  ⟨rfl, rfl, Nat.le_refl _, inBounds.1, id⟩

theorem trans
    (further : rest.FinalPartOf middle) (first : middle.FinalPartOf input) :
    rest.FinalPartOf input where
  buffer_eq := further.buffer_eq.trans first.buffer_eq
  stop_eq := further.stop_eq.trans first.stop_eq
  start_le := Nat.le_trans first.start_le further.start_le
  ordered := further.ordered
  isBoundary boundary := further.isBoundary (first.isBoundary boundary)

theorem inBounds
    (final : rest.FinalPartOf input) (inBounds : input.InBounds) :
    rest.InBounds := by
  refine ⟨final.ordered, ?_⟩
  rw [final.stop_eq, final.buffer_eq]
  exact inBounds.2

end Slice.FinalPartOf

/-- A match leaves a final part of the input, and any fault is one of those that
may be raised. -/
def Outcome.Within
    {α : Type} (raised : Fault → Prop) (input : Slice) : Outcome α → Prop
  | .matched _ rest => rest.FinalPartOf input
  | .unmatched => True
  | .fault cause => raised cause

theorem Outcome.Within.trans
    {α : Type} {raised : Fault → Prop} {input middle : Slice}
    {outcome : Outcome α}
    (within : outcome.Within raised middle)
    (first : middle.FinalPartOf input) :
    outcome.Within raised input := by
  cases outcome with
  | matched value rest =>
      have final : rest.FinalPartOf middle := within
      exact final.trans first
  | unmatched =>
      trivial
  | fault cause =>
      exact within

namespace Parser

variable {α β : Type} {raised : Fault → Prop}

/-- The offset where a recognizer stops lies within the slice, so the parser
splits the slice there. -/
theorem parse_ofRecognizer
    (r : Recognizer) {input : Slice} (inBounds : input.InBounds) :
    (Parser.ofRecognizer r).parse input =
      (r.matchIn input.buffer.chars input.start input.stop).elim .unmatched
        fun finish =>
          .matched ⟨input.buffer, input.start, finish⟩
            ⟨input.buffer, finish, input.stop⟩ := by
  rw [Parser.ofRecognizer]
  cases found : r.matchIn input.buffer.chars input.start input.stop with
  | none =>
      simp only [found, Option.elim_none]
  | some finish =>
      obtain ⟨forward, inside, _⟩ := Recognizer.bounds_of_matchIn found
      have made :
          input.splitAt finish =
            .ok (⟨input.buffer, input.start, finish⟩,
              ⟨input.buffer, finish, input.stop⟩) :=
        (Slice.splitAt_eq_ok_iff inBounds).mpr
          ⟨⟨forward, inside⟩, rfl, rfl⟩
      simp only [found, made, Option.elim_some]

def Confined (raised : Fault → Prop) (p : Parser α) : Prop :=
  ∀ input, input.InBounds → (p.parse input).Within raised input

namespace Confined

theorem pure (value : α) : (pure value : Parser α).Confined raised :=
  fun _ inBounds => .refl inBounds

theorem ofExcept
    {result : Except Fault α}
    (raises : ∀ cause, result = .error cause → raised cause) :
    (Parser.ofExcept result).Confined raised := by
  intro input inBounds
  cases result with
  | ok value =>
      exact Slice.FinalPartOf.refl inBounds
  | error cause =>
      exact raises cause rfl

theorem ofRecognizer
    (r : Recognizer) : (Parser.ofRecognizer r).Confined raised := by
  intro input inBounds
  rw [parse_ofRecognizer r inBounds]
  cases found : r.matchIn input.buffer.chars input.start input.stop with
  | none =>
      trivial
  | some finish =>
      obtain ⟨forward, inside, boundary⟩ := Recognizer.bounds_of_matchIn found
      exact ⟨rfl, rfl, forward, inside, fun _ => boundary⟩

theorem bind
    {p : Parser α} {next : α → Parser β}
    (first : p.Confined raised)
    (second : ∀ value, (next value).Confined raised) :
    (p >>= next).Confined raised := by
  intro input inBounds
  have firstWithin := first input inBounds
  rw [parse_bind]
  cases parsed : p.parse input with
  | matched value rest =>
      rw [parsed] at firstWithin
      have final : rest.FinalPartOf input := firstWithin
      have secondWithin := second value rest (final.inBounds inBounds)
      exact secondWithin.trans final
  | unmatched =>
      trivial
  | fault cause =>
      rwa [parsed] at firstWithin

theorem map
    {p : Parser α} (transform : α → β)
    (confined : p.Confined raised) : (transform <$> p).Confined raised := by
  rw [map_eq_pure_bind]
  exact confined.bind fun value => pure (transform value)

theorem seqRight
    {p : Parser α} {q : Parser β}
    (first : p.Confined raised) (second : q.Confined raised) :
    (p *> q).Confined raised := by
  rw [seqRight_eq_bind]
  exact first.bind fun _ => second

theorem seqLeft
    {p : Parser α} {q : Parser β}
    (first : p.Confined raised) (second : q.Confined raised) :
    (p <* q).Confined raised := by
  rw [seqLeft_eq_bind]
  exact first.bind fun value => second.bind fun _ => pure value

/-- The alternative starts from the same input as the first parser. -/
theorem orElse
    {p q : Parser α}
    (first : p.Confined raised) (second : q.Confined raised) :
    (p <|> q).Confined raised := by
  intro input inBounds
  have firstWithin := first input inBounds
  rw [parse_orElse]
  cases parsed : p.parse input with
  | matched value rest =>
      rwa [parsed] at firstWithin
  | unmatched =>
      exact second input inBounds
  | fault cause =>
      rwa [parsed] at firstWithin

/-- Every round of a repetition goes on from what the last one left. -/
theorem gather
    {p : Parser α} (confined : p.Confined raised) (earlier : List α)
    {input : Slice} (inBounds : input.InBounds) :
    (p.gather earlier input).Within raised input := by
  fun_induction Parser.gather p earlier input with
  | case1 earlier input value rest parsed shorter inductionHypothesis =>
      have within := confined input inBounds
      rw [parsed] at within
      have final : rest.FinalPartOf input := within
      exact (inductionHypothesis (final.inBounds inBounds)).trans final
  | case2 earlier input value rest parsed longer =>
      exact Slice.FinalPartOf.refl inBounds
  | case3 earlier input parsed =>
      exact Slice.FinalPartOf.refl inBounds
  | case4 earlier input cause parsed =>
      have within := confined input inBounds
      rwa [parsed] at within

theorem zeroOrMore
    {p : Parser α} (confined : p.Confined raised) :
    p.zeroOrMore.Confined raised :=
  fun _ inBounds => confined.gather [] inBounds

theorem oneOrMore
    {p : Parser α} (confined : p.Confined raised) :
    p.oneOrMore.Confined raised := by
  intro input inBounds
  have within := confined.gather [] inBounds
  simp only [Parser.oneOrMore]
  split
  · trivial
  · exact within

theorem sepBy
    {p : Parser α} {delimiter : Parser β}
    (item : p.Confined raised) (between : delimiter.Confined raised) :
    (p.sepBy delimiter).Confined raised := by
  intro input inBounds
  have itemWithin := item input inBounds
  rw [Parser.sepBy]
  cases parsed : p.parse input with
  | matched first rest =>
      rw [parsed] at itemWithin
      have final : rest.FinalPartOf input := itemWithin
      have furtherWithin :=
        (between.seqRight item).gather [first] (final.inBounds inBounds)
      simp only [parsed]
      exact furtherWithin.trans final
  | unmatched =>
      simp only [parsed]
      trivial
  | fault cause =>
      rw [parsed] at itemWithin
      simp only [parsed]
      exact itemWithin

end Confined

/-! ## Parsers made by the combinators -/

/-- A parser that is made from recognizers and values by the combinators. What
follows a value may be any such parser that a function chooses from the value,
and a function may raise the faults `raised` of its own. -/
inductive Made (raised : Fault → Prop) : {α : Type} → Parser α → Prop
  | ofRecognizer (r : Recognizer) : Made raised (ofRecognizer r)
  | pure {α : Type} (value : α) : Made raised (pure value : Parser α)
  | ofExcept {α : Type} {result : Except Fault α} :
      (∀ cause, result = .error cause → raised cause) →
        Made raised (ofExcept result)
  | map {α β : Type} {p : Parser α} (transform : α → β) :
      Made raised p → Made raised (transform <$> p)
  | bind {α β : Type} {p : Parser α} {next : α → Parser β} :
      Made raised p → (∀ value, Made raised (next value)) →
        Made raised (p >>= next)
  | seqRight {α β : Type} {p : Parser α} {q : Parser β} :
      Made raised p → Made raised q → Made raised (p *> q)
  | seqLeft {α β : Type} {p : Parser α} {q : Parser β} :
      Made raised p → Made raised q → Made raised (p <* q)
  | orElse {α : Type} {p q : Parser α} :
      Made raised p → Made raised q → Made raised (p <|> q)
  | orDefault {α : Type} {p : Parser α} (default : α) :
      Made raised p → Made raised (p.orDefault default)
  | zeroOrMore {α : Type} {p : Parser α} :
      Made raised p → Made raised p.zeroOrMore
  | oneOrMore {α : Type} {p : Parser α} :
      Made raised p → Made raised p.oneOrMore
  | sepBy {α β : Type} {p : Parser α} {delimiter : Parser β} :
      Made raised p → Made raised delimiter →
        Made raised (p.sepBy delimiter)

namespace Made

theorem confined
    {p : Parser α} (made : Made raised p) : p.Confined raised := by
  induction made with
  | ofRecognizer r =>
      exact .ofRecognizer r
  | pure value =>
      exact .pure value
  | ofExcept raises =>
      exact .ofExcept raises
  | map transform _ inductionHypothesis =>
      exact inductionHypothesis.map transform
  | bind _ _ firstConfined nextConfined =>
      exact firstConfined.bind nextConfined
  | seqRight _ _ firstConfined secondConfined =>
      exact firstConfined.seqRight secondConfined
  | seqLeft _ _ firstConfined secondConfined =>
      exact firstConfined.seqLeft secondConfined
  | orElse _ _ firstConfined secondConfined =>
      exact firstConfined.orElse secondConfined
  | orDefault default _ inductionHypothesis =>
      exact inductionHypothesis.orElse (.pure default)
  | zeroOrMore _ inductionHypothesis =>
      exact inductionHypothesis.zeroOrMore
  | oneOrMore _ inductionHypothesis =>
      exact inductionHypothesis.oneOrMore
  | sepBy _ _ itemConfined betweenConfined =>
      exact itemConfined.sepBy betweenConfined

/-- A parser made by the combinators leaves a final part of its input, in the
same buffer, with bounds that are boundaries if those of the input are. No slice
is made or split outside its bounds: every fault is one that a function raises
by itself, so there is none if no function raises any. -/
theorem leaves_final_part
    {p : Parser α} (made : Made raised p)
    {input : Slice} (inBounds : input.InBounds) :
    (∀ cause, p.parse input = .fault cause → raised cause) ∧
      ∀ value rest, p.parse input = .matched value rest →
        rest.buffer = input.buffer ∧
          rest.stop = input.stop ∧
          input.start ≤ rest.start ∧ rest.start ≤ input.stop ∧
          (IsBoundary input.buffer.chars input.start →
            IsBoundary input.buffer.chars input.stop →
              IsBoundary rest.buffer.chars rest.start ∧
                IsBoundary rest.buffer.chars rest.stop) := by
  have within := made.confined input inBounds
  constructor
  · intro cause faulted
    rwa [faulted] at within
  · intro value rest matched
    rw [matched] at within
    have final : rest.FinalPartOf input := within
    refine ⟨final.buffer_eq, final.stop_eq, final.start_le, ?_, ?_⟩
    · rw [← final.stop_eq]
      exact final.ordered
    · intro startBoundary stopBoundary
      refine ⟨final.isBoundary startBoundary, ?_⟩
      rw [final.buffer_eq, final.stop_eq]
      exact stopBoundary

private theorem inTurn
    {parsers : List (Parser α)} (made : ∀ p ∈ parsers, Made raised p) :
    Made raised (Parser.inTurn parsers) := by
  induction parsers with
  | nil =>
      exact .pure []
  | cons p others inductionHypothesis =>
      obtain ⟨firstMade, othersMade⟩ := List.forall_mem_cons.mp made
      have othersInTurn := inductionHypothesis othersMade
      exact firstMade.bind fun value =>
        othersInTurn.bind fun values => .pure (value :: values)

private theorem exactly
    {p : Parser α} (made : Made raised p) (count : Nat) :
    Made raised (p.exactly count) := by
  apply inTurn
  intro q member
  rw [List.eq_of_mem_replicate member]
  exact made

end Made

def countedLetters : Parser (List Slice) := do
  let digit ← ofRecognizer .digit
  let numeral ← digit.text
  (ofRecognizer (.ofClass .lowercase)).exactly
    (Numeral.leadingValue numeral).toNat

private theorem made_countedLetters
    (unreadable : ∀ start stop, raised (.unreadable start stop)) :
    Made raised countedLetters := by
  apply Made.bind (.ofRecognizer .digit)
  intro digit
  apply Made.bind
  · apply Made.ofExcept
    intro cause failed
    unfold Slice.text at failed
    split at failed
    · contradiction
    · rw [← Except.error.inj failed]
      exact unreadable _ _
  · intro numeral
    exact Made.exactly (.ofRecognizer (.ofClass .lowercase)) _

/-- Two counted groups between the accents of `é2ab,1cé`. -/
theorem sepBy_countedLetters_leaves_final_part :
    let buffer : Buffer :=
      { chars := ['é', '2', 'a', 'b', ',', '1', 'c', 'é'] }
    let groups := countedLetters.sepBy (ofRecognizer (.literal ","))
    let unreadable : Fault → Prop :=
      fun cause => ∃ start stop, cause = .unreadable start stop
    Made unreadable groups ∧ Slice.InBounds ⟨buffer, 2, 10⟩ ∧
      ∃ values rest, groups.parse ⟨buffer, 2, 10⟩ = .matched values rest ∧
        values.map List.length = [2, 1] ∧
        rest.buffer = buffer ∧ rest.stop = 10 ∧
        2 ≤ rest.start ∧ rest.start ≤ 10 ∧
        IsBoundary rest.buffer.chars rest.start := by
  intro buffer groups unreadable
  have counted : Made unreadable countedLetters :=
    made_countedLetters fun start stop => ⟨start, stop, rfl⟩
  have made : Made unreadable groups :=
    counted.sepBy (.ofRecognizer (.literal ","))
  have inBounds : Slice.InBounds ⟨buffer, 2, 10⟩ := by decide
  have parsed :
      groups.parse ⟨buffer, 2, 10⟩ =
        .matched
          [[⟨buffer, 3, 4⟩, ⟨buffer, 4, 5⟩], [⟨buffer, 7, 8⟩]]
          ⟨buffer, 8, 10⟩ := by
    decide +kernel
  obtain ⟨sameBuffer, sameStop, forward, inside, boundaries⟩ :=
    (made.leaves_final_part inBounds).2 _ _ parsed
  exact ⟨made, inBounds, _, _, parsed, rfl, sameBuffer, sameStop, forward,
    inside, (boundaries (by decide) (by decide)).1⟩

end Parser

end TextGrammar
