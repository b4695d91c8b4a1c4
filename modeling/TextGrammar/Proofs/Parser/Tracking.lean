import TextGrammar.Proofs.Parser.Consumption
import TextGrammar.Proofs.Slice.Reading

/-!
Parsers that track a step on characters. A step says what is left of the
characters, like the `consume` of a recognizer. A parser tracks it if, on every
slice that can be read, it leaves just what the step leaves of the slice's
characters, does not match where the step is stuck, and never faults. Every way
of combining parsers combines the steps that they track, so two grammars can be
compared by comparing steps.
-/

namespace TextGrammar

namespace Parser

variable {α β : Type}

/-- Relates what a step makes of characters to what a parser makes of a slice
that has them. A match leaves what the step leaves, and its value fits the
characters that were read. -/
inductive Fits
    (relates : List Char → α → Prop) (input : Slice) (chars : List Char) :
    Option (List Char) → Outcome α → Prop
  | matched {read rest : List Char} {value : α} :
      chars = read ++ rest → relates read value →
        Fits relates input chars (some rest)
          (.matched value (input.leaving rest))
  | unmatched :
      Fits relates input chars none .unmatched

/-- On every slice that can be read, the parser does what the step does. -/
def Tracks
    (p : Parser α) (step : List Char → Option (List Char))
    (relates : List Char → α → Prop) : Prop :=
  ∀ input chars, input.chars? = some chars →
    Fits relates input chars (step chars) (p.parse input)

namespace Tracks

variable {p : Parser α} {step : List Char → Option (List Char)}
  {relates : List Char → α → Prop}

theorem of_none
    {input : Slice} {chars : List Char}
    (tracks : p.Tracks step relates)
    (readable : input.chars? = some chars)
    (stuck : step chars = none) :
    p.parse input = .unmatched := by
  have fits := tracks input chars readable
  rw [stuck] at fits
  generalize p.parse input = outcome at fits ⊢
  cases fits with
  | unmatched =>
      rfl

theorem of_some
    {input : Slice} {chars rest : List Char}
    (tracks : p.Tracks step relates)
    (readable : input.chars? = some chars)
    (found : step chars = some rest) :
    ∃ read value, chars = read ++ rest ∧ relates read value ∧
      p.parse input = .matched value (input.leaving rest) := by
  have fits := tracks input chars readable
  rw [found] at fits
  generalize p.parse input = outcome at fits ⊢
  cases fits with
  | matched split holds =>
      exact ⟨_, _, split, holds, rfl⟩

theorem congr
    {other : List Char → Option (List Char)}
    (tracks : p.Tracks step relates)
    (same : ∀ chars, step chars = other chars) :
    p.Tracks other relates := by
  rwa [← funext same]

theorem weaken
    {weaker : List Char → α → Prop}
    (tracks : p.Tracks step relates)
    (implied : ∀ read value, relates read value → weaker read value) :
    p.Tracks step weaker := by
  intro input chars readable
  have fits := tracks input chars readable
  generalize step chars = stepped, p.parse input = outcome at fits ⊢
  cases fits with
  | matched split holds =>
      exact .matched split (implied _ _ holds)
  | unmatched =>
      exact .unmatched

theorem pure
    {value : α} (holds : relates [] value) :
    (pure value : Parser α).Tracks some relates := by
  intro input chars readable
  have matched :
      Fits relates input chars (some chars)
        (.matched value (input.leaving chars)) :=
    .matched (List.nil_append chars).symm holds
  rwa [Slice.leaving_self readable] at matched

theorem failure : (failure : Parser α).Tracks (fun _ => none) relates :=
  fun _ _ _ => .unmatched

/-- A parser after another tracks one step after the other. The second parser
may depend on the value of the first and so on the characters it has read. -/
theorem bind
    {next : α → Parser β} {following : List Char → Option (List Char)}
    {concludes : List Char → β → Prop}
    (first : p.Tracks step relates)
    (second : ∀ read value, relates read value →
      (next value).Tracks following fun more result =>
        concludes (read ++ more) result) :
    (p >>= next).Tracks (fun chars => (step chars).bind following)
      concludes := by
  intro input chars readable
  have fits := first input chars readable
  show Fits concludes input chars ((step chars).bind following) _
  rw [parse_bind]
  generalize step chars = stepped, p.parse input = outcome at fits ⊢
  cases fits with
  | unmatched =>
      exact .unmatched
  | @matched read rest value split holds =>
      subst split
      have restReadable := Slice.chars?_leaving readable
      have nextFits :=
        second read value holds (input.leaving rest) rest restReadable
      show Fits concludes input (read ++ rest) (following rest)
        ((next value).parse (input.leaving rest))
      generalize following rest = stepped,
        (next value).parse (input.leaving rest) = outcome at nextFits ⊢
      cases nextFits with
      | unmatched =>
          exact .unmatched
      | @matched more last result split concluded =>
          subst split
          rw [Slice.leaving_leaving]
          exact .matched (List.append_assoc read more last).symm concluded

theorem map
    {transform : α → β} {concludes : List Char → β → Prop}
    (tracks : p.Tracks step relates)
    (implied : ∀ read value, relates read value →
      concludes read (transform value)) :
    (transform <$> p).Tracks step concludes := by
  rw [map_eq_pure_bind]
  apply congr
  · apply tracks.bind
    intro read value holds
    apply Tracks.pure
    rw [List.append_nil]
    exact implied read value holds
  · intro chars
    exact Option.bind_fun_some (step chars)

/-- A parser whose value is dropped before another one. -/
theorem seqRight
    {q : Parser β} {following : List Char → Option (List Char)}
    {concludes : List Char → β → Prop}
    (first : p.Tracks step relates)
    (second : ∀ read value, relates read value →
      q.Tracks following fun more result =>
        concludes (read ++ more) result) :
    (p *> q).Tracks (fun chars => (step chars).bind following)
      concludes := by
  rw [seqRight_eq_bind]
  exact first.bind second

theorem orElse
    {q : Parser α} {other : List Char → Option (List Char)}
    (first : p.Tracks step relates)
    (second : q.Tracks other relates) :
    (p <|> q).Tracks (fun chars => (step chars).or (other chars)) relates := by
  intro input chars readable
  have fits := first input chars readable
  show Fits relates input chars ((step chars).or (other chars)) _
  rw [parse_orElse]
  generalize step chars = stepped, p.parse input = outcome at fits ⊢
  cases fits with
  | unmatched =>
      exact second input chars readable
  | matched split holds =>
      exact .matched split holds

/-- A result of reading slices that does not fault tracks the step that
consumes nothing. -/
theorem ofExcept
    {result : Except Fault α} {value : α}
    (computed : result = .ok value) (holds : relates [] value) :
    (Parser.ofExcept result).Tracks some relates := by
  rw [computed]
  exact Tracks.pure holds

/-- The parser of a recognizer reads the text that the recognizer consumes. -/
theorem ofRecognizer
    (r : Recognizer) :
    (Parser.ofRecognizer r).Tracks r.consume fun read text =>
      text.chars? = some read := by
  intro input chars readable
  have window :
      window? input.buffer.chars input.start input.stop = some chars :=
    readable
  show Fits _ input chars (r.consume chars) _
  rw [parse_ofRecognizer r (Slice.inBounds_of_chars? readable),
    r.matchIn_of_window? window]
  cases consumed : r.consume chars with
  | none =>
      exact .unmatched
  | some rest =>
      rcases r.suffix_of_consume chars rest consumed with ⟨read, rfl⟩
      apply Fits.matched rfl
      show window? input.buffer.chars input.start
        (input.stop - byteLength rest) = some read
      rw [Slice.stop_eq_of_chars? readable]
      exact (window?_of_append readable).1

/-- The text of a token stands behind the blanks that were read before it. -/
theorem token
    (r : Recognizer) :
    (Parser.token r).Tracks (Recognizer.token r).consume fun read text =>
      ∃ spaces word, read = spaces ++ word ∧ text.chars? = some word := by
  apply Tracks.congr
  · apply (ofRecognizer .blanks).seqRight
    intro spaces _ _
    apply (ofRecognizer r).weaken
    intro word text readable
    exact ⟨spaces, word, rfl, readable⟩
  · intro chars
    rw [Recognizer.token, Recognizer.consume_sequence]
    simp only [Recognizer.consumeEach_cons, Recognizer.consumeEach_nil,
      Option.bind_fun_some]

/-- An optional match reads nothing where there is none. -/
theorem optional
    {relates' : List Char → Option α → Prop}
    (tracks : p.Tracks step relates)
    (present : ∀ read value, relates read value →
      relates' read (some value))
    (absent : relates' [] none) :
    (optional p).Tracks (fun chars => (step chars).or (some chars))
      relates' :=
  (tracks.map present).orElse (pure absent)

/-- The values of a repetition and the characters that they were read from, of
which every item has some. -/
inductive Repeated (relates : List Char → α → Prop) :
    List Char → List α → Prop
  | nil : Repeated relates [] []
  | cons {read more : List Char} {value : α} {values : List α} :
      read ≠ [] → relates read value → Repeated relates more values →
        Repeated relates (read ++ more) (value :: values)

/-- A repetition collects the items of a step that is repeated while it shortens
the characters. -/
theorem gather
    (tracks : p.Tracks step relates) (earlier : List α)
    {input : Slice} {chars : List Char}
    (readable : input.chars? = some chars) :
    ∃ read values, chars = read ++ exhaust step chars ∧
      Repeated relates read values ∧
      p.gather earlier input =
        .matched (earlier ++ values)
          (input.leaving (exhaust step chars)) := by
  fun_induction exhaust step chars generalizing earlier input with
  | case1 chars stuck =>
      refine ⟨[], [], rfl, .nil, ?_⟩
      rw [Parser.gather, tracks.of_none readable stuck,
        Slice.leaving_self readable, List.append_nil]
  | case2 chars rest found shorter inductionHypothesis =>
      obtain ⟨read, value, rfl, holds, parsed⟩ :=
        tracks.of_some readable found
      have progress : (input.leaving rest).size < input.size := by
        rw [Slice.size_leaving readable, Slice.size_of_chars? readable]
        exact (byteLength_lt_iff_of_suffix
          (List.suffix_append read rest)).mpr shorter
      have nonempty : read ≠ [] := by
        rintro rfl
        exact Nat.lt_irrefl _ shorter
      obtain ⟨more, values, split, repeated, gathered⟩ :=
        inductionHypothesis (earlier ++ [value])
          (Slice.chars?_leaving readable)
      refine ⟨read ++ more, value :: values, ?_,
        .cons nonempty holds repeated, ?_⟩
      · rw [List.append_assoc, ← split]
      · rw [Parser.gather, parsed]
        simp only [progress, if_true]
        rw [gathered, Slice.leaving_leaving, List.append_assoc,
          List.singleton_append]
  | case3 chars rest found longer =>
      rcases tracks.of_some readable found with ⟨read, value, rfl, _, parsed⟩
      have stalled : ¬ (input.leaving rest).size < input.size := by
        rw [Slice.size_leaving readable, Slice.size_of_chars? readable,
          byteLength_lt_iff_of_suffix (List.suffix_append read rest)]
        exact longer
      refine ⟨[], [], rfl, .nil, ?_⟩
      rw [Parser.gather, parsed, Slice.leaving_self readable,
        List.append_nil]
      simp only [stalled, if_false]

theorem zeroOrMore
    (tracks : p.Tracks step relates) :
    p.zeroOrMore.Tracks (fun chars => some (exhaust step chars))
      (Repeated relates) := by
  intro input chars readable
  obtain ⟨read, values, split, repeated, gathered⟩ :=
    tracks.gather [] readable
  show Fits _ input chars (some (exhaust step chars)) (p.gather [] input)
  rw [gathered]
  exact .matched split repeated

/-- A repetition of at least one item matches just if it reads something. -/
theorem oneOrMore
    (tracks : p.Tracks step relates) :
    p.oneOrMore.Tracks
      (fun chars =>
        if (exhaust step chars).length < chars.length then
          some (exhaust step chars)
        else
          none)
      (Repeated relates) := by
  intro input chars readable
  obtain ⟨read, values, split, repeated, gathered⟩ :=
    tracks.gather [] readable
  have lengths := congrArg List.length split
  rw [List.length_append] at lengths
  simp only [Parser.oneOrMore, gathered]
  cases repeated with
  | nil =>
      rw [if_neg (by rw [lengths]; simp)]
      exact .unmatched
  | @cons read more value values nonempty holds others =>
      have positive := List.length_pos_iff.mpr nonempty
      rw [List.length_append] at lengths
      rw [if_pos (by omega)]
      exact .matched split (.cons nonempty holds others)

def Separated
    (between : List Char → β → Prop) (relates : List Char → α → Prop)
    (read : List Char) (values : List α) : Prop :=
  ∃ word more value others,
    read = word ++ more ∧ values = value :: others ∧ relates word value ∧
      Repeated
        (fun read value => ∃ gap word delimiter,
          read = gap ++ word ∧ between gap delimiter ∧ relates word value)
        more others

theorem sepBy
    {q : Parser β} {gap : List Char → Option (List Char)}
    {between : List Char → β → Prop}
    (item : p.Tracks step relates) (delimiter : q.Tracks gap between) :
    (p.sepBy q).Tracks
      (fun chars =>
        (step chars).map (exhaust fun chars => (gap chars).bind step))
      (Separated between relates) := by
  have further :
      (q *> p).Tracks (fun chars => (gap chars).bind step)
        (fun read value => ∃ gap word delimiter,
          read = gap ++ word ∧ between gap delimiter ∧ relates word value) := by
    apply delimiter.seqRight
    intro gap separator separates
    apply item.weaken
    intro word value holds
    exact ⟨gap, word, separator, rfl, separates, holds⟩
  intro input chars readable
  cases stepped : step chars with
  | none =>
      simp only [stepped, Parser.sepBy, item.of_none readable stepped]
      exact .unmatched
  | some rest =>
      obtain ⟨word, value, rfl, holds, parsed⟩ :=
        item.of_some readable stepped
      obtain ⟨more, others, split, repeated, gathered⟩ :=
        further.gather [value] (Slice.chars?_leaving readable)
      simp only [stepped, Parser.sepBy, parsed, gathered, Option.map_some,
        Slice.leaving_leaving]
      have readFirst :
          word ++ rest =
            (word ++ more) ++
              exhaust (fun chars => (gap chars).bind step) rest := by
        rw [List.append_assoc, ← split]
      exact .matched readFirst
        ⟨word, more, value, others, rfl, rfl, holds, repeated⟩

end Tracks

end Parser

end TextGrammar
