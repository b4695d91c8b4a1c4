import TextGrammar.Parser.Repetition

/-!
What repetitions of parsers take. A round of a repetition is a match that leaves
a shorter slice than it was given. A repetition goes through its rounds with one
outcome (`ShrinkingRun.gather_eq`), and ends where no further round begins.
Nothing is asked of the parser: it may leave a longer slice, one of another
buffer or the input it began with. The main statements are
`zeroOrMore_takes_shrinkingRun`, and `repetition_laws` by which a list with
delimiters is a repetition too.
-/

namespace TextGrammar.Parser

variable {α β γ : Type}

/-- The rounds of a repetition from an input to the slice that the last of them
leaves, by the values that they give. -/
inductive ShrinkingRun (p : Parser α) :
    (input : Slice) → (values : List α) → (last : Slice) → Prop
  | refl (input : Slice) : ShrinkingRun p input [] input
  /-- A match leaves a shorter slice, and the run goes on from there. -/
  | round {input rest last : Slice} {value : α} {values : List α}
      (parsed : p.parse input = .matched value rest)
      (shorter : rest.size < input.size)
      (others : ShrinkingRun p rest values last) :
      ShrinkingRun p input (value :: values) last

/-- There is no match of a slice, or only one that leaves no shorter slice. -/
def Stalls (p : Parser α) (input : Slice) : Prop :=
  p.parse input = .unmatched ∨
    ∃ value rest, p.parse input = .matched value rest ∧
      input.size ≤ rest.size

/-- From every slice there is a run after which no round is left. -/
theorem exists_shrinkingRun
    (p : Parser α) (input : Slice) :
    ∃ values last, ShrinkingRun p input values last ∧
      (p.Stalls last ∨ ∃ cause, p.parse last = .fault cause) := by
  induction size : input.size using Nat.strongRecOn generalizing input with
  | ind bytes inductionHypothesis =>
      cases parsed : p.parse input with
      | matched value rest =>
          by_cases shorter : rest.size < input.size
          · obtain ⟨values, last, others, ended⟩ :=
              inductionHypothesis rest.size (size ▸ shorter) rest rfl
            exact ⟨value :: values, last, .round parsed shorter others, ended⟩
          · exact ⟨[], input, .refl input,
              .inl (.inr ⟨value, rest, parsed, Nat.not_lt.mp shorter⟩)⟩
      | unmatched =>
          exact ⟨[], input, .refl input, .inl (.inl parsed)⟩
      | fault cause =>
          exact ⟨[], input, .refl input, .inr ⟨cause, parsed⟩⟩

namespace ShrinkingRun

variable {p : Parser α} {input last : Slice} {values : List α}

/-- Every round takes at least one byte. -/
theorem length_add_size_le
    (run : ShrinkingRun p input values last) :
    values.length + last.size ≤ input.size := by
  induction run with
  | refl input =>
      simp
  | round parsed shorter others inductionHypothesis =>
      rw [List.length_cons]
      omega

/-- A repetition goes on from the end of a run with the values of the run. -/
theorem gather_eq
    (run : ShrinkingRun p input values last) (earlier : List α) :
    p.gather earlier input = p.gather (earlier ++ values) last := by
  induction run generalizing earlier with
  | refl input =>
      rw [List.append_nil]
  | @round input rest last value values parsed shorter others
      inductionHypothesis =>
      calc p.gather earlier input
          = p.gather (earlier ++ [value]) rest := by
            rw [gather, parsed]
            exact if_pos shorter
        _ = p.gather (earlier ++ [value] ++ values) last :=
            inductionHypothesis _
        _ = p.gather (earlier ++ value :: values) last := by
            rw [List.append_assoc, List.singleton_append]

/-- Where the parser stalls the values are complete, and what it matches there
is dropped. -/
theorem gather_of_stalls
    (run : ShrinkingRun p input values last) (stalls : p.Stalls last)
    (earlier : List α) :
    p.gather earlier input = .matched (earlier ++ values) last := by
  rw [run.gather_eq, gather]
  rcases stalls with unmatched | ⟨value, rest, matched, longer⟩
  · rw [unmatched]
  · rw [matched]
    exact if_neg (Nat.not_lt.mpr longer)

theorem gather_of_fault
    {cause : Fault}
    (run : ShrinkingRun p input values last)
    (raised : p.parse last = .fault cause) (earlier : List α) :
    p.gather earlier input = .fault cause := by
  rw [run.gather_eq, gather, raised]

/-- Two runs that end where the parser stalls are the same. -/
theorem unique
    {otherValues : List α} {otherLast : Slice}
    (run : ShrinkingRun p input values last)
    (stalls : p.Stalls last)
    (other : ShrinkingRun p input otherValues otherLast)
    (otherStalls : p.Stalls otherLast) :
    otherValues = values ∧ otherLast = last := by
  have gathered := run.gather_of_stalls stalls []
  have otherGathered := other.gather_of_stalls otherStalls []
  exact Outcome.matched.inj (otherGathered.symm.trans gathered)

/-- Without a value there was no round. -/
theorem last_eq_of_nil
    (run : ShrinkingRun p input [] last) : last = input := by
  cases run
  rfl

end ShrinkingRun

/-- A repetition of any parser ends: its rounds are one run of matches, each of
which leaves a shorter slice, up to the place where the parser stalls. The values
are those of the rounds in their order, without that of a match that stalls.
Nothing but a fault of the parser at the end of the run takes them away. -/
theorem zeroOrMore_takes_shrinkingRun
    (p : Parser α) (input : Slice) :
    ∃ values last,
      ShrinkingRun p input values last ∧
      values.length + last.size ≤ input.size ∧
      ((p.Stalls last ∧
          (∀ otherValues otherLast,
            ShrinkingRun p input otherValues otherLast →
            p.Stalls otherLast →
              otherValues = values ∧ otherLast = last) ∧
          p.zeroOrMore.parse input = .matched values last ∧
          p.oneOrMore.parse input =
            if values.isEmpty then .unmatched else .matched values last) ∨
        ∃ cause, p.parse last = .fault cause ∧
          p.zeroOrMore.parse input = .fault cause ∧
          p.oneOrMore.parse input = .fault cause) := by
  obtain ⟨values, last, run, ended⟩ := exists_shrinkingRun p input
  refine ⟨values, last, run, run.length_add_size_le, ?_⟩
  rcases ended with stalls | ⟨cause, raised⟩
  · have gathered := run.gather_of_stalls stalls []
    refine .inl ⟨stalls, fun _ _ => run.unique stalls, gathered, ?_⟩
    simp only [oneOrMore, gathered]
    cases values <;> rfl
  · have gathered := run.gather_of_fault raised []
    refine .inr ⟨cause, raised, gathered, ?_⟩
    simp only [oneOrMore, gathered]

/-- A parser that goes from a text of five bytes to a shorter one in another
buffer, and from there back to the longer one, is repeated once. -/
theorem zeroOrMore_takes_shrinkingRun_between_buffers :
    let long := Slice.whole { chars := ['a', 'b', 'c', 'd', 'e'] }
    let short := Slice.whole { chars := ['é', 'f'], key := 1 }
    let p : Parser Nat :=
      ⟨fun input =>
        if input.size = 5 then .matched 1 short else .matched 2 long⟩
    ShrinkingRun p long [1] short ∧ p.Stalls short ∧
      p.zeroOrMore.parse long = .matched [1] short := by
  intro long short p
  have run : ShrinkingRun p long [1] short :=
    .round (by decide) (by decide) (.refl short)
  have stalls : p.Stalls short := .inr ⟨2, long, by decide, by decide⟩
  obtain ⟨values, last, found, _, ended⟩ := zeroOrMore_takes_shrinkingRun p long
  rcases ended with ⟨_, unique, repeated, _⟩ | ⟨cause, raised, _⟩
  · obtain ⟨rfl, rfl⟩ := unique [1] short run stalls
    exact ⟨run, stalls, repeated⟩
  · simp only [p] at raised
    split at raised <;> contradiction

theorem zeroOrMore_eq_orDefault
    (p : Parser α) : p.zeroOrMore = p.oneOrMore.orDefault [] := by
  apply ext
  intro input
  obtain ⟨values, last, run, ended⟩ := exists_shrinkingRun p input
  simp only [zeroOrMore, orDefault, parse_orElse, oneOrMore]
  rcases ended with stalls | ⟨cause, raised⟩
  · rw [run.gather_of_stalls stalls, List.nil_append]
    cases values with
    | nil =>
        rw [run.last_eq_of_nil]
        rfl
    | cons first others =>
        rfl
  · rw [run.gather_of_fault raised]

/-- What comes before a repetition is put before its values. -/
theorem gather_eq_parse_map
    (p : Parser α) (earlier : List α) (input : Slice) :
    p.gather earlier input =
      ((fun values => earlier ++ values) <$> p.zeroOrMore).parse input := by
  obtain ⟨values, last, run, ended⟩ := exists_shrinkingRun p input
  rw [map_eq_pure_bind, parse_bind, zeroOrMore]
  rcases ended with stalls | ⟨cause, raised⟩
  · simp only [run.gather_of_stalls stalls, parse_pure, List.nil_append]
  · simp only [run.gather_of_fault raised]

theorem sepBy_eq_bind
    (p : Parser α) (delimiter : Parser β) :
    p.sepBy delimiter =
      p >>= fun first =>
        (fun others => [first] ++ others) <$> (delimiter *> p).zeroOrMore := by
  apply ext
  intro input
  simp only [parse_bind, sepBy]
  cases p.parse input with
  | matched first rest =>
      exact gather_eq_parse_map (delimiter *> p) [first] rest
  | unmatched =>
      rfl
  | fault cause =>
      rfl

/-- Behind a delimiter, an item has to match. -/
theorem parse_seqRight
    (delimiter : Parser β) (p : Parser α) (input : Slice) :
    (delimiter *> p).parse input =
      match delimiter.parse input with
      | .matched _ rest => p.parse rest
      | .unmatched => .unmatched
      | .fault cause => .fault cause := by
  have chained : (delimiter *> p) = delimiter >>= fun _ => p :=
    seqRight_eq_bind delimiter p
  exact (congrArg (fun q => q.parse input) chained).trans
    (parse_bind delimiter (fun _ => p) input)

/-- A list ends before a delimiter that no item follows, or only one that leaves
as much as there was before the delimiter. -/
theorem stalls_seqRight_iff
    {p : Parser α} {delimiter : Parser β} {input : Slice} :
    (delimiter *> p).Stalls input ↔
      delimiter.parse input = .unmatched ∨
        ∃ mark between, delimiter.parse input = .matched mark between ∧
          (p.parse between = .unmatched ∨
            ∃ value rest, p.parse between = .matched value rest ∧
              input.size ≤ rest.size) := by
  rw [Stalls, parse_seqRight]
  cases delimiter.parse input with
  | matched mark between =>
      simp only [reduceCtorEq, false_or, Outcome.matched.injEq]
      constructor
      · exact fun ended => ⟨mark, between, ⟨rfl, rfl⟩, ended⟩
      · rintro ⟨_, _, ⟨rfl, rfl⟩, ended⟩
        exact ended
  | unmatched =>
      simp
  | fault cause =>
      simp

theorem map_seqRight
    (replace : β → γ) (delimiter : Parser β) (p : Parser α) :
    (replace <$> delimiter) *> p = delimiter *> p := by
  simp only [seqRight_eq_bind, map_eq_pure_bind, bind_assoc, pure_bind]

/-- Repetitions and lists in terms of each other. No match is the default of a
repetition of at least one, where its whole input is left. A list with
delimiters is an item, which may take nothing, and a repetition of a delimiter
and an item together: each of these rounds shortens what is left, and where none
begins the delimiter is left too. The values of the delimiters do not matter. -/
theorem repetition_laws
    (p : Parser α) (delimiter : Parser β) :
    p.zeroOrMore = p.oneOrMore.orDefault [] ∧
    (∀ input, p.oneOrMore.parse input = .unmatched →
      p.zeroOrMore.parse input = .matched [] input) ∧
    (p.sepBy delimiter =
      p >>= fun first =>
        (fun others => [first] ++ others) <$> (delimiter *> p).zeroOrMore) ∧
    (∀ input first rest others last,
      p.parse input = .matched first rest →
      ShrinkingRun (delimiter *> p) rest others last →
      (delimiter.parse last = .unmatched ∨
        ∃ mark between, delimiter.parse last = .matched mark between ∧
          (p.parse between = .unmatched ∨
            ∃ value after, p.parse between = .matched value after ∧
              last.size ≤ after.size)) →
      (p.sepBy delimiter).parse input = .matched (first :: others) last) ∧
    ∀ (γ : Type) (replace : β → γ),
      p.sepBy (replace <$> delimiter) = p.sepBy delimiter := by
  refine ⟨zeroOrMore_eq_orDefault p, ?_, sepBy_eq_bind p delimiter, ?_, ?_⟩
  · intro input unmatched
    rw [zeroOrMore_eq_orDefault, orDefault, parse_orElse, unmatched]
    rfl
  · intro input first rest others last parsed run ended
    have stalls := stalls_seqRight_iff.mpr ended
    simp only [sepBy, parsed]
    exact run.gather_of_stalls stalls [first]
  · intro γ replace
    rw [sepBy_eq_bind, sepBy_eq_bind, map_seqRight]

/-- Of `1,2,` all but the last comma is read. -/
theorem repetition_laws_last_comma :
    let buffer : Buffer := { chars := ['1', ',', '2', ','] }
    let item := ofRecognizer .digit
    let comma := ofRecognizer (.literal ",")
    ShrinkingRun (comma *> item) ⟨buffer, 1, 4⟩ [⟨buffer, 2, 3⟩]
        ⟨buffer, 3, 4⟩ ∧
      comma.parse ⟨buffer, 3, 4⟩ =
        .matched ⟨buffer, 3, 4⟩ ⟨buffer, 4, 4⟩ ∧
      (item.sepBy comma).parse (.whole buffer) =
        .matched [⟨buffer, 0, 1⟩, ⟨buffer, 2, 3⟩] ⟨buffer, 3, 4⟩ := by
  intro buffer item comma
  have run :
      ShrinkingRun (comma *> item) ⟨buffer, 1, 4⟩ [⟨buffer, 2, 3⟩]
        ⟨buffer, 3, 4⟩ :=
    .round (by decide +kernel) (by decide) (.refl _)
  have lastComma :
      comma.parse ⟨buffer, 3, 4⟩ =
        .matched ⟨buffer, 3, 4⟩ ⟨buffer, 4, 4⟩ := by decide +kernel
  have noItem : item.parse ⟨buffer, 4, 4⟩ = .unmatched := by decide +kernel
  obtain ⟨_, _, _, ended, _⟩ := repetition_laws item comma
  refine ⟨run, lastComma, ended _ _ _ _ _ (by decide +kernel) run ?_⟩
  exact .inr ⟨_, _, lastComma, .inl noItem⟩

end TextGrammar.Parser
