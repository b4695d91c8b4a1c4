import TextGrammar.Proofs.Parser.Tracking
import TextGrammar.Proofs.Recognizer.Language

/-!
The values that parsers return. `Returns` says what all values of a parser have
in common, on every input and wherever the parser stops; each way of combining
parsers has a lemma. The text that a recognizer matches is a word of its language
(`Returns.ofRecognizer`), even on slices whose bounds fall inside characters,
since on these no recognizer matches.
-/

namespace TextGrammar.Parser

variable {α β : Type}

def Returns (p : Parser α) (accepts : α → Prop) : Prop :=
  ∀ input value rest, p.parse input = .matched value rest → accepts value

namespace Returns

variable {p : Parser α} {accepts : α → Prop}

theorem anything
    (p : Parser α) : p.Returns fun _ => True :=
  fun _ _ _ _ => trivial

theorem pure
    {value : α} (accepted : accepts value) :
    (pure value : Parser α).Returns accepts := by
  intro input returned rest parsed
  rw [parse_pure, Outcome.matched.injEq] at parsed
  exact parsed.1 ▸ accepted

theorem ofExcept
    {result : Except Fault α}
    (accepted : ∀ value, result = .ok value → accepts value) :
    (Parser.ofExcept result).Returns accepts := by
  cases result with
  | ok value =>
      exact pure (accepted value rfl)
  | error cause =>
      intro input value rest parsed
      simp [Parser.ofExcept] at parsed

theorem bind
    {next : α → Parser β} {concludes : β → Prop}
    (first : p.Returns accepts)
    (second : ∀ value, accepts value → (next value).Returns concludes) :
    (p >>= next).Returns concludes := by
  intro input result rest parsed
  rw [parse_bind] at parsed
  cases parsedFirst : p.parse input with
  | matched value middle =>
      rw [parsedFirst] at parsed
      exact second value (first input value middle parsedFirst) middle result
        rest parsed
  | unmatched =>
      simp [parsedFirst] at parsed
  | fault cause =>
      simp [parsedFirst] at parsed

theorem map
    {transform : α → β} {concludes : β → Prop}
    (returns : p.Returns accepts)
    (implied : ∀ value, accepts value → concludes (transform value)) :
    (transform <$> p).Returns concludes := by
  rw [map_eq_pure_bind]
  exact returns.bind fun value accepted => pure (implied value accepted)

theorem seqRight
    {q : Parser β} {concludes : β → Prop}
    (returns : q.Returns concludes) :
    (p *> q).Returns concludes := by
  rw [seqRight_eq_bind]
  exact (anything p).bind fun _ _ => returns

theorem orElse
    {q : Parser α}
    (first : p.Returns accepts) (second : q.Returns accepts) :
    (p <|> q).Returns accepts := by
  intro input value rest parsed
  rw [parse_orElse] at parsed
  cases parsedFirst : p.parse input with
  | unmatched =>
      rw [parsedFirst] at parsed
      exact second input value rest parsed
  | matched found middle =>
      rw [parsedFirst] at parsed
      exact first input value rest (parsedFirst.trans parsed)
  | fault cause =>
      rw [parsedFirst] at parsed
      simp at parsed

theorem optional
    {concludes : Option α → Prop}
    (returns : p.Returns accepts)
    (implied : ∀ value, accepts value → concludes (some value))
    (absent : concludes none) :
    (optional p).Returns concludes :=
  orElse (returns.map implied) (pure absent)

/-- A repetition adds accepted values to the earlier ones. -/
theorem gather
    (returns : p.Returns accepts) {earlier values : List α}
    {input rest : Slice}
    (gathered : p.gather earlier input = .matched values rest) :
    ∃ more, values = earlier ++ more ∧ ∀ value ∈ more, accepts value := by
  fun_induction Parser.gather p earlier input with
  | case1 earlier input value next parsed shorter inductionHypothesis =>
      obtain ⟨more, rfl, accepted⟩ := inductionHypothesis gathered
      refine ⟨value :: more, by simp, ?_⟩
      exact List.forall_mem_cons.mpr
        ⟨returns input value next parsed, accepted⟩
  | case2 earlier input value next parsed longer =>
      obtain ⟨rfl, _⟩ := Outcome.matched.inj gathered
      exact ⟨[], by simp⟩
  | case3 earlier input parsed =>
      obtain ⟨rfl, _⟩ := Outcome.matched.inj gathered
      exact ⟨[], by simp⟩
  | case4 earlier input cause parsed =>
      contradiction

theorem zeroOrMore
    (returns : p.Returns accepts) :
    p.zeroOrMore.Returns fun values => ∀ value ∈ values, accepts value := by
  intro input values rest gathered
  obtain ⟨more, rfl, accepted⟩ := returns.gather gathered
  exact accepted

/-- A list with delimiters has at least one item. -/
theorem sepBy
    {q : Parser β} (returns : p.Returns accepts) :
    (p.sepBy q).Returns fun values =>
      ∃ first others, values = first :: others ∧
        ∀ value ∈ values, accepts value := by
  intro input values rest parsed
  simp only [Parser.sepBy] at parsed
  cases parsedFirst : p.parse input with
  | matched first middle =>
      rw [parsedFirst] at parsed
      obtain ⟨more, rfl, accepted⟩ := (returns.seqRight (p := q)).gather parsed
      refine ⟨first, more, rfl, ?_⟩
      exact List.forall_mem_cons.mpr
        ⟨returns input first middle parsedFirst, accepted⟩
  | unmatched =>
      simp [parsedFirst] at parsed
  | fault cause =>
      simp [parsedFirst] at parsed

/-- A recognizer matches words of its language. -/
theorem ofRecognizer
    (r : Recognizer) :
    (Parser.ofRecognizer r).Returns fun text =>
      ∃ word ∈ r.language, text.chars? = some word := by
  intro input text rest parsed
  cases matched : r.matchIn input.buffer.chars input.start input.stop with
  | none =>
      simp [Parser.ofRecognizer, matched] at parsed
  | some finish =>
      obtain ⟨word, behind, readable, consumed, rfl⟩ :=
        Recognizer.matchIn_eq_some_iff.mp matched
      have inBounds := Slice.inBounds_of_chars? readable
      rw [parse_ofRecognizer r inBounds, matched, Option.elim_some,
        Outcome.matched.injEq] at parsed
      obtain ⟨rfl, _⟩ := parsed
      exact ⟨word, r.mem_language_of_consume word behind consumed,
        (window?_of_append readable).1⟩

theorem token
    (r : Recognizer) :
    (Parser.token r).Returns fun text =>
      ∃ word ∈ r.language, text.chars? = some word :=
  seqRight (ofRecognizer r)

end Returns

end TextGrammar.Parser
