import Mathlib.Computability.Language
import TextGrammar.Proofs.Parser.Tracking

/-!
The words that parsers read. A parser reads a language if, wherever a word of
the language is followed by something that is allowed to follow it, the parser
takes just this word. So no repetition and no optional part takes more than its
own words. Every way of combining parsers reads the products of the languages
that its parts read, as long as each part may be followed by what the next one
begins with.
-/

namespace TextGrammar.Parser

open scoped Computability

variable {α β ι : Type}

/-- On every slice that begins with one of the words and goes on in an allowed
way, the parser reads just this word, and its value is accepted. -/
def Reads
    (p : Parser α) (words : Language Char) (allowed : List Char → Prop)
    (accepts : α → Prop) : Prop :=
  ∀ word ∈ words, ∀ input rest,
    input.chars? = some (word ++ rest) → allowed rest →
      ∃ value, p.parse input = .matched value (input.leaving rest) ∧
        accepts value

def Declines (p : Parser α) (opening : List Char → Prop) : Prop :=
  ∀ input chars, input.chars? = some chars → opening chars →
    p.parse input = .unmatched

theorem Declines.bind
    {p : Parser α} {opening : List Char → Prop}
    (declines : p.Declines opening) (next : α → Parser β) :
    (p >>= next).Declines opening := by
  intro input chars readable opens
  rw [parse_bind, declines input chars readable opens]

/-- A parser that tracks a step declines where the step is stuck. -/
theorem Tracks.declines
    {p : Parser α} {step : List Char → Option (List Char)}
    {relates : List Char → α → Prop} {opening : List Char → Prop}
    (tracks : p.Tracks step relates)
    (stuck : ∀ chars, opening chars → step chars = none) :
    p.Declines opening :=
  fun _ chars readable opens => tracks.of_none readable (stuck chars opens)

/-- A parser that tracks a step reads the words that the step consumes. -/
theorem Tracks.reads
    {p : Parser α} {step : List Char → Option (List Char)}
    {relates : List Char → α → Prop} {words : Language Char}
    {allowed : List Char → Prop} {accepts : α → Prop}
    (tracks : p.Tracks step relates)
    (consumes : ∀ word ∈ words, ∀ rest, allowed rest →
      step (word ++ rest) = some rest)
    (accepted : ∀ word ∈ words, ∀ value, relates word value → accepts value) :
    p.Reads words allowed accepts := by
  intro word member input rest readable allows
  obtain ⟨read, value, split, holds, parsed⟩ :=
    tracks.of_some readable (consumes word member rest allows)
  obtain rfl := List.append_cancel_right split
  exact ⟨value, parsed, accepted _ member value holds⟩

namespace Reads

variable {p : Parser α} {words : Language Char} {allowed : List Char → Prop}
  {accepts : α → Prop}

theorem pure
    {value : α} (accepted : accepts value) :
    (pure value : Parser α).Reads 1 allowed accepts := by
  rintro word rfl input rest readable allows
  rw [List.nil_append] at readable
  refine ⟨value, ?_, accepted⟩
  rw [Slice.leaving_self readable]
  rfl

theorem weaken
    {fewer : List Char → Prop} {weaker : α → Prop}
    (reads : p.Reads words allowed accepts)
    (narrower : ∀ rest, fewer rest → allowed rest)
    (implied : ∀ value, accepts value → weaker value) :
    p.Reads words fewer weaker := by
  intro word member input rest readable allows
  obtain ⟨value, parsed, accepted⟩ :=
    reads word member input rest readable (narrower rest allows)
  exact ⟨value, parsed, implied value accepted⟩

/-- One parser after another reads words of both, if every word of the second
may follow a word of the first. -/
theorem bind
    {next : α → Parser β} {more : Language Char}
    {following : List Char → Prop} {concludes : β → Prop}
    (first : p.Reads words allowed accepts)
    (second : ∀ value, accepts value →
      (next value).Reads more following concludes)
    (goesOn : ∀ word ∈ more, ∀ rest, following rest →
      allowed (word ++ rest)) :
    (p >>= next).Reads (words * more) following concludes := by
  rintro _ ⟨word, member, further, furtherMember, rfl⟩ input rest readable
    follows
  have readFirst : input.chars? = some (word ++ (further ++ rest)) := by
    rw [readable, List.append_assoc]
  obtain ⟨value, parsed, accepted⟩ :=
    first word member input (further ++ rest) readFirst
      (goesOn further furtherMember rest follows)
  obtain ⟨result, parsedNext, concluded⟩ :=
    second value accepted further furtherMember _ rest
      (Slice.chars?_leaving readFirst) follows
  refine ⟨result, ?_, concluded⟩
  rw [parse_bind, parsed]
  exact parsedNext

/-- A parser before one that reads nothing. -/
theorem bind_one
    {next : α → Parser β} {concludes : β → Prop}
    (reads : p.Reads words allowed accepts)
    (nothing : ∀ value, accepts value →
      (next value).Reads 1 allowed concludes) :
    (p >>= next).Reads words allowed concludes := by
  rw [← mul_one words]
  apply reads.bind nothing
  rintro _ rfl rest follows
  exact follows

theorem map
    {transform : α → β} {concludes : β → Prop}
    (reads : p.Reads words allowed accepts)
    (implied : ∀ value, accepts value → concludes (transform value)) :
    (transform <$> p).Reads words allowed concludes := by
  rw [map_eq_pure_bind]
  exact reads.bind_one fun value accepted => Reads.pure (implied value accepted)

theorem seqRight
    {q : Parser β} {more : Language Char} {following : List Char → Prop}
    {concludes : β → Prop}
    (first : p.Reads words allowed accepts)
    (second : q.Reads more following concludes)
    (goesOn : ∀ word ∈ more, ∀ rest, following rest →
      allowed (word ++ rest)) :
    (p *> q).Reads (words * more) following concludes := by
  rw [seqRight_eq_bind]
  exact first.bind (fun _ _ => second) goesOn

theorem present
    {concludes : Option α → Prop}
    (reads : p.Reads words allowed accepts)
    (implied : ∀ value, accepts value → concludes (some value)) :
    (optional p).Reads words allowed concludes := by
  have mapped : (some <$> p).Reads words allowed concludes := reads.map implied
  intro word member input rest readable allows
  obtain ⟨value, parsed, accepted⟩ :=
    mapped word member input rest readable allows
  refine ⟨value, ?_, accepted⟩
  rw [optional, parse_orElse, parsed]

/-- An optional part is absent where its parser declines. -/
theorem absent
    {concludes : Option α → Prop}
    (declines : p.Declines allowed) (holds : concludes none) :
    (optional p).Reads 1 allowed concludes := by
  rintro word rfl input rest readable allows
  rw [List.nil_append] at readable
  have stuck : (some <$> p).parse input = .unmatched := by
    rw [map_eq_pure_bind]
    exact declines.bind _ input rest readable allows
  refine ⟨none, ?_, holds⟩
  rw [optional, parse_orElse, stuck, Slice.leaving_self readable]
  rfl

variable {item : ι → Language Char} {acceptsItem : ι → α → Prop}
  {following : List Char → Prop}

/-- What follows a word may be the word of a next item or, behind the last item,
what follows the whole repetition. -/
theorem allowed_append
    (goesOn : ∀ i, ∀ word ∈ item i, ∀ rest, allowed (word ++ rest))
    (stops : ∀ rest, following rest → allowed rest)
    {items : List ι} {word : List Char} (member : word ∈ (items.map item).prod)
    {rest : List Char} (follows : following rest) :
    allowed (word ++ rest) := by
  cases items with
  | nil =>
      obtain rfl := (Language.mem_one word).mp member
      exact stops rest follows
  | cons next items =>
      obtain ⟨first, firstMember, others, _, rfl⟩ := member
      rw [List.append_assoc]
      exact goesOn next first firstMember (others ++ rest)

/-- A repetition reads a word for every item of a list, if every word may be
followed by any other and the parser declines what follows the last one. -/
theorem gather
    (each : ∀ i, p.Reads (item i) allowed (acceptsItem i))
    (nonempty : ∀ i, [] ∉ item i)
    (goesOn : ∀ i, ∀ word ∈ item i, ∀ rest, allowed (word ++ rest))
    (stops : ∀ rest, following rest → allowed rest)
    (declines : p.Declines following)
    (items : List ι) (earlier : List α)
    {word : List Char} (member : word ∈ (items.map item).prod)
    {input : Slice} {rest : List Char}
    (readable : input.chars? = some (word ++ rest)) (follows : following rest) :
    ∃ values, p.gather earlier input =
        .matched (earlier ++ values) (input.leaving rest) ∧
      List.Forall₂ acceptsItem items values := by
  induction items generalizing earlier word input with
  | nil =>
      obtain rfl := (Language.mem_one word).mp member
      rw [List.nil_append] at readable
      refine ⟨[], ?_, .nil⟩
      rw [Parser.gather, declines input rest readable follows,
        Slice.leaving_self readable, List.append_nil]
  | cons i items inductionHypothesis =>
      obtain ⟨first, firstMember, others, othersMember, rfl⟩ := member
      have readFirst : input.chars? = some (first ++ (others ++ rest)) := by
        rw [readable, List.append_assoc]
      have allows := allowed_append goesOn stops othersMember follows
      obtain ⟨value, parsed, accepted⟩ :=
        each i first firstMember input (others ++ rest) readFirst allows
      obtain ⟨values, gathered, acceptedOthers⟩ :=
        inductionHypothesis (earlier ++ [value]) othersMember
          (Slice.chars?_leaving readFirst)
      have progress : (input.leaving (others ++ rest)).size < input.size := by
        rw [Slice.size_leaving readFirst, Slice.size_of_chars? readFirst]
        apply (byteLength_lt_iff_of_suffix (List.suffix_append _ _)).mpr
        have firstNonempty : first ≠ [] := by
          rintro rfl
          exact nonempty i firstMember
        have positive := List.length_pos_iff.mpr firstNonempty
        simp only [List.length_append]
        omega
      refine ⟨value :: values, ?_, .cons accepted acceptedOthers⟩
      rw [Parser.gather, parsed]
      simp only [progress, if_true]
      rw [gathered, Slice.leaving_leaving, List.append_assoc,
        List.singleton_append]

theorem zeroOrMore
    (each : ∀ i, p.Reads (item i) allowed (acceptsItem i))
    (nonempty : ∀ i, [] ∉ item i)
    (goesOn : ∀ i, ∀ word ∈ item i, ∀ rest, allowed (word ++ rest))
    (stops : ∀ rest, following rest → allowed rest)
    (declines : p.Declines following)
    (items : List ι) :
    p.zeroOrMore.Reads (items.map item).prod following
      (List.Forall₂ acceptsItem items) := by
  intro word member input rest readable follows
  obtain ⟨values, gathered, accepted⟩ :=
    gather each nonempty goesOn stops declines items [] member readable follows
  exact ⟨values, gathered, accepted⟩

/-- A list with delimiters reads an item and then a delimiter and an item for
each further one. -/
theorem sepBy
    {q : Parser β} {gap : Language Char} {between : List Char → Prop}
    {acceptsGap : β → Prop}
    (each : ∀ i, p.Reads (item i) allowed (acceptsItem i))
    (delimiter : q.Reads gap between acceptsGap)
    (reaches : ∀ i, ∀ word ∈ item i, ∀ rest, allowed rest →
      between (word ++ rest))
    (nonempty : ∀ i, [] ∉ gap * item i)
    (goesOn : ∀ i, ∀ word ∈ gap * item i, ∀ rest, allowed (word ++ rest))
    (stops : ∀ rest, following rest → allowed rest)
    (declines : (q *> p).Declines following)
    (first : ι) (others : List ι) :
    (p.sepBy q).Reads
      (item first * (others.map fun i => gap * item i).prod) following
      (List.Forall₂ acceptsItem (first :: others)) := by
  have further : ∀ i, (q *> p).Reads (gap * item i) allowed (acceptsItem i) :=
    fun i => delimiter.seqRight (each i) (reaches i)
  rintro _ ⟨word, member, more, moreMember, rfl⟩ input rest readable follows
  have readFirst : input.chars? = some (word ++ (more ++ rest)) := by
    rw [readable, List.append_assoc]
  have allows := allowed_append goesOn stops moreMember follows
  obtain ⟨value, parsed, accepted⟩ :=
    each first word member input (more ++ rest) readFirst allows
  obtain ⟨values, gathered, acceptedOthers⟩ :=
    gather further nonempty goesOn stops declines others [value] moreMember
      (Slice.chars?_leaving readFirst) follows
  refine ⟨value :: values, ?_, .cons accepted acceptedOthers⟩
  simp only [Parser.sepBy, parsed, gathered, Slice.leaving_leaving,
    List.singleton_append]

end Reads

end TextGrammar.Parser
