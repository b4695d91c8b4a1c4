import TextGrammar.Proofs.Escape.Shape

/-!
Parts of URIs. A part of a URI holds unreserved characters and percent triplets,
and nothing else: this is `UriPart`, which is the same as that every percent sign
has two hexadecimal digits behind it (`uriPart_iff`). An escaped component is one
just if it was made of narrow characters (`uriPart_uriComponent_iff`), since a
wide unit is written with a `u` behind its percent sign.
-/

namespace TextGrammar.Escape

def unreserved : Set Char :=
  alphanumerics ∪ uriMarks

/-- Unreserved characters, and percent signs each with two hexadecimal digits. -/
inductive UriPart : List Char → Prop
  | nil : UriPart []
  | unreserved {c : Char} {rest : List Char}
      (member : c ∈ unreserved) (part : UriPart rest) : UriPart (c :: rest)
  | triplet {high low : Char} {rest : List Char}
      (highDigit : CharClass.isHexDigit high = true)
      (lowDigit : CharClass.isHexDigit low = true)
      (part : UriPart rest) : UriPart ('%' :: high :: low :: rest)

/-- Two hexadecimal digits stand behind every percent sign. -/
def PercentsInTriplets (chars : List Char) : Prop :=
  ∀ before after, chars = before ++ '%' :: after →
    ∃ high low rest, after = high :: low :: rest ∧
      CharClass.isHexDigit high = true ∧ CharClass.isHexDigit low = true

/-- Just the unreserved characters are kept in a component. -/
theorem mem_unreserved_iff
    {c : Char} : c ∈ unreserved ↔ c ∈ keptInComponent := by
  rw [unreserved, ← setOf_mem_keptInComponent]
  exact Iff.rfl

private theorem percent_not_mem_unreserved :
    '%' ∉ unreserved := by
  rw [mem_unreserved_iff]
  decide

private theorem mem_unreserved_of_isHexDigit
    {c : Char} (digit : CharClass.isHexDigit c = true) : c ∈ unreserved := by
  refine Or.inl ?_
  show c.isAlphanum = true
  have lowercase : 'f'.val.toNat ≤ 'z'.val.toNat := by decide
  have uppercase : 'F'.val.toNat ≤ 'Z'.val.toNat := by decide
  simp only [CharClass.isHexDigit, Bool.or_eq_true, Bool.and_eq_true,
    decide_eq_true_eq, Char.le_def, UInt32.le_iff_toNat_le] at digit
  delta Char.isAlphanum Char.isAlpha Char.isUpper Char.isLower
  simp only [Bool.or_eq_true, Bool.and_eq_true, decide_eq_true_eq, ge_iff_le,
    UInt32.le_iff_toNat_le]
  rcases digit with (decimal | lower) | upper
  · exact Or.inr decimal
  · exact Or.inl (Or.inr ⟨lower.1, Nat.le_trans lower.2 lowercase⟩)
  · exact Or.inl (Or.inl ⟨upper.1, Nat.le_trans upper.2 uppercase⟩)

private theorem isHexDigit_of_mem
    {c : Char} (member : c ∈ hexadecimals) :
    CharClass.isHexDigit c = true := by
  have each : hexadecimals.all CharClass.isHexDigit = true := by rfl
  exact List.all_eq_true.mp each c member

namespace UriPart

variable {chars left right : List Char}

theorem append
    (part : UriPart left) (rightPart : UriPart right) :
    UriPart (left ++ right) := by
  induction part with
  | nil =>
      exact rightPart
  | unreserved member _ inductionHypothesis =>
      exact .unreserved member inductionHypothesis
  | triplet highDigit lowDigit _ inductionHypothesis =>
      exact .triplet highDigit lowDigit inductionHypothesis

private theorem mem_unreserved_or_eq
    (part : UriPart chars) : ∀ c ∈ chars, c ∈ Escape.unreserved ∨ c = '%' := by
  induction part with
  | nil =>
      simp
  | unreserved member _ inductionHypothesis =>
      exact List.forall_mem_cons.mpr ⟨Or.inl member, inductionHypothesis⟩
  | triplet highDigit lowDigit _ inductionHypothesis =>
      refine List.forall_mem_cons.mpr ⟨Or.inr rfl, ?_⟩
      refine List.forall_mem_cons.mpr
        ⟨Or.inl (mem_unreserved_of_isHexDigit highDigit), ?_⟩
      exact List.forall_mem_cons.mpr
        ⟨Or.inl (mem_unreserved_of_isHexDigit lowDigit), inductionHypothesis⟩

/-- A first character that is no percent sign asks for no digits. -/
theorem percentsInTriplets_cons
    {c : Char} (different : c ≠ '%') (percents : PercentsInTriplets chars) :
    PercentsInTriplets (c :: chars) := by
  intro before after split
  cases before with
  | nil =>
      exact absurd (List.cons.inj split).1 different
  | cons first before =>
      exact percents before after (List.cons.inj split).2

theorem percentsInTriplets
    (part : UriPart chars) : PercentsInTriplets chars := by
  induction part with
  | nil =>
      intro before after split
      simp at split
  | unreserved member _ inductionHypothesis =>
      refine percentsInTriplets_cons ?_ inductionHypothesis
      rintro rfl
      exact percent_not_mem_unreserved member
  | @triplet high low rest highDigit lowDigit _ inductionHypothesis =>
      have noPercent {c : Char} (digit : CharClass.isHexDigit c = true) :
          c ≠ '%' := by
        rintro rfl
        contradiction
      intro before after split
      cases before with
      | nil =>
          exact ⟨high, low, rest, (List.cons.inj split).2.symm, highDigit,
            lowDigit⟩
      | cons first before =>
          have behind := percentsInTriplets_cons (noPercent highDigit)
            (percentsInTriplets_cons (noPercent lowDigit) inductionHypothesis)
          exact behind before after (List.cons.inj split).2

end UriPart

/-- A part of a URI is made of unreserved characters and percent signs, and two
hexadecimal digits stand behind each of these. -/
theorem uriPart_iff
    {chars : List Char} :
    UriPart chars ↔
      (∀ c ∈ chars, c ∈ unreserved ∨ c = '%') ∧ PercentsInTriplets chars := by
  refine ⟨fun part => ⟨part.mem_unreserved_or_eq, part.percentsInTriplets⟩, ?_⟩
  intro both
  rcases both with ⟨members, percents⟩
  induction length : chars.length using Nat.strongRecOn generalizing chars with
  | _ size inductionHypothesis =>
      cases chars with
      | nil =>
          exact .nil
      | cons c rest =>
          have behind :
              ∀ front others : List Char, front ≠ [] →
                c :: rest = front ++ others → UriPart others := by
            intro front others nonempty split
            have positive := List.length_pos_of_ne_nil nonempty
            have shorter : others.length < size := by
              rw [← length, split, List.length_append]
              omega
            refine inductionHypothesis _ shorter ?_ ?_ rfl
            · intro d member
              rw [split] at members
              exact members d (List.mem_append_right front member)
            · intro before after inner
              apply percents (front ++ before) after
              rw [split, inner, List.append_assoc]
          rcases members c List.mem_cons_self with member | percent
          · exact .unreserved member (behind [c] rest (by simp) rfl)
          · obtain ⟨high, low, others, rfl, highDigit, lowDigit⟩ :=
              percents [] rest (by rw [percent]; rfl)
            rw [percent]
            exact .triplet highDigit lowDigit
              (behind [c, high, low] others (by simp) rfl)

/-- Whatever is escaped, no other characters stand in a component. -/
theorem mem_unreserved_or_eq_of_uriComponent
    {text : String} {c : Char} (member : c ∈ (uriComponent text).toList) :
    c ∈ unreserved ∨ c = '%' := by
  rcases mem_encode member with keeps | escape
  · exact Or.inl (mem_unreserved_iff.mpr keeps)
  · rcases List.mem_cons.mp escape with percent | inside
    · exact Or.inr percent
    · rcases List.mem_cons.mp inside with mark | digit
      · rw [mark]
        exact Or.inl (mem_unreserved_iff.mpr (by decide))
      · exact Or.inl (mem_unreserved_of_isHexDigit (isHexDigit_of_mem digit))

private theorem uriPart_hexDigits_two
    (value : Nat) : UriPart ('%' :: hexDigits 2 value) :=
  .triplet
    (isHexDigit_of_mem (hexDigit_mem (Nat.mod_lt (value / 16) (by decide))))
    (isHexDigit_of_mem (hexDigit_mem (Nat.mod_lt value (by decide)))) .nil

/-- A narrow character is kept or written as a triplet. -/
theorem uriPart_encodeChar
    {c : Char} (narrow : c.toNat < 256) :
    UriPart (encodeChar keptInComponent c) := by
  have alone : unitsOf c = [c.toNat] := if_pos (by omega)
  by_cases keeps : c ∈ keptInComponent
  · rw [encodeChar_of_mem keeps]
    exact .unreserved (mem_unreserved_iff.mpr keeps) .nil
  · have escapes : ¬ keptInComponent.contains (Char.ofNat c.toNat) = true := by
      rw [Char.ofNat_toNat]
      exact keeps
    rw [encodeChar, alone, List.flatMap_singleton, encodeUnit, if_pos narrow,
      if_neg escapes]
    exact uriPart_hexDigits_two c.toNat

/-- The letter behind the first percent sign of any other character is no
hexadecimal digit. -/
theorem exists_encodeChar_eq
    {c : Char} (wide : 256 ≤ c.toNat) :
    ∃ rest, encodeChar keptInComponent c = '%' :: 'u' :: rest := by
  have valid := toNat_valid c
  have escaped {unit : Nat} (above : 256 ≤ unit) :
      encodeUnit keptInComponent unit = '%' :: 'u' :: hexDigits 4 unit :=
    if_neg (Nat.not_lt.mpr above)
  unfold encodeChar unitsOf
  split
  · rw [List.flatMap_singleton, escaped wide]
    exact ⟨_, rfl⟩
  · rw [List.flatMap_cons, escaped (by omega)]
    exact ⟨_, rfl⟩

/-- An escaped component is a part of a URI just if no character was wide. -/
theorem uriPart_uriComponent_iff
    {text : String} :
    UriPart (uriComponent text).toList ↔ ∀ c ∈ text.toList, c.toNat < 256 := by
  rw [uriComponent, toList_encode]
  constructor
  · intro part c member
    by_contra wide
    rcases exists_encodeChar_eq (Nat.not_lt.mp wide) with ⟨rest, written⟩
    rcases List.append_of_mem member with ⟨front, others, split⟩
    rw [split, List.flatMap_append, List.flatMap_cons, written] at part
    obtain ⟨high, low, _, behind, highDigit, _⟩ :=
      part.percentsInTriplets _ _ rfl
    rw [← (List.cons.inj behind).1] at highDigit
    contradiction
  · intro narrow
    generalize text.toList = chars at narrow ⊢
    induction chars with
    | nil =>
        exact .nil
    | cons c others inductionHypothesis =>
        rw [List.forall_mem_cons] at narrow
        rw [List.flatMap_cons]
        exact (uriPart_encodeChar narrow.1).append
          (inductionHypothesis narrow.2)

end TextGrammar.Escape
