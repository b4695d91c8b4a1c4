import TextGrammar.CharClass

/-!
Which characters a class set holds. A set is tested against all classes of a
character at once; `contains_eq_any` says that this asks the tests of the
primitive classes that share a bit with the set, so what a named set holds can
be read off its primitives. Whatever a set holds is ASCII (`toNat_lt_of_mem`).
-/

namespace TextGrammar.CharClass

def partsOf (classes : CharClass) : List (CharClass × (Char → Bool)) :=
  primitives.filter fun (primitive, _) => primitive.bits &&& classes.bits != 0

private theorem union_bits_meet
    (left right classes : CharClass) :
    ((left ∪ right).bits &&& classes.bits != 0) =
      ((left.bits &&& classes.bits != 0) ||
        (right.bits &&& classes.bits != 0)) := by
  have bitsOr : (left ∪ right).bits = left.bits ||| right.bits := rfl
  have split :
      (left.bits ||| right.bits) &&& classes.bits =
        (left.bits &&& classes.bits) ||| (right.bits &&& classes.bits) := by
    apply UInt16.toBitVec_inj.mp
    simp only [UInt16.toBitVec_and, UInt16.toBitVec_or]
    ext i
    simp [Bool.and_or_distrib_right]
  rw [bitsOr, split, Bool.eq_iff_iff]
  simp only [bne_iff_ne, ne_eq, UInt16.or_eq_zero_iff, Bool.or_eq_true]
  grind

theorem contains_union
    (left right : CharClass) :
    (left ∪ right).contains = fun c => left.contains c || right.contains c := by
  funext c
  rw [Bool.eq_iff_iff, Bool.or_eq_true]
  exact mem_union_iff

/-- The classes that a character is found to have meet a set if they did before,
or if the character passes the test of a listed class that does. -/
theorem foldl_bits_meet
    (classes : CharClass) (c : Char)
    (listed : List (CharClass × (Char → Bool))) (found : CharClass) :
    ((listed.foldl
        (fun found (primitive, test) =>
          if test c then found ∪ primitive else found)
        found).bits &&& classes.bits != 0) =
      ((found.bits &&& classes.bits != 0) ||
        listed.any fun (primitive, test) =>
          primitive.bits &&& classes.bits != 0 && test c) := by
  induction listed generalizing found with
  | nil =>
      simp
  | cons first others inductionHypothesis =>
      rcases first with ⟨primitive, test⟩
      rw [List.foldl_cons, inductionHypothesis, List.any_cons]
      by_cases passed : test c = true
      · simp only [passed, if_true, union_bits_meet, Bool.and_true,
          Bool.or_assoc]
      · simp [passed]

/-- A set holds the characters that pass the test of one of its primitives. -/
theorem contains_eq_any
    (classes : CharClass) (c : Char) :
    classes.contains c = (partsOf classes).any fun (_, test) => test c := by
  have noBits : ((∅ : CharClass).bits &&& classes.bits != 0) = false := by
    have bitsZero : (∅ : CharClass).bits = 0 := rfl
    simp [bitsZero]
  rw [contains, of, foldl_bits_meet, noBits, Bool.false_or, partsOf,
    List.any_filter]

/-- A primitive class holds the characters that pass its own test, since no two of
them share a bit. -/
theorem contains_of_mem_primitives
    {primitive : CharClass} {test : Char → Bool}
    (listed : (primitive, test) ∈ primitives) (c : Char) :
    primitive.contains c = test c := by
  have alone : partsOf primitive = [(primitive, test)] := by
    simp only [primitives, List.mem_cons, Prod.mk.injEq, List.not_mem_nil,
      or_false] at listed
    rcases listed with ⟨rfl, rfl⟩ | ⟨rfl, rfl⟩ | ⟨rfl, rfl⟩ | ⟨rfl, rfl⟩ |
      ⟨rfl, rfl⟩ | ⟨rfl, rfl⟩ | ⟨rfl, rfl⟩ | ⟨rfl, rfl⟩ | ⟨rfl, rfl⟩ <;> rfl
  rw [contains_eq_any, alone, List.any_cons, List.any_nil, Bool.or_false]

theorem contains_digit
    (c : Char) : digit.contains c = c.isDigit :=
  contains_of_mem_primitives (by simp [primitives]) c

theorem contains_whitespace
    (c : Char) : whitespace.contains c = isBlank c :=
  contains_of_mem_primitives (by simp [primitives]) c

theorem contains_alphanumeric
    (c : Char) : alphanumeric.contains c = c.isAlphanum := by
  have parts :
      partsOf alphanumeric =
        [(digit, Char.isDigit), (lowercase, Char.isLower),
          (uppercase, Char.isUpper)] := rfl
  have kinds : c.isAlphanum = (c.isUpper || c.isLower || c.isDigit) := rfl
  rw [contains_eq_any, parts, kinds]
  simp [Bool.or_comm]

theorem isDigit_eq_false_of_isBlank
    {c : Char} (blank : isBlank c = true) : c.isDigit = false := by
  simp only [isBlank, List.contains_iff_mem, List.mem_cons, List.not_mem_nil,
    or_false] at blank
  rcases blank with rfl | rfl | rfl | rfl | rfl | rfl <;> rfl

private theorem toNat_lt_of_le
    {c : Char} (last : Char) (ascii : last.toNat < 128) (bounded : c ≤ last) :
    c.toNat < 128 :=
  Nat.lt_of_le_of_lt (UInt32.le_iff_toNat_le.mp bounded) ascii

private theorem toNat_lt_of_contains
    {c : Char} {listed : List Char} (ascii : ∀ d ∈ listed, d.toNat < 128)
    (passed : listed.contains c = true) :
    c.toNat < 128 :=
  ascii c (List.contains_iff_mem.mp passed)

private theorem toNat_lt_of_isDigit
    {c : Char} (passed : c.isDigit = true) : c.toNat < 128 := by
  obtain ⟨_, bounded⟩ := Bool.and_eq_true_iff.mp passed
  exact toNat_lt_of_le '9' (by decide) (of_decide_eq_true bounded)

/-- The test of a primitive class is passed by ASCII characters only. -/
theorem toNat_lt_of_test
    {c : Char} {primitive : CharClass} {test : Char → Bool}
    (listed : (primitive, test) ∈ primitives) (passed : test c = true) :
    c.toNat < 128 := by
  simp only [primitives, List.mem_cons, Prod.mk.injEq, List.not_mem_nil,
    or_false] at listed
  rcases listed with ⟨_, rfl⟩ | ⟨_, rfl⟩ | ⟨_, rfl⟩ | ⟨_, rfl⟩ | ⟨_, rfl⟩ |
    ⟨_, rfl⟩ | ⟨_, rfl⟩ | ⟨_, rfl⟩ | ⟨_, rfl⟩
  · exact toNat_lt_of_isDigit passed
  · obtain ⟨_, bounded⟩ := Bool.and_eq_true_iff.mp passed
    exact toNat_lt_of_le 'z' (by decide) (of_decide_eq_true bounded)
  · exact toNat_lt_of_le 'Z' (by decide) (of_decide_eq_true passed).2
  · exact toNat_lt_of_contains (by simp) passed
  · rw [eq_of_beq passed]
    decide
  · exact toNat_lt_of_contains (by simp) passed
  · exact toNat_lt_of_contains (by simp) passed
  · exact toNat_lt_of_contains (by simp) passed
  · simp only [isHexDigit, Bool.or_eq_true, Bool.and_eq_true,
      decide_eq_true_eq] at passed
    rcases passed with (digit | ⟨_, lower⟩) | ⟨_, upper⟩
    · exact toNat_lt_of_isDigit digit
    · exact toNat_lt_of_le 'f' (by decide) lower
    · exact toNat_lt_of_le 'F' (by decide) upper

theorem toNat_lt_of_mem
    {c : Char} {classes : CharClass} (member : c ∈ classes) :
    c.toNat < 128 := by
  rw [mem_iff, contains_eq_any] at member
  obtain ⟨⟨primitive, test⟩, listed, passed⟩ := List.any_eq_true.mp member
  exact toNat_lt_of_test (List.mem_filter.mp listed).1 passed

end TextGrammar.CharClass
