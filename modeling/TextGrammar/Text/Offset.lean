/-!
Byte offsets into a list of characters. A text is read as the list of its
characters, while offsets count the bytes of its UTF-8 form, so an offset may
fall inside a character. `dropBytes?` and `takeBytes?` cut at an offset and
refuse one that does; `window?` reads the characters between two offsets. The
main statement is `window?_eq_some_iff`, which says when a reading succeeds and
what it gives.
-/

namespace TextGrammar

/-- The number of bytes that the characters take in UTF-8. -/
def byteLength : List Char → Nat
  | [] => 0
  | c :: rest => c.utf8Size + byteLength rest

@[simp] theorem byteLength_nil :
    byteLength [] = 0 := rfl

@[simp] theorem byteLength_cons
    (c : Char) (rest : List Char) :
    byteLength (c :: rest) = c.utf8Size + byteLength rest := rfl

@[simp] theorem byteLength_append
    (initial rest : List Char) :
    byteLength (initial ++ rest) =
      byteLength initial + byteLength rest := by
  induction initial with
  | nil =>
      simp
  | cons c tail inductionHypothesis =>
      simp [inductionHypothesis, Nat.add_assoc]

theorem byteLength_eq_zero_iff
    {chars : List Char} :
    byteLength chars = 0 ↔ chars = [] := by
  cases chars with
  | nil =>
      simp
  | cons c rest =>
      have positive := c.utf8Size_pos
      simp only [byteLength_cons, reduceCtorEq, iff_false]
      omega

/-- What follows the first `count` bytes, or `none` if there are fewer bytes or
the last of them falls inside a character. -/
def dropBytes? : List Char → (count : Nat) → Option (List Char)
  | [], count => if count = 0 then some [] else none
  | c :: rest, count =>
      if count = 0 then
        some (c :: rest)
      else if c.utf8Size ≤ count then
        dropBytes? rest (count - c.utf8Size)
      else
        none

/-- The characters of the first `count` bytes, under the same conditions. -/
def takeBytes? : List Char → (count : Nat) → Option (List Char)
  | [], count => if count = 0 then some [] else none
  | c :: rest, count =>
      if count = 0 then
        some []
      else if c.utf8Size ≤ count then
        (takeBytes? rest (count - c.utf8Size)).map (c :: ·)
      else
        none

/-- What follows some bytes is found at just the byte lengths of initial
parts. -/
theorem dropBytes?_eq_some_iff
    {chars after : List Char} {count : Nat} :
    dropBytes? chars count = some after ↔
      ∃ before, chars = before ++ after ∧ byteLength before = count := by
  induction chars generalizing count with
  | nil =>
      simp only [dropBytes?, Option.ite_none_right_eq_some,
        Option.some.injEq, List.nil_eq, List.append_eq_nil_iff]
      constructor
      · rintro ⟨rfl, rfl⟩
        exact ⟨[], ⟨rfl, rfl⟩, rfl⟩
      · rintro ⟨_, ⟨rfl, rfl⟩, rfl⟩
        exact ⟨rfl, rfl⟩
  | cons c rest inductionHypothesis =>
      have positive := c.utf8Size_pos
      simp only [dropBytes?]
      constructor
      · intro found
        split at found
        · rename_i atStart
          simp only [Option.some.injEq] at found
          exact ⟨[], found, atStart.symm⟩
        · split at found
          · obtain ⟨before, rfl, length⟩ := inductionHypothesis.mp found
            exact ⟨c :: before, rfl, by simp only [byteLength_cons]; omega⟩
          · contradiction
      · rintro ⟨before, split, length⟩
        cases before with
        | nil =>
            rw [if_pos (by simpa using length.symm), split]
            rfl
        | cons head tail =>
            simp only [List.cons_append, List.cons.injEq] at split
            obtain ⟨rfl, split⟩ := split
            simp only [byteLength_cons] at length
            rw [if_neg (by omega), if_pos (by omega)]
            exact inductionHypothesis.mpr ⟨tail, split, by omega⟩

/-- The first bytes are found at just the byte lengths of initial parts. -/
theorem takeBytes?_eq_some_iff
    {chars before : List Char} {count : Nat} :
    takeBytes? chars count = some before ↔
      ∃ after, chars = before ++ after ∧ byteLength before = count := by
  induction chars generalizing before count with
  | nil =>
      simp only [takeBytes?, Option.ite_none_right_eq_some,
        Option.some.injEq, List.nil_eq, List.append_eq_nil_iff]
      constructor
      · rintro ⟨rfl, rfl⟩
        exact ⟨[], ⟨rfl, rfl⟩, rfl⟩
      · rintro ⟨_, ⟨rfl, rfl⟩, rfl⟩
        exact ⟨rfl, rfl⟩
  | cons c rest inductionHypothesis =>
      have positive := c.utf8Size_pos
      simp only [takeBytes?]
      constructor
      · intro found
        split at found
        · rename_i atStart
          simp only [Option.some.injEq] at found
          subst found
          exact ⟨c :: rest, rfl, atStart.symm⟩
        · split at found
          · obtain ⟨tail, inner, rfl⟩ := Option.map_eq_some_iff.mp found
            obtain ⟨after, rfl, length⟩ := inductionHypothesis.mp inner
            exact ⟨after, rfl, by simp only [byteLength_cons]; omega⟩
          · contradiction
      · rintro ⟨after, split, length⟩
        cases before with
        | nil =>
            rw [if_pos (by simpa using length.symm)]
        | cons head tail =>
            simp only [List.cons_append, List.cons.injEq] at split
            obtain ⟨rfl, split⟩ := split
            simp only [byteLength_cons] at length
            rw [if_neg (by omega), if_pos (by omega),
              inductionHypothesis.mpr ⟨after, split, by omega⟩]
            rfl

/-- An offset that stands between two characters, at the start or at the
end. -/
def IsBoundary (chars : List Char) (offset : Nat) : Prop :=
  (dropBytes? chars offset).isSome

instance (chars : List Char) (offset : Nat) :
    Decidable (IsBoundary chars offset) :=
  inferInstanceAs (Decidable ((dropBytes? chars offset).isSome = true))

theorem isBoundary_iff
    {chars : List Char} {offset : Nat} :
    IsBoundary chars offset ↔
      ∃ before after,
        chars = before ++ after ∧ byteLength before = offset := by
  simp only [IsBoundary, Option.isSome_iff_exists, dropBytes?_eq_some_iff]
  exact exists_comm

/-- The characters between two byte offsets, or `none` if the offsets are
reversed, lie beyond the end or fall inside a character. -/
def window? (chars : List Char) (start stop : Nat) :
    Option (List Char) :=
  if start ≤ stop then do
    let fromStart ← dropBytes? chars start
    takeBytes? fromStart (stop - start)
  else
    none

/-- A reading succeeds just when both offsets stand at the ends of a part of
the text, and it gives that part. -/
theorem window?_eq_some_iff
    {chars inside : List Char} {start stop : Nat} :
    window? chars start stop = some inside ↔
      ∃ before after,
        chars = before ++ inside ++ after ∧
          byteLength before = start ∧
          start + byteLength inside = stop := by
  simp only [window?, Option.ite_none_right_eq_some, Option.bind_eq_bind,
    Option.bind_eq_some_iff, dropBytes?_eq_some_iff, takeBytes?_eq_some_iff]
  constructor
  · rintro ⟨ordered, _, ⟨before, rfl, length⟩, after, rfl, inner⟩
    exact ⟨before, after, by simp, length, by omega⟩
  · rintro ⟨before, after, rfl, length, inner⟩
    exact ⟨by omega, inside ++ after, ⟨before, by simp, length⟩, after, rfl,
      by omega⟩

theorem byteLength_of_window?
    {chars inside : List Char} {start stop : Nat}
    (found : window? chars start stop = some inside) :
    start + byteLength inside = stop := by
  obtain ⟨_, _, _, _, length⟩ := window?_eq_some_iff.mp found
  exact length

end TextGrammar
