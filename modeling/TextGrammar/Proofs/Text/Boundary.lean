import TextGrammar.Text.Offset

/-!
Boundaries and readings. Two cuts of one text are in the order of their
offsets, so a reading succeeds just between two boundaries in order. The main
statement is `exists_window?_iff`.
-/

namespace TextGrammar

theorem isBoundary_append
    (before after : List Char) :
    IsBoundary (before ++ after) (byteLength before) :=
  isBoundary_iff.mpr ⟨before, after, rfl, rfl⟩

theorem IsBoundary.le_byteLength
    {chars : List Char} {offset : Nat}
    (boundary : IsBoundary chars offset) :
    offset ≤ byteLength chars := by
  rcases isBoundary_iff.mp boundary with ⟨before, after, rfl, rfl⟩
  rw [byteLength_append]
  exact Nat.le_add_right _ _

theorem byteLength_le_of_suffix
    {rest chars : List Char} (final : rest <:+ chars) :
    byteLength rest ≤ byteLength chars := by
  rcases final with ⟨read, rfl⟩
  rw [byteLength_append]
  exact Nat.le_add_left _ _

/-- A final part is shorter in bytes just if it is shorter in characters. -/
theorem byteLength_lt_iff_of_suffix
    {rest chars : List Char} (final : rest <:+ chars) :
    byteLength rest < byteLength chars ↔ rest.length < chars.length := by
  rcases final with ⟨read, rfl⟩
  rw [byteLength_append, List.length_append]
  cases read with
  | nil =>
      simp
  | cons c tail =>
      have positive := c.utf8Size_pos
      rw [byteLength_cons, List.length_cons]
      omega

/-- Of two cuts of one text, the one with the smaller offset comes first. -/
theorem exists_middle_of_byteLength_le
    {left right before after : List Char}
    (same : left ++ right = before ++ after)
    (ordered : byteLength left ≤ byteLength before) :
    ∃ middle, before = left ++ middle ∧ right = middle ++ after := by
  rcases List.append_eq_append_iff.mp same with
    ⟨middle, beforeEq, rightEq⟩ | ⟨overlap, leftEq, afterEq⟩
  · exact ⟨middle, beforeEq, rightEq⟩
  · have overlapEmpty : overlap = [] := by
      rw [leftEq, byteLength_append] at ordered
      exact byteLength_eq_zero_iff.mp (by omega)
    rw [overlapEmpty, List.append_nil] at leftEq
    rw [overlapEmpty, List.nil_append] at afterEq
    exact ⟨[], by rw [leftEq, List.append_nil], by rw [afterEq]; rfl⟩

/-- Between two boundaries in order there is something to read, and nowhere
else. -/
theorem exists_window?_iff
    {chars : List Char} {start stop : Nat} :
    (∃ inside, window? chars start stop = some inside) ↔
      start ≤ stop ∧ IsBoundary chars start ∧ IsBoundary chars stop := by
  constructor
  · rintro ⟨inside, read⟩
    rcases window?_eq_some_iff.mp read with ⟨before, after, rfl, rfl, rfl⟩
    refine ⟨Nat.le_add_right _ _, ?_, ?_⟩
    · rw [List.append_assoc]
      exact isBoundary_append before (inside ++ after)
    · rw [← byteLength_append]
      exact isBoundary_append (before ++ inside) after
  · rintro ⟨ordered, startBoundary, stopBoundary⟩
    rcases isBoundary_iff.mp startBoundary with ⟨left, right, rfl, rfl⟩
    rcases isBoundary_iff.mp stopBoundary with ⟨before, after, same, rfl⟩
    rcases exists_middle_of_byteLength_le same ordered with ⟨middle, rfl, rfl⟩
    refine ⟨middle, window?_eq_some_iff.mpr ⟨left, after, ?_, rfl, ?_⟩⟩
    · rw [List.append_assoc]
    · rw [byteLength_append]

/-- Cutting off the end first gives the same reading. -/
theorem window?_eq_bind
    (chars : List Char) (start stop : Nat) :
    window? chars start stop =
      (takeBytes? chars stop).bind fun window => dropBytes? window start := by
  apply Option.ext
  intro inside
  simp only [window?_eq_some_iff, Option.bind_eq_some_iff,
    takeBytes?_eq_some_iff, dropBytes?_eq_some_iff]
  constructor
  · rintro ⟨before, after, rfl, rfl, rfl⟩
    exact ⟨before ++ inside, ⟨after, rfl, byteLength_append before inside⟩,
      before, rfl, rfl⟩
  · rintro ⟨_, ⟨after, rfl, rfl⟩, before, rfl, rfl⟩
    exact ⟨before, after, rfl, rfl, (byteLength_append before inside).symm⟩

theorem window?_whole
    (chars : List Char) :
    window? chars 0 (byteLength chars) = some chars :=
  window?_eq_some_iff.mpr ⟨[], [], by simp, rfl, by simp⟩

/-- A reading cut behind some of its characters is the reading of the rest. -/
theorem window?_of_append
    {chars read rest : List Char} {start stop : Nat}
    (found : window? chars start stop = some (read ++ rest)) :
    window? chars start (start + byteLength read) = some read ∧
      window? chars (start + byteLength read) stop = some rest := by
  rcases window?_eq_some_iff.mp found with ⟨before, after, rfl, rfl, rfl⟩
  constructor
  · exact window?_eq_some_iff.mpr
      ⟨before, rest ++ after, by simp, rfl, rfl⟩
  · exact window?_eq_some_iff.mpr
      ⟨before ++ read, after, by simp, by simp, by simp [Nat.add_assoc]⟩

/-- Of two readings from one offset, the shorter one begins the longer one. -/
theorem prefix_of_window?
    {chars short long : List Char} {start middle stop : Nat}
    (shortRead : window? chars start middle = some short)
    (longRead : window? chars start stop = some long)
    (ordered : middle ≤ stop) :
    short <+: long := by
  have shortLength := byteLength_of_window? shortRead
  have longLength := byteLength_of_window? longRead
  obtain ⟨before, shortAfter, rfl, atStart, _⟩ :=
    window?_eq_some_iff.mp shortRead
  obtain ⟨other, longAfter, same, otherStart, _⟩ :=
    window?_eq_some_iff.mp longRead
  rw [List.append_assoc, List.append_assoc] at same
  obtain ⟨gap, rfl, behind⟩ :=
    exists_middle_of_byteLength_le same (by omega)
  have noGap : gap = [] := by
    rw [byteLength_append] at otherStart
    exact byteLength_eq_zero_iff.mp (by omega)
  rw [noGap, List.nil_append] at behind
  obtain ⟨more, split, _⟩ :=
    exists_middle_of_byteLength_le behind (by omega)
  exact ⟨more, split.symm⟩

end TextGrammar
