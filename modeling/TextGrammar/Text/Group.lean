import TextGrammar.Text.Offset

/-!
Groups between two delimiters. A group begins with the first opening delimiter
and ends with the closing one that belongs to it, so groups may nest. The main
statement is `findGroup?_parts`: the parts that a search finds make up the
characters again, and the group is not empty.
-/

namespace TextGrammar

/-- Cuts the characters behind the delimiter that closes a group with `depth`
open groups inside it. A character that is both delimiters opens. -/
def closeGroup? (opening closing : Char) :
    (depth : Nat) → List Char → Option (List Char × List Char)
  | _, [] => none
  | depth, c :: rest =>
      if c = opening then
        (closeGroup? opening closing (depth + 1) rest).map
          fun (inside, after) => (c :: inside, after)
      else if c = closing then
        match depth with
        | 0 => some ([c], rest)
        | outer + 1 =>
            (closeGroup? opening closing outer rest).map
              fun (inside, after) => (c :: inside, after)
      else
        (closeGroup? opening closing depth rest).map
          fun (inside, after) => (c :: inside, after)

/-- What stands before the first group, the group with its delimiters, and what
stands after it. A closing delimiter before the group is ordinary text. There
is no group if the first opening delimiter is never closed. -/
def findGroup? (opening closing : Char) :
    List Char → Option (List Char × List Char × List Char)
  | [] => none
  | c :: rest =>
      if c = opening then
        (closeGroup? opening closing 0 rest).map
          fun (inside, after) => ([], c :: inside, after)
      else
        (findGroup? opening closing rest).map
          fun (before, group, after) => (c :: before, group, after)

theorem closeGroup?_parts
    {opening closing : Char} {depth : Nat}
    {chars inside after : List Char}
    (closed :
      closeGroup? opening closing depth chars = some (inside, after)) :
    chars = inside ++ after := by
  fun_induction closeGroup? opening closing depth chars
      generalizing inside after with
  | case1 depth =>
      simp at closed
  | case2 depth rest inductionHypothesis =>
      simp only [Option.map_eq_some_iff, Prod.mk.injEq] at closed
      obtain ⟨⟨tail, _⟩, found, rfl, rfl⟩ := closed
      simpa using inductionHypothesis found
  | case3 rest opens =>
      simp only [Option.some.injEq, Prod.mk.injEq] at closed
      obtain ⟨rfl, rfl⟩ := closed
      rfl
  | case4 rest opens outer inductionHypothesis =>
      simp only [Option.map_eq_some_iff, Prod.mk.injEq] at closed
      obtain ⟨⟨tail, _⟩, found, rfl, rfl⟩ := closed
      simpa using inductionHypothesis found
  | case5 depth c rest opens closes inductionHypothesis =>
      simp only [Option.map_eq_some_iff, Prod.mk.injEq] at closed
      obtain ⟨⟨tail, _⟩, found, rfl, rfl⟩ := closed
      simpa using inductionHypothesis found

/-- The parts that a search finds make up the characters again, and the group
begins with the opening delimiter. -/
theorem findGroup?_parts
    {opening closing : Char} {chars before group after : List Char}
    (found :
      findGroup? opening closing chars = some (before, group, after)) :
    chars = before ++ group ++ after ∧ group.head? = some opening := by
  induction chars generalizing before group after with
  | nil =>
      simp [findGroup?] at found
  | cons c rest inductionHypothesis =>
      rw [findGroup?] at found
      split at found
      · rename_i opens
        simp only [Option.map_eq_some_iff, Prod.mk.injEq] at found
        obtain ⟨⟨tail, _⟩, closed, rfl, rfl, rfl⟩ := found
        simpa [opens] using closeGroup?_parts closed
      · simp only [Option.map_eq_some_iff, Prod.mk.injEq] at found
        obtain ⟨⟨tail, _, _⟩, inner, rfl, rfl, rfl⟩ := found
        simpa using inductionHypothesis inner

theorem byteLength_group_pos
    {opening closing : Char} {chars before group after : List Char}
    (found :
      findGroup? opening closing chars = some (before, group, after)) :
    0 < byteLength group := by
  have opens := (findGroup?_parts found).2
  cases group with
  | nil =>
      simp at opens
  | cons c rest =>
      have positive := c.utf8Size_pos
      simp only [byteLength_cons]
      omega

end TextGrammar
