import Mathlib.Data.List.DropRight
import Mathlib.Data.Prod.Lex
import TextGrammar.Position
import TextGrammar.Proofs.Text.Boundary

/-!
Lines and columns of byte offsets. The place of an offset is read off the
longest initial part of the text that ends at or before it: the newlines of this
part give the line, and what follows the last of them gives the column. Every
character moves a place forward, so the places of boundaries are in the order of
their offsets. The main statement is `locate_counts_newlines`.
-/

namespace TextGrammar.Position

structure LongestBefore (chars : List Char) (offset : Nat)
    (before : List Char) : Prop where
  initial : before <+: chars
  inside : byteLength before ≤ offset
  longest : ∀ other, other <+: chars → byteLength other ≤ offset →
    other <+: before

section

variable {chars before : List Char} {offset : Nat}

theorem LongestBefore.unique
    {other : List Char} (left : LongestBefore chars offset before)
    (right : LongestBefore chars offset other) :
    before = other := by
  have shorter := right.longest before left.initial left.inside
  have longer := left.longest other right.initial right.inside
  exact shorter.eq_of_length_le longer.length_le

/-- An initial part is the longest one if the next character ends beyond the
offset. -/
theorem longestBefore_append
    (before after : List Char)
    (inside : byteLength before ≤ offset)
    (beyond : ∀ c ∈ after.head?, offset < byteLength before + c.utf8Size) :
    LongestBefore (before ++ after) offset before where
  initial := List.prefix_append before after
  inside := inside
  longest other initial short := by
    rcases List.prefix_or_prefix_of_prefix initial
        (List.prefix_append before after) with shorter | ⟨more, rfl⟩
    · exact shorter
    · rw [List.prefix_append_right_inj] at initial
      cases more with
      | nil =>
          exact ⟨[], by rw [List.append_nil, List.append_nil]⟩
      | cons c more =>
          obtain ⟨rest, rfl⟩ := initial
          have next := beyond c rfl
          rw [byteLength_append, byteLength_cons] at short
          omega

theorem longestBefore_wholeCharsBefore
    (chars : List Char) (offset : Nat) :
    LongestBefore chars offset (wholeCharsBefore chars offset) := by
  induction chars generalizing offset with
  | nil =>
      exact longestBefore_append [] [] (Nat.zero_le offset) (by simp)
  | cons c rest inductionHypothesis =>
      rw [wholeCharsBefore]
      by_cases fits : c.utf8Size ≤ offset
      · rw [if_pos fits]
        obtain ⟨⟨after, split⟩, inside, longest⟩ :=
          inductionHypothesis (offset - c.utf8Size)
        refine ⟨⟨after, by rw [List.cons_append, split]⟩, ?_, ?_⟩
        · rw [byteLength_cons]
          omega
        · intro other initial short
          cases other with
          | nil =>
              exact List.nil_prefix
          | cons d other =>
              obtain ⟨rfl, further⟩ := List.cons_prefix_cons.mp initial
              rw [byteLength_cons] at short
              rw [List.prefix_cons_inj]
              exact longest other further (by omega)
      · rw [if_neg fits]
        exact longestBefore_append [] (c :: rest) (Nat.zero_le offset)
          (by simpa using fits)

end

def lastLine (chars : List Char) : List Char :=
  chars.rtakeWhile (· ≠ '\n')

private theorem lastLine_append_newline
    (before : List Char) : lastLine (before ++ ['\n']) = [] :=
  List.rtakeWhile_concat_neg _ _ _ (by simp)

private theorem lastLine_append_of_ne
    (before : List Char) {c : Char} (other : c ≠ '\n') :
    lastLine (before ++ [c]) = lastLine before ++ [c] :=
  List.rtakeWhile_concat_pos _ _ _ (by simpa using other)

private theorem foldl_step_start
    (before : List Char) :
    before.foldl step start =
      { line := 1 + before.count '\n'
        column := 1 + (lastLine before).length
        offset := 0 } := by
  induction before using List.reverseRecOn with
  | nil =>
      rfl
  | append_singleton before c inductionHypothesis =>
      rw [List.foldl_append, inductionHypothesis, List.count_append]
      by_cases newline : c = '\n'
      · rw [newline, lastLine_append_newline]
        rfl
      · rw [lastLine_append_of_ne before newline]
        simp [step, newline, Nat.add_assoc]

theorem locate_of_longestBefore
    {text : String} {offset : Nat} {before : List Char}
    (longest :
      LongestBefore text.toList (min offset (byteLength text.toList)) before) :
    locate text offset =
      { line := 1 + before.count '\n'
        column := 1 + (lastLine before).length
        offset := min offset (byteLength text.toList) } := by
  have same := (longestBefore_wholeCharsBefore _ _).unique longest
  simp only [locate, same, foldl_step_start]

/-- A walk over the characters behind byte `reached`. It stops at the first
character that ends beyond the offset. -/
def walk (offset : Nat) : List Char → (reached : Nat) → Position → Position
  | [], _, place => place
  | c :: rest, reached, place =>
      if offset < reached + c.utf8Size then
        place
      else
        walk offset rest (reached + c.utf8Size) (place.step c)

private theorem walk_eq_foldl
    (chars : List Char) (count reached : Nat) (place : Position) :
    walk (reached + count) chars reached place =
      (wholeCharsBefore chars count).foldl step place := by
  induction chars generalizing count reached place with
  | nil =>
      rfl
  | cons c rest inductionHypothesis =>
      rw [walk, wholeCharsBefore]
      by_cases fits : c.utf8Size ≤ count
      · have split :
            reached + count = reached + c.utf8Size + (count - c.utf8Size) := by
          omega
        rw [if_neg (by omega), if_pos fits, split, inductionHypothesis,
          List.foldl_cons]
      · rw [if_pos (by omega), if_neg fits]
        rfl

/-- The place of an offset is where a walk from the start stops. -/
theorem locate_eq_walk
    (text : String) (offset : Nat) :
    locate text offset =
      { walk (min offset (byteLength text.toList)) text.toList 0 start with
        offset := min offset (byteLength text.toList) } := by
  have walked := walk_eq_foldl text.toList
    (min offset (byteLength text.toList)) 0 start
  rw [Nat.zero_add] at walked
  rw [walked]
  rfl

/-- The line and the column. Of two places the one in the smaller line comes
first, and in one line the one in the smaller column. -/
def key (place : Position) : Nat ×ₗ Nat :=
  toLex (place.line, place.column)

private theorem key_lt_key_step
    (place : Position) (c : Char) : place.key < (place.step c).key := by
  rw [key, key, Prod.Lex.toLex_lt_toLex, step]
  split
  · exact Or.inl (Nat.lt_succ_self _)
  · exact Or.inr ⟨rfl, Nat.lt_succ_self _⟩

private theorem key_lt_key_foldl
    {chars : List Char} (nonempty : chars ≠ []) (place : Position) :
    place.key < (chars.foldl step place).key := by
  induction chars generalizing place with
  | nil =>
      contradiction
  | cons c rest inductionHypothesis =>
      rw [List.foldl_cons]
      by_cases last : rest = []
      · rw [last]
        exact key_lt_key_step place c
      · exact (key_lt_key_step place c).trans
          (inductionHypothesis last (place.step c))

/-- From a boundary up to the end of the next character, the line and the column
are those behind the characters before it. -/
theorem key_locate_of_append
    {text : String} {before after : List Char} {offset : Nat}
    (split : text.toList = before ++ after)
    (inside : byteLength before ≤ offset)
    (beyond : ∀ c ∈ after.head?, offset < byteLength before + c.utf8Size) :
    (locate text offset).key = (before.foldl step start).key := by
  have longest :
      LongestBefore text.toList (min offset (byteLength text.toList))
        before := by
    rw [split]
    apply longestBefore_append
    · rw [byteLength_append]
      omega
    · intro c next
      exact Nat.lt_of_le_of_lt (Nat.min_le_left _ _) (beyond c next)
  rw [locate_of_longestBefore longest, foldl_step_start]
  rfl

private theorem key_locate_of_boundary
    {text : String} {before after : List Char}
    (split : text.toList = before ++ after) :
    (locate text (byteLength before)).key =
      (before.foldl step start).key := by
  apply key_locate_of_append split (Nat.le_refl _)
  intro c _
  exact Nat.lt_add_of_pos_right c.utf8Size_pos

theorem strictMonoOn_key_locate
    (text : String) :
    StrictMonoOn (fun offset => (locate text offset).key)
      {offset | IsBoundary text.toList offset} := by
  intro left leftBoundary right rightBoundary ordered
  obtain ⟨before, after, split, rfl⟩ := isBoundary_iff.mp leftBoundary
  obtain ⟨longer, rest, splitAgain, rfl⟩ := isBoundary_iff.mp rightBoundary
  obtain ⟨middle, rfl, rfl⟩ :=
    exists_middle_of_byteLength_le (split.symm.trans splitAgain) ordered.le
  have nonempty : middle ≠ [] := by
    rintro rfl
    rw [List.append_nil] at ordered
    exact Nat.lt_irrefl _ ordered
  show (locate text _).key < (locate text _).key
  rw [key_locate_of_boundary split, key_locate_of_boundary splitAgain,
    List.foldl_append]
  exact key_lt_key_foldl nonempty _

/-- The line counts the newlines, and the column the characters behind the last
of them, in the longest part of the text that ends at or before the offset, where
an offset beyond the end counts as the end. A walk that stops at the first
character beyond the offset comes to the same place. Places of boundaries are in
the order of their offsets, and inside a character the line and the column are
those of its start. -/
theorem locate_counts_newlines
    (text : String) :
    (∀ offset, ∃ before,
      LongestBefore text.toList (min offset (byteLength text.toList)) before ∧
        locate text offset =
          { line := 1 + before.count '\n'
            column := 1 + (lastLine before).length
            offset := min offset (byteLength text.toList) }) ∧
      (∀ offset,
        locate text offset =
          { walk (min offset (byteLength text.toList)) text.toList 0 start with
            offset := min offset (byteLength text.toList) }) ∧
      StrictMonoOn (fun offset => (locate text offset).key)
        {offset | IsBoundary text.toList offset} ∧
      ∀ before c after offset, text.toList = before ++ c :: after →
        byteLength before ≤ offset → offset < byteLength before + c.utf8Size →
          (locate text offset).key =
            (locate text (byteLength before)).key := by
  refine ⟨?_, locate_eq_walk text, strictMonoOn_key_locate text, ?_⟩
  · intro offset
    have longest := longestBefore_wholeCharsBefore text.toList
      (min offset (byteLength text.toList))
    exact ⟨_, longest, locate_of_longestBefore longest⟩
  · intro before c after offset split inside short
    have beyond : ∀ d ∈ (c :: after).head?,
        offset < byteLength before + d.utf8Size := by
      simpa using short
    rw [key_locate_of_append split inside beyond,
      key_locate_of_boundary split]

/-- Inside the accent of `a\né!` the place is that of the accent, which comes
before the place of the mark behind it. -/
theorem locate_counts_newlines_inside_accent :
    locate "a\né!" 3 = { line := 2, column := 1, offset := 3 } ∧
      (locate "a\né!" 3).key = (locate "a\né!" 2).key ∧
      (locate "a\né!" 2).key < (locate "a\né!" 4).key := by
  obtain ⟨counted, _, ordered, inside⟩ := locate_counts_newlines "a\né!"
  obtain ⟨before, longest, place⟩ := counted 3
  have same : before = ['a', '\n'] :=
    longest.unique
      (longestBefore_append ['a', '\n'] ['é', '!'] (by decide)
        (by rintro _ ⟨⟩; decide))
  rw [same] at place
  refine ⟨place, ?_, ?_⟩
  · exact inside ['a', '\n'] 'é' ['!'] 3 (by decide) (by decide) (by decide)
  · exact ordered (by decide : IsBoundary "a\né!".toList 2)
      (by decide : IsBoundary "a\né!".toList 4) (by decide)

end TextGrammar.Position
