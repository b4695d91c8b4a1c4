import TextGrammar.Text.Group

/-!
Balanced groups by counting. A search for a group goes by depth; what it finds is
described here by the numbers of both delimiters in initial parts of a text. The
main statements are `findGroup?_eq_some_iff` and `findGroup?_eq_none_iff`: the
group that is found is the first one that balances, and there is none just if
the first opening delimiter is never balanced again.
-/

namespace TextGrammar

section

variable (opening closing : Char)

/-- With `depth` delimiters open in front of the characters, no more delimiters
close than were opened, however far they are read. -/
def StaysOpen (depth : Nat) (chars : List Char) : Prop :=
  ∀ read, read <+: chars →
    read.count closing ≤ read.count opening + depth

/-- The characters close all delimiters inside and the one in front of them, and
only their last character does so. -/
def Closes (depth : Nat) (inside : List Char) : Prop :=
  ∃ read, inside = read ++ [closing] ∧
    StaysOpen opening closing depth read ∧
    read.count closing = read.count opening + depth

/-- As many delimiters close as open, and none before one that it closes. -/
def Balanced (inside : List Char) : Prop :=
  StaysOpen opening closing 0 inside ∧
    inside.count closing = inside.count opening

def IsGroup (group : List Char) : Prop :=
  ∃ inside, group = opening :: (inside ++ [closing]) ∧
    Balanced opening closing inside

/-- No delimiter opens, or the first one that does is never balanced: however far
the characters are read behind it, no more delimiters close than open there. -/
def NeverCloses (chars : List Char) : Prop :=
  ∀ before after, chars = before ++ opening :: after → opening ∉ before →
    StaysOpen opening closing 0 after

end

variable {opening closing : Char} {depth : Nat} {chars inside : List Char}

private theorem staysOpen_cons
    {c : Char} :
    StaysOpen opening closing depth (c :: chars) ↔
      ∀ read, read <+: chars →
        (c :: read).count closing ≤ (c :: read).count opening + depth := by
  constructor
  · intro stays read initial
    exact stays (c :: read) ((List.prefix_cons_inj c).mpr initial)
  · intro stays read initial
    rcases List.prefix_cons_iff.mp initial with rfl | ⟨rest, rfl, initial⟩
    · simp
    · exact stays rest ((List.prefix_cons_inj c).mp initial)

private theorem staysOpen_opening
    (different : opening ≠ closing) :
    StaysOpen opening closing depth (opening :: chars) ↔
      StaysOpen opening closing (depth + 1) chars := by
  rw [staysOpen_cons]
  apply forall₂_congr
  intro read _
  rw [List.count_cons_of_ne different, List.count_cons_self]
  omega

private theorem staysOpen_closing
    (different : opening ≠ closing) :
    StaysOpen opening closing (depth + 1) (closing :: chars) ↔
      StaysOpen opening closing depth chars := by
  rw [staysOpen_cons]
  apply forall₂_congr
  intro read _
  rw [List.count_cons_of_ne different.symm, List.count_cons_self]
  omega

private theorem not_staysOpen_closing
    (different : opening ≠ closing) :
    ¬ StaysOpen opening closing 0 (closing :: chars) := by
  intro stays
  have overdrawn := staysOpen_cons.mp stays [] List.nil_prefix
  simp [different.symm] at overdrawn

private theorem staysOpen_other
    {c : Char} (opens : c ≠ opening) (closes : c ≠ closing) :
    StaysOpen opening closing depth (c :: chars) ↔
      StaysOpen opening closing depth chars := by
  rw [staysOpen_cons]
  apply forall₂_congr
  intro read _
  rw [List.count_cons_of_ne opens, List.count_cons_of_ne closes]

theorem closes_of_closeGroup?
    (different : opening ≠ closing) {after : List Char}
    (closed :
      closeGroup? opening closing depth chars = some (inside, after)) :
    Closes opening closing depth inside := by
  fun_induction closeGroup? opening closing depth chars
      generalizing inside after with
  | case1 depth =>
      simp at closed
  | case2 depth rest inductionHypothesis =>
      simp only [Option.map_eq_some_iff, Prod.mk.injEq] at closed
      obtain ⟨⟨tail, _⟩, found, rfl, rfl⟩ := closed
      obtain ⟨read, rfl, stays, balanced⟩ := inductionHypothesis found
      refine ⟨opening :: read, rfl, (staysOpen_opening different).mpr stays, ?_⟩
      rw [List.count_cons_of_ne different, List.count_cons_self]
      omega
  | case3 rest opens =>
      simp only [Option.some.injEq, Prod.mk.injEq] at closed
      obtain ⟨rfl, rfl⟩ := closed
      exact ⟨[], rfl, by simp [StaysOpen], rfl⟩
  | case4 rest opens outer inductionHypothesis =>
      simp only [Option.map_eq_some_iff, Prod.mk.injEq] at closed
      obtain ⟨⟨tail, _⟩, found, rfl, rfl⟩ := closed
      obtain ⟨read, rfl, stays, balanced⟩ := inductionHypothesis found
      refine ⟨closing :: read, rfl, (staysOpen_closing different).mpr stays, ?_⟩
      rw [List.count_cons_of_ne different.symm, List.count_cons_self]
      omega
  | case5 depth c rest opens closes inductionHypothesis =>
      simp only [Option.map_eq_some_iff, Prod.mk.injEq] at closed
      obtain ⟨⟨tail, _⟩, found, rfl, rfl⟩ := closed
      obtain ⟨read, rfl, stays, balanced⟩ := inductionHypothesis found
      refine ⟨c :: read, rfl, (staysOpen_other opens closes).mpr stays, ?_⟩
      rwa [List.count_cons_of_ne opens, List.count_cons_of_ne closes]

/-- A search that is `depth` groups deep fails just if the characters stay
open. -/
theorem closeGroup?_eq_none_iff
    (different : opening ≠ closing) :
    closeGroup? opening closing depth chars = none ↔
      StaysOpen opening closing depth chars := by
  fun_induction closeGroup? opening closing depth chars with
  | case1 depth =>
      simp [StaysOpen]
  | case2 depth rest inductionHypothesis =>
      rw [Option.map_eq_none_iff, inductionHypothesis,
        staysOpen_opening different]
  | case3 rest opens =>
      simp [not_staysOpen_closing different]
  | case4 rest opens outer inductionHypothesis =>
      rw [Option.map_eq_none_iff, inductionHypothesis,
        staysOpen_closing different]
  | case5 depth c rest opens closes inductionHypothesis =>
      rw [Option.map_eq_none_iff, inductionHypothesis,
        staysOpen_other opens closes]

theorem Closes.count_eq
    (different : opening ≠ closing)
    (closes : Closes opening closing depth inside) :
    inside.count closing = inside.count opening + depth + 1 := by
  obtain ⟨read, rfl, _, balanced⟩ := closes
  rw [List.count_append, List.count_append, List.count_singleton_self,
    List.count_cons_of_ne different.symm, List.count_nil]
  omega

/-- A group ends at one place only. -/
theorem Closes.eq_of_prefix
    (different : opening ≠ closing) {longer : List Char}
    (closes : Closes opening closing depth inside)
    (closesLonger : Closes opening closing depth longer)
    (initial : inside <+: longer) :
    inside = longer := by
  obtain ⟨read, rfl, stays, _⟩ := closesLonger
  rcases List.prefix_concat_iff.mp initial with same | shorter
  · exact same
  · have bounded := stays inside shorter
    have closed := closes.count_eq different
    omega

/-- The part up to the delimiter that closes the group is the one found. -/
theorem closeGroup?_append
    (different : opening ≠ closing)
    (closes : Closes opening closing depth inside) (after : List Char) :
    closeGroup? opening closing depth (inside ++ after) =
      some (inside, after) := by
  cases search : closeGroup? opening closing depth (inside ++ after) with
  | none =>
      have stays := (closeGroup?_eq_none_iff different).mp search
      have bounded := stays inside (List.prefix_append inside after)
      have closed := closes.count_eq different
      omega
  | some parts =>
      rcases parts with ⟨found, rest⟩
      have split := closeGroup?_parts search
      have closesFound := closes_of_closeGroup? different search
      have same : inside = found := by
        have initial : inside <+: inside ++ after := List.prefix_append _ _
        have initialFound : found <+: inside ++ after :=
          split ▸ List.prefix_append found rest
        rcases List.prefix_or_prefix_of_prefix initial initialFound with
          shorter | longer
        · exact closes.eq_of_prefix different closesFound shorter
        · exact (closesFound.eq_of_prefix different closes longer).symm
      subst same
      rw [List.append_cancel_left split]

/-- Nothing closes a group whose delimiters are the same. -/
theorem closeGroup?_self
    (delimiter : Char) (depth : Nat) (chars : List Char) :
    closeGroup? delimiter delimiter depth chars = none := by
  fun_induction closeGroup? delimiter delimiter depth chars with
  | case1 depth =>
      rfl
  | case2 depth rest inductionHypothesis =>
      rw [inductionHypothesis, Option.map_none]
  | case3 rest different =>
      exact absurd rfl different
  | case4 rest outer different _ =>
      exact absurd rfl different
  | case5 depth c rest opens closes inductionHypothesis =>
      rw [inductionHypothesis, Option.map_none]

theorem findGroup?_self
    (delimiter : Char) (chars : List Char) :
    findGroup? delimiter delimiter chars = none := by
  induction chars with
  | nil =>
      rfl
  | cons c rest inductionHypothesis =>
      rw [findGroup?, closeGroup?_self, inductionHypothesis, Option.map_none,
        Option.map_none, ite_self]

theorem isGroup_iff
    {group : List Char} :
    IsGroup opening closing group ↔
      ∃ inside, group = opening :: inside ∧
        Closes opening closing 0 inside := by
  constructor
  · rintro ⟨read, rfl, stays, balanced⟩
    exact ⟨read ++ [closing], rfl, read, rfl, stays, balanced⟩
  · rintro ⟨_, rfl, read, rfl, stays, balanced⟩
    exact ⟨read, rfl, stays, balanced⟩

/-- The group that a search finds is the first one that is balanced. -/
theorem findGroup?_eq_some_iff
    (different : opening ≠ closing) {before group after : List Char} :
    findGroup? opening closing chars = some (before, group, after) ↔
      chars = before ++ group ++ after ∧ opening ∉ before ∧
        IsGroup opening closing group := by
  constructor
  · intro found
    refine ⟨(findGroup?_parts found).1, ?_⟩
    induction chars generalizing before with
    | nil =>
        simp [findGroup?] at found
    | cons c rest inductionHypothesis =>
        rw [findGroup?] at found
        split at found
        · rename_i opens
          simp only [Option.map_eq_some_iff, Prod.mk.injEq] at found
          obtain ⟨⟨inside, _⟩, closed, rfl, rfl, rfl⟩ := found
          refine ⟨List.not_mem_nil, isGroup_iff.mpr ⟨inside, ?_, ?_⟩⟩
          · rw [opens]
          · exact closes_of_closeGroup? different closed
        · rename_i passes
          simp only [Option.map_eq_some_iff, Prod.mk.injEq] at found
          obtain ⟨⟨gap, _, _⟩, inner, rfl, rfl, rfl⟩ := found
          obtain ⟨free, balanced⟩ := inductionHypothesis inner
          exact ⟨List.not_mem_cons_of_ne_of_not_mem (Ne.symm passes) free,
            balanced⟩
  · rintro ⟨rfl, free, balanced⟩
    obtain ⟨inside, rfl, closes⟩ := isGroup_iff.mp balanced
    induction before with
    | nil =>
        rw [List.nil_append, List.cons_append, findGroup?, if_pos rfl,
          closeGroup?_append different closes]
        rfl
    | cons c before inductionHypothesis =>
        obtain ⟨passes, free⟩ := List.ne_and_not_mem_of_not_mem_cons free
        rw [List.cons_append, List.cons_append, findGroup?,
          if_neg passes.symm, inductionHypothesis free]
        rfl

theorem IsGroup.count_eq
    (different : opening ≠ closing) {group : List Char}
    (balanced : IsGroup opening closing group) :
    group.count opening = group.count closing := by
  obtain ⟨inside, rfl, closes⟩ := isGroup_iff.mp balanced
  rw [List.count_cons_self, List.count_cons_of_ne different,
    closes.count_eq different]

/-- A group is open until its last character. -/
theorem IsGroup.count_lt_of_prefix
    (different : opening ≠ closing) {group read : List Char}
    (balanced : IsGroup opening closing group)
    (initial : read <+: group) (nonempty : read ≠ [])
    (proper : read ≠ group) :
    read.count closing < read.count opening := by
  obtain ⟨inside, rfl, stays, _⟩ := balanced
  rcases List.prefix_cons_iff.mp initial with
    empty | ⟨rest, rfl, restInitial⟩
  · exact absurd empty nonempty
  · rcases List.prefix_concat_iff.mp restInitial with whole | within
    · exact absurd (congrArg (opening :: ·) whole) proper
    · have bounded := stays rest within
      rw [List.count_cons_self, List.count_cons_of_ne different]
      omega

private theorem neverCloses_opening :
    NeverCloses opening closing (opening :: chars) ↔
      StaysOpen opening closing 0 chars := by
  constructor
  · intro never
    exact never [] chars rfl List.not_mem_nil
  · intro stays before after split free
    cases before with
    | nil =>
        obtain ⟨_, rfl⟩ := List.cons.inj split
        exact stays
    | cons c before =>
        obtain ⟨rfl, _⟩ := List.cons.inj split
        exact absurd List.mem_cons_self free

/-- Characters that open nothing do not matter in front. -/
theorem neverCloses_append
    {text : List Char} (free : opening ∉ text) :
    NeverCloses opening closing (text ++ chars) ↔
      NeverCloses opening closing chars := by
  constructor
  · rintro never before after rfl beforeFree
    refine never (text ++ before) after (by simp) ?_
    exact List.not_mem_append free beforeFree
  · intro never before after split beforeFree
    rcases List.append_eq_append_iff.mp split with
      ⟨more, rfl, rest⟩ | ⟨more, rfl, rest⟩
    · exact never more after rest
        fun inside => beforeFree (List.mem_append_right text inside)
    · cases more with
      | nil =>
          exact never [] after rest.symm List.not_mem_nil
      | cons c more =>
          obtain ⟨rfl, _⟩ := List.cons.inj rest
          simp at free

/-- A search finds no group just if the first opening delimiter never
closes. -/
theorem findGroup?_eq_none_iff
    (different : opening ≠ closing) :
    findGroup? opening closing chars = none ↔
      NeverCloses opening closing chars := by
  induction chars with
  | nil =>
      simp [findGroup?, NeverCloses]
  | cons c rest inductionHypothesis =>
      rw [findGroup?]
      by_cases opens : c = opening
      · rw [if_pos opens, Option.map_eq_none_iff,
          closeGroup?_eq_none_iff different, opens, neverCloses_opening]
      · have free : opening ∉ [c] := by simpa using Ne.symm opens
        rw [if_neg opens, Option.map_eq_none_iff, inductionHypothesis,
          ← neverCloses_append free, List.singleton_append]

end TextGrammar
