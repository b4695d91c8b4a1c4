import TextGrammar.Cursor.Session

/-!
Which buffers of a session are the same. Every source goes back to one source
with a text of its own, and two buffers are the same just if they go back to the
same one (`Traced.buffer_eq_iff`). Texts that are equal and were given
separately are not shared.
-/

namespace TextGrammar.Cursor

/-- The source of its own text that a source goes back to. -/
inductive Origin (sources : List Source) : Nat → Nat → Prop where
  | own {index : Nat} {text : String}
      (given : sources[index]? = some (.own text)) :
      Origin sources index index
  | shared {index earlier origin : Nat}
      (given : sources[index]? = some (.shared earlier))
      (back : Origin sources earlier origin) :
      Origin sources index origin

private theorem given_append
    {sources : List Source} {index : Nat} {source : Source}
    (given : sources[index]? = some source) (more : List Source) :
    (sources ++ more)[index]? = some source := by
  have inside := (List.getElem?_eq_some_iff.mp given).1
  rw [List.getElem?_append_left inside, given]

namespace Origin

variable {sources : List Source} {index origin : Nat}

theorem append
    (traced : Origin sources index origin) (more : List Source) :
    Origin (sources ++ more) index origin := by
  induction traced with
  | own given =>
      exact own (given_append given more)
  | shared given _ inductionHypothesis =>
      exact shared (given_append given more) inductionHypothesis

/-- A source goes back to one source only. -/
theorem unique
    {other : Nat}
    (traced : Origin sources index origin)
    (tracedOther : Origin sources index other) :
    origin = other := by
  induction traced with
  | own given =>
      cases tracedOther with
      | own _ =>
          rfl
      | shared givenOther _ =>
          simp [given] at givenOther
  | shared given _ inductionHypothesis =>
      cases tracedOther with
      | own givenOther =>
          simp [given] at givenOther
      | shared givenOther backOther =>
          have same := given.symm.trans givenOther
          simp only [Option.some.injEq, Source.shared.injEq] at same
          rw [← same] at backOther
          exact inductionHypothesis backOther

end Origin

namespace Session

/-- Buffers that stand for sources: the key of each is the origin of its source,
and it holds the text that was given there. -/
structure Traced (sources : List Source) (buffers : List Buffer) : Prop where
  length_eq : buffers.length = sources.length
  origin : ∀ (index : Nat) (buffer : Buffer),
    buffers[index]? = some buffer → Origin sources index buffer.key
  text_given : ∀ (index : Nat) (buffer : Buffer),
    buffers[index]? = some buffer →
      sources[buffer.key]? = some (.own (String.ofList buffer.chars))

/-- The buffer that is added is the only one to look at. -/
theorem Traced.concat
    {sources : List Source} {buffers : List Buffer} {source : Source}
    {newest : Buffer}
    (traced : Traced sources buffers)
    (origin : Origin (sources ++ [source]) buffers.length newest.key)
    (text_given : (sources ++ [source])[newest.key]? =
      some (.own (String.ofList newest.chars))) :
    Traced (sources ++ [source]) (buffers ++ [newest]) := by
  have cases_index :
      ∀ (index : Nat) (buffer : Buffer),
        (buffers ++ [newest])[index]? = some buffer →
        buffers[index]? = some buffer ∨
          index = buffers.length ∧ newest = buffer := by
    intro index buffer known
    by_cases old : index < buffers.length
    · rw [List.getElem?_append_left old] at known
      exact Or.inl known
    · have bound := (List.getElem?_eq_some_iff.mp known).1
      rw [List.length_append, List.length_singleton] at bound
      have atEnd : index = buffers.length := by omega
      rw [atEnd, List.getElem?_concat_length] at known
      exact Or.inr ⟨atEnd, Option.some.inj known⟩
  constructor
  · rw [List.length_append, List.length_append, traced.length_eq,
      List.length_singleton, List.length_singleton]
  · intro index buffer known
    rcases cases_index index buffer known with old | ⟨atEnd, same⟩
    · exact (traced.origin index buffer old).append [source]
    · rw [atEnd, ← same]
      exact origin
  · intro index buffer known
    rcases cases_index index buffer known with old | ⟨_, same⟩
    · exact given_append (traced.text_given index buffer old) [source]
    · rw [← same]
      exact text_given

/-- A source more adds a buffer that stands for it. -/
theorem Traced.addSource?
    {sources : List Source} {buffers more : List Buffer} {source : Source}
    (traced : Traced sources buffers)
    (added : Session.addSource? buffers source = some more) :
    Traced (sources ++ [source]) more := by
  have last : (sources ++ [source])[buffers.length]? = some source := by
    rw [traced.length_eq, List.getElem?_concat_length]
  cases source with
  | own text =>
      rw [← Option.some.inj added]
      apply traced.concat (.own last)
      rw [last, String.ofList_toList]
  | shared earlier =>
      rcases Option.bind_eq_some_iff.mp added with ⟨buffer, known, same⟩
      rw [← Option.some.inj same]
      have back := (traced.origin earlier buffer known).append
        [Source.shared earlier]
      exact traced.concat (.shared last back)
        (given_append (traced.text_given earlier buffer known) _)

private theorem Traced.foldlM
    {before sources : List Source} {buffers done : List Buffer}
    (traced : Traced before buffers)
    (made : sources.foldlM Session.addSource? buffers = some done) :
    Traced (before ++ sources) done := by
  induction sources generalizing before buffers with
  | nil =>
      rw [List.append_nil, ← Option.some.inj made]
      exact traced
  | cons source sources inductionHypothesis =>
      rw [List.foldlM_cons] at made
      rcases Option.bind_eq_some_iff.mp made with ⟨more, added, made⟩
      have goesOn := inductionHypothesis (traced.addSource? added) made
      rwa [List.append_assoc] at goesOn

theorem traced_of_made
    {sources : List Source} {session : Session}
    (made : ofSources? sources = some session) :
    Traced sources session.buffers := by
  rcases Option.bind_eq_some_iff.mp made with ⟨buffers, folded, same⟩
  rw [← Option.some.inj same]
  have start : Traced [] [] := ⟨rfl, by simp, by simp⟩
  exact start.foldlM folded

/-- Two buffers of a session are the same just if their sources go back to the
same one. -/
theorem Traced.buffer_eq_iff
    {sources : List Source} {buffers : List Buffer}
    {left right : Buffer} {index other : Nat}
    (traced : Traced sources buffers)
    (known : buffers[index]? = some left)
    (otherKnown : buffers[other]? = some right) :
    left = right ↔
      ∃ origin, Origin sources index origin ∧ Origin sources other origin := by
  have leftOrigin := traced.origin index left known
  have rightOrigin := traced.origin other right otherKnown
  constructor
  · intro same
    refine ⟨left.key, leftOrigin, ?_⟩
    rw [same]
    exact rightOrigin
  · intro shared
    rcases shared with ⟨origin, fromLeft, fromRight⟩
    have sameKey : left.key = right.key :=
      (leftOrigin.unique fromLeft).trans (rightOrigin.unique fromRight).symm
    have leftGiven := traced.text_given index left known
    rw [sameKey, traced.text_given other right otherKnown] at leftGiven
    simp only [Option.some.injEq, Source.own.injEq, String.ofList_inj]
      at leftGiven
    cases left
    cases right
    simp only [Buffer.mk.injEq]
    exact ⟨leftGiven.symm, sameKey⟩

end Session

end TextGrammar.Cursor
