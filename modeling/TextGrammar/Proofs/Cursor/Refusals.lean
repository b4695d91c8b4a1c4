import TextGrammar.Proofs.Cursor.InPlace
import TextGrammar.Proofs.Cursor.Sharing

/-!
What sessions refuse. `Session.Refuses` gives the error for every command that
must not be carried out, by the bounds and the buffers that it asks for. In
every session that commands lead to these are all the errors, a refused command
leaves no trace, and one that is carried out writes its own cursors only
(`run_refuses_exactly`).
-/

namespace TextGrammar.Cursor

/-- What bounds in a buffer are refused for. The range comes before the
boundaries, and of two bounds off a boundary the first is reported. -/
inductive BoundsRefused (buffer : Buffer) (pos stop : Nat) : Error → Prop where
  | outside
      (range : stop < pos ∨ buffer.size < stop) :
      BoundsRefused buffer pos stop (.outOfBounds pos stop buffer.size)
  | offBoundary {offset : Nat}
      (inside : pos ≤ stop ∧ stop ≤ buffer.size)
      (first :
        [pos, stop].find? (fun bound => ¬ IsBoundary buffer.chars bound) =
          some offset) :
      BoundsRefused buffer pos stop (.offBoundary offset)

section Bounds

variable {cursor : Cursor} {pos stop : Nat} {cause : Error}

private theorem set_of_boundsRefused
    (refused : BoundsRefused cursor.buffer pos stop cause) :
    cursor.set pos stop = .error cause := by
  cases refused with
  | outside range =>
      rw [Cursor.set, if_pos range]
  | offBoundary inside first =>
      have inRange : ¬ (stop < pos ∨ cursor.buffer.size < stop) :=
        not_or.mpr ⟨Nat.not_lt.mpr inside.1, Nat.not_lt.mpr inside.2⟩
      rw [Cursor.set, if_neg inRange]
      by_cases posBoundary : IsBoundary cursor.buffer.chars pos
      · by_cases stopBoundary : IsBoundary cursor.buffer.chars stop
        · simp [posBoundary, stopBoundary] at first
        · simpa [posBoundary, stopBoundary] using first
      · simpa [posBoundary] using first

/-- Bounds where a cursor must not stand are refused for something. -/
theorem exists_boundsRefused
    {buffer : Buffer}
    (misplaced : ¬ WellPlaced ⟨buffer, pos, stop⟩) :
    ∃ cause, BoundsRefused buffer pos stop cause := by
  by_cases range : stop < pos ∨ buffer.size < stop
  · exact ⟨.outOfBounds pos stop buffer.size, .outside range⟩
  · have inside : pos ≤ stop ∧ stop ≤ buffer.size := by omega
    by_cases posBoundary : IsBoundary buffer.chars pos
    · have stopOff : ¬ IsBoundary buffer.chars stop := by
        intro stopBoundary
        exact misplaced ⟨inside.1, inside.2, posBoundary, stopBoundary⟩
      exact ⟨.offBoundary stop,
        .offBoundary inside (by simp [posBoundary, stopOff])⟩
    · exact ⟨.offBoundary pos, .offBoundary inside (by simp [posBoundary])⟩

theorem set_eq_error_iff :
    cursor.set pos stop = .error cause ↔
      BoundsRefused cursor.buffer pos stop cause := by
  refine ⟨?_, set_of_boundsRefused⟩
  intro answered
  have misplaced : ¬ WellPlaced ⟨cursor.buffer, pos, stop⟩ := by
    intro placed
    rw [set_of_wellPlaced placed] at answered
    contradiction
  rcases exists_boundsRefused misplaced with ⟨other, refused⟩
  rw [set_of_boundsRefused refused] at answered
  rwa [← Except.error.inj answered]

end Bounds

section Buffers

variable {cursor other : Cursor} {cause : Error}

theorem setFrom_eq_error_iff :
    cursor.setFrom other = .error cause ↔
      cursor.buffer ≠ other.buffer ∧ cause = .foreign := by
  unfold Cursor.setFrom
  by_cases shared : cursor.buffer = other.buffer
  · simp [shared]
  · simp [shared, eq_comm]

theorem jump_eq_error_iff :
    cursor.jump other = .error cause ↔
      (cursor.buffer ≠ other.buffer ∧ cause = .foreign) ∨
        (cursor.buffer = other.buffer ∧ cursor.stop < other.stop ∧
          cause =
            .outOfBounds other.stop cursor.stop cursor.buffer.size) := by
  unfold Cursor.jump
  by_cases shared : cursor.buffer = other.buffer
  · by_cases beyond : cursor.stop < other.stop
    · simp [shared, beyond, eq_comm]
    · simp [shared, beyond]
  · simp [shared, eq_comm]

theorem slice_eq_error_iff
    {buffer : Buffer} :
    Cursor.slice buffer cursor = .error (.error cause) ↔
      cursor.buffer ≠ buffer ∧ cause = .foreign := by
  unfold Cursor.slice
  by_cases owned : cursor.buffer = buffer
  · simp [owned, Failure.liftM_fault_ne_error]
  · simp [owned, eq_comm, throw, throwThe, MonadExceptOf.throw]

end Buffers

namespace Session

/-- The errors that commands must report. Every other command either names
something unknown or is carried out. -/
inductive Refuses (session : Session) : Command → Error → Prop where
  | placeAt {name : String} {index pos stop : Nat} {buffer : Buffer}
      {cause : Error}
      (known : session.buffers[index]? = some buffer)
      (refused : BoundsRefused buffer pos stop cause) :
      Refuses session (.placeAt name index pos stop) cause
  | set {name : String} {pos stop : Nat} {cursor : Cursor} {cause : Error}
      (stored : session.find? name = some cursor)
      (refused : BoundsRefused cursor.buffer pos stop cause) :
      Refuses session (.set name pos stop) cause
  | setFrom {name other : String} {cursor target : Cursor}
      (stored : session.find? name = some cursor)
      (otherStored : session.find? other = some target)
      (unshared : cursor.buffer ≠ target.buffer) :
      Refuses session (.setFrom name other) .foreign
  | jumpForeign {name other : String} {cursor target : Cursor}
      (stored : session.find? name = some cursor)
      (otherStored : session.find? other = some target)
      (unshared : cursor.buffer ≠ target.buffer) :
      Refuses session (.jump name other) .foreign
  | jumpBeyond {name other : String} {cursor target : Cursor}
      (stored : session.find? name = some cursor)
      (otherStored : session.find? other = some target)
      (shared : cursor.buffer = target.buffer)
      (beyond : cursor.stop < target.stop) :
      Refuses session (.jump name other)
        (.outOfBounds target.stop cursor.stop cursor.buffer.size)
  | slice {name : String} {index : Nat} {cursor : Cursor} {buffer : Buffer}
      (stored : session.find? name = some cursor)
      (known : session.buffers[index]? = some buffer)
      (unshared : cursor.buffer ≠ buffer) :
      Refuses session (.slice name index) .foreign

variable {session : Session} {command : Command} {cause : Error}

private theorem refuses_of_effect?
    (answered : session.effect? command = some (.error (.error cause))) :
    session.Refuses command cause := by
  cases command <;>
    simp only [effect?, Option.bind_eq_bind, Option.bind_eq_some_iff,
      Option.some.injEq, Failure.bind_eq_error_iff,
      Failure.liftM_error_eq_error_iff, Failure.liftM_fault_ne_error, pure,
      Except.pure, reduceCtorEq, and_false, exists_false, or_false,
      false_or] at answered
  case placeAt name index pos stop =>
    rcases answered with ⟨buffer, known, refused⟩
    exact .placeAt known (set_eq_error_iff.mp refused)
  case set name pos stop =>
    rcases answered with ⟨cursor, stored, refused⟩
    exact .set stored (set_eq_error_iff.mp refused)
  case setFrom name other =>
    rcases answered with ⟨cursor, stored, target, otherStored, refused⟩
    rcases setFrom_eq_error_iff.mp refused with ⟨unshared, rfl⟩
    exact .setFrom stored otherStored unshared
  case jump name other =>
    rcases answered with ⟨cursor, stored, target, otherStored, refused⟩
    rcases jump_eq_error_iff.mp refused with
      ⟨unshared, rfl⟩ | ⟨shared, beyond, rfl⟩
    · exact .jumpForeign stored otherStored unshared
    · exact .jumpBeyond stored otherStored shared beyond
  case seek name recognizer other =>
    rcases answered with ⟨cursor, _, _, _, sought⟩
    cases found : cursor.seek recognizer with
    | none =>
        simp [found] at sought
    | some matched =>
        simp [found] at sought
  case seekGroup name other opening closing =>
    rcases answered with ⟨_, _, _, _, ⟨group, moved⟩, _, searched⟩
    cases group with
    | none =>
        simp at searched
    | some group =>
        simp at searched
  case slice name index =>
    rcases answered with ⟨cursor, stored, buffer, known, refused⟩
    rcases slice_eq_error_iff.mp refused with ⟨unshared, rfl⟩
    exact .slice stored known unshared

theorem Refuses.effect?_eq
    (refuses : session.Refuses command cause) :
    session.effect? command = some (.error (.error cause)) := by
  cases refuses with
  | @placeAt _ _ pos stop buffer _ known refused =>
      have answered : ofBounds buffer pos stop = .error cause :=
        set_of_boundsRefused refused
      simp [effect?, known, answered, bind, Except.bind]
  | set stored refused =>
      have answered := set_of_boundsRefused refused
      simp [effect?, stored, answered, bind, Except.bind]
  | setFrom stored otherStored unshared =>
      have answered := setFrom_eq_error_iff.mpr ⟨unshared, rfl⟩
      simp [effect?, stored, otherStored, answered, bind, Except.bind]
  | jumpForeign stored otherStored unshared =>
      have answered := jump_eq_error_iff.mpr (.inl ⟨unshared, rfl⟩)
      simp [effect?, stored, otherStored, answered, bind, Except.bind]
  | jumpBeyond stored otherStored shared beyond =>
      have answered := jump_eq_error_iff.mpr (.inr ⟨shared, beyond, rfl⟩)
      simp [effect?, stored, otherStored, answered, bind, Except.bind]
  | slice stored known unshared =>
      have answered := slice_eq_error_iff.mpr ⟨unshared, rfl⟩
      simp [effect?, stored, known, answered, bind, Except.bind]

theorem effect?_eq_error_iff :
    session.effect? command = some (.error (.error cause)) ↔
      session.Refuses command cause :=
  ⟨refuses_of_effect?, Refuses.effect?_eq⟩

/-! ## Exactness -/

/-- A session refuses exactly what must be refused, and with the error for it.
Everything else that is known to it is carried out. -/
structure RefusesExactly (session : Session) : Prop where
  error_iff : ∀ command cause,
    session.effect? command = some (.error (.error cause)) ↔
      session.Refuses command cause
  ok_iff : ∀ command effect, session.effect? command = some effect →
    ((∃ answer, effect = .ok answer) ↔
      ∀ cause, ¬ session.Refuses command cause)
  set_iff : ∀ name cursor pos stop, session.find? name = some cursor →
    (session.effect? (.set name pos stop) =
        some (.ok (.done, session.put name ⟨cursor.buffer, pos, stop⟩)) ↔
      WellPlaced ⟨cursor.buffer, pos, stop⟩)
  placeAt_iff : ∀ name index buffer pos stop,
    session.buffers[index]? = some buffer →
    (session.effect? (.placeAt name index pos stop) =
        some (.ok (.done, session.put name ⟨buffer, pos, stop⟩)) ↔
      WellPlaced ⟨buffer, pos, stop⟩)

theorem Sound.refusesExactly
    (sound : session.Sound) : session.RefusesExactly where
  error_iff _ _ := effect?_eq_error_iff
  ok_iff := by
    intro command effect answered
    constructor
    · intro ok cause refuses
      rcases ok with ⟨answer, rfl⟩
      rw [refuses.effect?_eq] at answered
      simp at answered
    · intro accepted
      rcases effect with (cause | fault) | answer
      · exact absurd (refuses_of_effect? answered) (accepted cause)
      · exact absurd answered (sound.effect?_ne_fault command fault)
      · exact ⟨answer, rfl⟩
  set_iff := by
    intro name cursor pos stop stored
    constructor
    · intro answered
      by_contra misplaced
      rcases exists_boundsRefused misplaced with ⟨cause, refused⟩
      rw [(Refuses.set stored refused).effect?_eq] at answered
      simp at answered
    · intro placed
      have accepted := set_of_wellPlaced placed
      simp only [effect?, stored, Option.bind_eq_bind, Option.bind_some,
        accepted]
      rfl
  placeAt_iff := by
    intro name index buffer pos stop known
    constructor
    · intro answered
      by_contra misplaced
      rcases exists_boundsRefused misplaced with ⟨cause, refused⟩
      rw [(Refuses.placeAt known refused).effect?_eq] at answered
      simp at answered
    · intro placed
      have accepted : ofBounds buffer pos stop = .ok ⟨buffer, pos, stop⟩ :=
        set_of_wellPlaced placed
      simp only [effect?, known, Option.bind_eq_bind, Option.bind_some,
        accepted]
      rfl

/-- Commands in place have the effects of commands. Where they fail nothing
changes, and where they succeed only the cursors change that they write. -/
structure Atomic (session : Session) : Prop where
  in_place : ∀ command,
    session.perform? command = (session.effect? command).map session.settle
  failed : ∀ command failure left,
    session.perform? command = some (.error failure, left) → left = session
  unmatched : ∀ name r other left,
    session.perform? (.seek name r other) = some (.ok (.truth false), left) →
      left = session
  succeeded : ∀ command reply left,
    session.perform? command = some (.ok reply, left) →
      left.buffers = session.buffers ∧
        ∀ known, known ∉ command.writes reply →
          left.find? known = session.find? known

private theorem settle_eq_ok_iff
    {effect : Effect} {reply : Reply} {left : Session} :
    session.settle effect = (.ok reply, left) ↔ effect = .ok (reply, left) := by
  cases effect with
  | error failure =>
      simp [settle]
  | ok answer =>
      simp [settle, Prod.ext_iff]

theorem Distinct.atomic
    (distinct : session.Distinct) : session.Atomic := by
  have effect_of_ok :
      ∀ command reply left,
        session.perform? command = some (.ok reply, left) →
          session.effect? command = some (.ok (reply, left)) := by
    intro command reply left performed
    rw [distinct.perform?_eq, Option.map_eq_some_iff] at performed
    rcases performed with ⟨effect, answered, settled⟩
    rw [answered, settle_eq_ok_iff.mp settled]
  refine ⟨distinct.perform?_eq, ?_, ?_, ?_⟩
  · intro command failure left performed
    rw [distinct.perform?_eq, Option.map_eq_some_iff] at performed
    rcases performed with ⟨effect, _, settled⟩
    cases effect with
    | error _ =>
        exact (Prod.ext_iff.mp settled).2.symm
    | ok _ =>
        simp [settle] at settled
  · intro name r other left performed
    exact eq_of_writes_eq_nil (effect_of_ok _ _ _ performed) rfl
  · intro command reply left performed
    have answered := effect_of_ok command reply left performed
    refine ⟨buffers_of_effect? answered, ?_⟩
    intro known unwritten
    exact find?_of_effect? answered unwritten

/-- Whatever commands run, in place or not, every command is refused just if it
must be and leaves no trace then. Two buffers are the same just if they stand
for the same text given once. -/
theorem run_refuses_exactly
    {sources : List Source} {session : Session}
    (made : ofSources? sources = some session)
    (commands : List Command) :
    let reached := session.run commands
    session.runInPlace commands = reached ∧
      reached.RefusesExactly ∧
      reached.Atomic ∧
      (∀ name cursor, reached.find? name = some cursor →
        cursor.buffer ∈ reached.buffers) ∧
      ∀ index other left right,
        reached.buffers[index]? = some left →
        reached.buffers[other]? = some right →
        (left = right ↔
          ∃ origin, Origin sources index origin ∧
            Origin sources other origin) := by
  intro reached
  have sound : reached.Sound := (sound_of_ofSources? made).run commands
  have distinct : reached.Distinct := (distinct_of_made made).run commands
  refine ⟨(distinct_of_made made).runInPlace_eq commands, sound.refusesExactly,
    distinct.atomic, ?_, ?_⟩
  · intro name cursor stored
    rcases sound.find? stored with ⟨buffer, known, placed⟩
    rw [placed.buffer_eq]
    exact known
  · intro index other left right known otherKnown
    have kept : reached.buffers = session.buffers :=
      buffers_run session commands
    rw [kept] at known otherKnown
    exact (traced_of_made made).buffer_eq_iff known otherKnown

/-- Requests over the text `é(a)`, given once as the first source and shared by
the third, and given again as the second. -/
theorem run_refuses_exactly_between_twins :
    let accented : Buffer := ⟨['é', '(', 'a', ')'], 0⟩
    let twin : Buffer := ⟨['é', '(', 'a', ')'], 1⟩
    let sources : List Source := [.own "é(a)", .own "é(a)", .shared 0]
    let session : Session := { buffers := [accented, twin, accented] }
    let commands : List Command :=
      [.place "short" 0, .place "twin" 1, .place "whole" 2,
        .set "short" 0 3, .set "short" 1 3]
    let reached := session.run commands
    ofSources? sources = some session ∧
      session.runInPlace commands = reached ∧
      reached.find? "short" = some ⟨accented, 0, 3⟩ ∧
      reached.effect? (.set "short" 1 3) =
        some (.error (.error (.offBoundary 1))) ∧
      reached.effect? (.jump "short" "twin") =
        some (.error (.error .foreign)) ∧
      reached.effect? (.jump "short" "whole") =
        some (.error (.error (.outOfBounds 5 3 5))) ∧
      reached.perform? (.set "short" 3 6) =
        some (.error (.error (.outOfBounds 3 6 5)), reached) ∧
      (∃ origin, Origin sources 0 origin ∧ Origin sources 2 origin) ∧
      ¬ ∃ origin, Origin sources 0 origin ∧ Origin sources 1 origin := by
  intro accented twin sources session commands reached
  have made : ofSources? sources = some session := by decide
  obtain ⟨inPlace, exact, atomic, _, sharing⟩ :=
    run_refuses_exactly made commands
  have kept : reached.buffers = [accented, twin, accented] :=
    buffers_run session commands
  have short : reached.find? "short" = some ⟨accented, 0, 3⟩ := by decide
  have other : reached.find? "twin" = some ⟨twin, 0, 5⟩ := by decide
  have long : reached.find? "whole" = some ⟨accented, 0, 5⟩ := by decide
  refine ⟨made, inPlace, short, ?_, ?_, ?_, ?_, ?_, ?_⟩
  · exact (exact.error_iff _ _).mpr
      (.set short (.offBoundary (by decide) (by decide)))
  · exact (exact.error_iff _ _).mpr (.jumpForeign short other (by decide))
  · exact (exact.error_iff _ _).mpr
      (.jumpBeyond short long rfl (by decide))
  · have refused : reached.effect? (.set "short" 3 6) =
        some (.error (.error (.outOfBounds 3 6 5))) :=
      (exact.error_iff _ _).mpr (.set short (.outside (by decide)))
    rw [atomic.in_place, refused]
    rfl
  · have first : reached.buffers[0]? = some accented := by rw [kept]; rfl
    have third : reached.buffers[2]? = some accented := by rw [kept]; rfl
    exact (sharing 0 2 accented accented first third).mp rfl
  · intro shared
    have first : reached.buffers[0]? = some accented := by rw [kept]; rfl
    have second : reached.buffers[1]? = some twin := by rw [kept]; rfl
    have same := (sharing 0 1 accented twin first second).mpr shared
    have differ : accented ≠ twin := by decide
    exact differ same

end Session

end TextGrammar.Cursor
