import Mathlib.Data.List.Nodup
import TextGrammar.Proofs.Cursor.Effects
import TextGrammar.Proofs.Cursor.Reading

/-!
What commands write. A command that succeeds puts cursors under the names that
it is said to write and does nothing else (`effect?_eq_putAll`). So the other
cursors and all buffers stay, and no name comes to stand twice in a session.
-/

namespace TextGrammar.Cursor

/-- The names whose cursors a command writes when it gives a reply. A search
that finds nothing leaves its second cursor, and a recognizer that does not
match leaves both. -/
def Command.writes : Command → Reply → List String
  | .place name _, _ => [name]
  | .placeAt name _ _ _, _ => [name]
  | .copy name _, _ => [name]
  | .set name _ _, _ => [name]
  | .setFrom name _, _ => [name]
  | .jump name _, _ => [name]
  | .advance name, _ => [name]
  | .skipBlanks name, _ => [name]
  | .seek _ _ other, .truth true => [other]
  | .seekGroup name other _ _, .truth true => [name, other]
  | .seekGroup name _ _ _, .truth false => [name]
  | _, _ => []

namespace Session

def Distinct (session : Session) : Prop :=
  (session.cursors.map Prod.fst).Nodup

private theorem not_mem_of_find?_eq_none
    {session : Session} {name : String}
    (absent : session.find? name = none) :
    name ∉ session.cursors.map Prod.fst := by
  intro member
  rcases List.mem_map.mp member with ⟨entry, known, same⟩
  have differs := List.lookup_eq_none_iff.mp absent entry known
  simp [same] at differs

theorem Distinct.put
    {session : Session}
    (distinct : session.Distinct) (name : String) (cursor : Cursor) :
    (session.put name cursor).Distinct := by
  unfold Distinct Session.put
  by_cases present : (session.find? name).isSome = true
  · rw [if_pos present]
    simpa [Distinct, Function.comp_def] using distinct
  · rw [if_neg present]
    have absent : session.find? name = none := by simpa using present
    have fresh := not_mem_of_find?_eq_none absent
    rw [List.map_append, List.map_singleton, List.nodup_append]
    refine ⟨distinct, List.nodup_singleton name, ?_⟩
    intro known member new isNew same
    rw [List.mem_singleton] at isNew
    rw [same, isNew] at member
    exact fresh member

/-- A name that stands once keeps its session when it is given the cursor that
it has. -/
theorem Distinct.put_self
    {session : Session} {name : String} {cursor : Cursor}
    (distinct : session.Distinct)
    (stored : session.find? name = some cursor) :
    session.put name cursor = session := by
  have present : (session.find? name).isSome = true := by
    rw [stored]
    rfl
  have member : (name, cursor) ∈ session.cursors := by
    rcases List.lookup_eq_some_iff.mp stored with ⟨before, after, split, _⟩
    rw [split]
    exact List.mem_append_right before List.mem_cons_self
  rw [Session.put, if_pos present]
  refine congrArg (Session.mk session.buffers) ?_
  refine (List.map_congr_left ?_).trans (List.map_id session.cursors)
  intro entry known
  by_cases named : entry.1 = name
  · have itself : entry = (name, cursor) :=
      List.inj_on_of_nodup_map distinct known member named
    simp [itself]
  · simp [named]

def putAll (session : Session) (puts : List (String × Cursor)) : Session :=
  puts.foldl (fun reached entry => reached.put entry.1 entry.2) session

variable {session : Session}

private theorem buffers_putAll
    (puts : List (String × Cursor)) :
    (session.putAll puts).buffers = session.buffers := by
  induction puts generalizing session with
  | nil =>
      rfl
  | cons entry puts inductionHypothesis =>
      exact inductionHypothesis.trans (buffers_put session entry.1 entry.2)

/-- A name that is not among the puts keeps its cursor. -/
theorem find?_putAll
    {puts : List (String × Cursor)} {known : String}
    (other : known ∉ puts.map Prod.fst) :
    (session.putAll puts).find? known = session.find? known := by
  induction puts generalizing session with
  | nil =>
      rfl
  | cons entry puts inductionHypothesis =>
      rw [List.map_cons, List.mem_cons, not_or] at other
      refine (inductionHypothesis other.2).trans ?_
      rw [find?_put, if_neg other.1]

theorem Distinct.putAll
    (distinct : session.Distinct) (puts : List (String × Cursor)) :
    (session.putAll puts).Distinct := by
  induction puts generalizing session with
  | nil =>
      exact distinct
  | cons entry puts inductionHypothesis =>
      exact inductionHypothesis (distinct.put entry.1 entry.2)

/-- What a command does that succeeds: it puts cursors under the names that it
writes. -/
theorem effect?_eq_putAll
    {command : Command} {reply : Reply} {next : Session}
    (answered : session.effect? command = some (.ok (reply, next))) :
    ∃ puts : List (String × Cursor),
      puts.map Prod.fst = command.writes reply ∧
        next = session.putAll puts := by
  cases command <;>
    simp only [effect?, Option.bind_eq_bind, Option.bind_eq_some_iff,
      Option.some.injEq, Failure.bind_eq_ok_iff, Failure.liftM_error_eq_ok_iff,
      Failure.liftM_fault_eq_ok_iff, pure, Except.pure, Except.ok.injEq,
      Prod.mk.injEq] at answered
  case describe index =>
    rcases answered with ⟨_, _, rfl, rfl⟩
    exact ⟨[], rfl, rfl⟩
  case place name index =>
    rcases answered with ⟨buffer, _, rfl, rfl⟩
    exact ⟨[(name, whole buffer)], rfl, rfl⟩
  case placeAt name index pos stop =>
    rcases answered with ⟨_, _, placed, _, rfl, rfl⟩
    exact ⟨[(name, placed)], rfl, rfl⟩
  case copy name other =>
    rcases answered with ⟨cursor, _, rfl, rfl⟩
    exact ⟨[(name, cursor)], rfl, rfl⟩
  case set name pos stop =>
    rcases answered with ⟨_, _, placed, _, rfl, rfl⟩
    exact ⟨[(name, placed)], rfl, rfl⟩
  case setFrom name other =>
    rcases answered with ⟨_, _, _, _, placed, _, rfl, rfl⟩
    exact ⟨[(name, placed)], rfl, rfl⟩
  case jump name other =>
    rcases answered with ⟨_, _, _, _, placed, _, rfl, rfl⟩
    exact ⟨[(name, placed)], rfl, rfl⟩
  case peek name =>
    rcases answered with ⟨_, _, _, _, rfl, rfl⟩
    exact ⟨[], rfl, rfl⟩
  case advance name =>
    rcases answered with ⟨_, _, advanced, _, rfl, rfl⟩
    exact ⟨[(name, advanced.2)], rfl, rfl⟩
  case skipBlanks name =>
    rcases answered with ⟨_, _, moved, _, rfl, rfl⟩
    exact ⟨[(name, moved)], rfl, rfl⟩
  case seek name recognizer other =>
    rcases answered with ⟨cursor, _, _, _, sought⟩
    cases found : cursor.seek recognizer with
    | none =>
        simp only [found, Option.some.injEq, Except.ok.injEq,
          Prod.mk.injEq] at sought
        rcases sought with ⟨rfl, rfl⟩
        exact ⟨[], rfl, rfl⟩
    | some matched =>
        simp only [found, Option.some.injEq, Except.ok.injEq,
          Prod.mk.injEq] at sought
        rcases sought with ⟨rfl, rfl⟩
        exact ⟨[(other, matched)], rfl, rfl⟩
  case seekGroup name other opening closing =>
    rcases answered with ⟨_, _, _, _, searched, _, answered⟩
    rcases searched with ⟨none | group, moved⟩
    · simp only [Except.ok.injEq, Prod.mk.injEq] at answered
      rcases answered with ⟨rfl, rfl⟩
      exact ⟨[(name, moved)], rfl, rfl⟩
    · simp only [Except.ok.injEq, Prod.mk.injEq] at answered
      rcases answered with ⟨rfl, rfl⟩
      exact ⟨[(name, moved), (other, group)], rfl, rfl⟩
  case equalsBytes name text start stop =>
    rcases answered with ⟨_, _, _, _, rfl, rfl⟩
    exact ⟨[], rfl, rfl⟩
  case sameBytes name other =>
    rcases answered with ⟨_, _, _, _, _, _, rfl, rfl⟩
    exact ⟨[], rfl, rfl⟩
  case position name =>
    rcases answered with ⟨_, _, rfl, rfl⟩
    exact ⟨[], rfl, rfl⟩
  case read name =>
    rcases answered with ⟨_, _, _, _, rfl, rfl⟩
    exact ⟨[], rfl, rfl⟩
  case slice name index =>
    rcases answered with ⟨_, _, _, _, _, _, _, _, rfl, rfl⟩
    exact ⟨[], rfl, rfl⟩

section Success

variable {command : Command} {reply : Reply} {next : Session}

theorem buffers_of_effect?
    (answered : session.effect? command = some (.ok (reply, next))) :
    next.buffers = session.buffers := by
  rcases effect?_eq_putAll answered with ⟨puts, _, rfl⟩
  exact buffers_putAll puts

/-- A name that a command does not write keeps its cursor. -/
theorem find?_of_effect?
    {known : String}
    (answered : session.effect? command = some (.ok (reply, next)))
    (unwritten : known ∉ command.writes reply) :
    next.find? known = session.find? known := by
  rcases effect?_eq_putAll answered with ⟨puts, names, rfl⟩
  rw [← names] at unwritten
  exact find?_putAll unwritten

/-- A command that writes nothing leaves the session as it is. -/
theorem eq_of_writes_eq_nil
    (answered : session.effect? command = some (.ok (reply, next)))
    (nothing : command.writes reply = []) :
    next = session := by
  rcases effect?_eq_putAll answered with ⟨puts, names, rfl⟩
  rw [nothing, List.map_eq_nil_iff] at names
  rw [names]
  rfl

end Success

/-- A step puts some cursors, none if the command fails. -/
theorem step_eq_putAll
    (session : Session) (command : Command) :
    ∃ puts, session.step command = session.putAll puts := by
  unfold Session.step
  split
  · rename_i reply next answered
    rcases effect?_eq_putAll answered with ⟨puts, _, same⟩
    exact ⟨puts, same⟩
  · exact ⟨[], rfl⟩

/-- What every step keeps is kept by a run. -/
theorem run_keeps
    {kept : Session → Prop}
    (step : ∀ session command, kept session → kept (session.step command))
    (start : kept session) (commands : List Command) :
    kept (session.run commands) := by
  induction commands generalizing session with
  | nil =>
      exact start
  | cons command commands inductionHypothesis =>
      exact inductionHypothesis (step session command start)

theorem buffers_run
    (session : Session) (commands : List Command) :
    (session.run commands).buffers = session.buffers := by
  apply @run_keeps session fun reached => reached.buffers = session.buffers
  · intro reached command same
    rcases step_eq_putAll reached command with ⟨puts, stepped⟩
    rw [stepped, buffers_putAll, same]
  · rfl

theorem Distinct.step
    (distinct : session.Distinct) (command : Command) :
    (session.step command).Distinct := by
  rcases step_eq_putAll session command with ⟨puts, stepped⟩
  rw [stepped]
  exact distinct.putAll puts

theorem Distinct.run
    (distinct : session.Distinct) (commands : List Command) :
    (session.run commands).Distinct :=
  run_keeps (fun _ command kept => kept.step command) distinct commands

theorem distinct_of_made
    {sources : List Source}
    (made : ofSources? sources = some session) : session.Distinct := by
  rcases Option.bind_eq_some_iff.mp made with ⟨buffers, _, same⟩
  rw [← Option.some.inj same]
  exact List.nodup_nil

end Session

end TextGrammar.Cursor
