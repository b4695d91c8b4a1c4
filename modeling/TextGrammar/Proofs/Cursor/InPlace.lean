import TextGrammar.Proofs.Cursor.Footprint

/-!
Operations that write the bounds of a cursor in place. A program checks and
writes one bound after the other, and what it wrote stays if it fails later. The
programs here check everything before they write anything, so a failure leaves
the cursor as it was (`CarriesOut`), and a session whose commands run in place
goes on as one does whose commands give a new session (`runInPlace_eq`).
-/

namespace TextGrammar.Cursor

abbrev InPlace : Type := EStateM Error Cursor Unit

namespace InPlace

def set (pos stop : Nat) : InPlace := do
  let cursor ← get
  if stop < pos ∨ cursor.buffer.size < stop then
    throw (.outOfBounds pos stop cursor.buffer.size)
  for offset in [pos, stop] do
    if ¬ IsBoundary cursor.buffer.chars offset then
      throw (.offBoundary offset)
  modify fun cursor => { cursor with pos }
  modify fun cursor => { cursor with stop }

def checkShared (other : Cursor) : InPlace := do
  let cursor ← get
  if cursor.buffer ≠ other.buffer then
    throw .foreign

def setFrom (other : Cursor) : InPlace := do
  checkShared other
  modify fun cursor => { cursor with pos := other.pos }
  modify fun cursor => { cursor with stop := other.stop }

def jump (other : Cursor) : InPlace := do
  checkShared other
  let cursor ← get
  if cursor.stop < other.stop then
    throw (.outOfBounds other.stop cursor.stop cursor.buffer.size)
  modify fun cursor => { cursor with pos := other.stop }

/-- A program carries out an operation if it ends with the cursor that the
operation gives, or with its error and the cursor that it began with. -/
def CarriesOut
    (program : InPlace) (operation : Cursor → Except Error Cursor) : Prop :=
  ∀ cursor, program.run cursor =
    match operation cursor with
    | .ok moved => .ok () moved
    | .error cause => .error cause cursor

theorem set_carriesOut
    (pos stop : Nat) : (set pos stop).CarriesOut (·.set pos stop) := by
  intro cursor
  unfold set Cursor.set
  by_cases outside : stop < pos ∨ cursor.buffer.size < stop
  · simp [outside]
  · by_cases posBoundary : IsBoundary cursor.buffer.chars pos
    · by_cases stopBoundary : IsBoundary cursor.buffer.chars stop
      · simp [outside, posBoundary, stopBoundary]
      · simp [outside, posBoundary, stopBoundary]
    · simp [outside, posBoundary]

theorem setFrom_carriesOut
    (other : Cursor) : (setFrom other).CarriesOut (·.setFrom other) := by
  intro cursor
  unfold setFrom checkShared Cursor.setFrom
  by_cases shared : cursor.buffer = other.buffer
  · simp [shared]
  · simp [shared]

theorem jump_carriesOut
    (other : Cursor) : (jump other).CarriesOut (·.jump other) := by
  intro cursor
  unfold jump checkShared Cursor.jump
  by_cases shared : cursor.buffer = other.buffer
  · by_cases beyond : cursor.stop < other.stop
    · simp [shared, beyond]
    · simp [shared, beyond]
  · simp [shared]

end InPlace

namespace Session

abbrev Outcome : Type := Except Failure Reply × Session

def store (session : Session) (name : String) :
    EStateM.Result Error Cursor Unit → Outcome
  | .ok () left => (.ok .done, session.put name left)
  | .error cause left => (.error (.error cause), session.put name left)

def settle (session : Session) : Effect → Outcome
  | .ok (reply, next) => (.ok reply, next)
  | .error failure => (.error failure, session)

def perform? (session : Session) : Command → Option Outcome
  | .set name pos stop => do
      let cursor ← session.find? name
      return session.store name ((InPlace.set pos stop).run cursor)
  | .setFrom name other => do
      let cursor ← session.find? name
      let target ← session.find? other
      return session.store name ((InPlace.setFrom target).run cursor)
  | .jump name other => do
      let cursor ← session.find? name
      let target ← session.find? other
      return session.store name ((InPlace.jump target).run cursor)
  | command => (session.effect? command).map session.settle

def stepInPlace (session : Session) (command : Command) : Session :=
  ((session.perform? command).map Prod.snd).getD session

def runInPlace (session : Session) (commands : List Command) : Session :=
  commands.foldl stepInPlace session

variable {session : Session}

private theorem Distinct.store_run
    {name : String} {cursor : Cursor} {program : InPlace}
    {operation : Cursor → Except Error Cursor}
    (distinct : session.Distinct)
    (stored : session.find? name = some cursor)
    (carries : program.CarriesOut operation) :
    session.store name (program.run cursor) =
      session.settle (do
        let placed ← operation cursor
        return (.done, session.put name placed)) := by
  rw [carries cursor]
  cases operation cursor with
  | ok moved =>
      rfl
  | error cause =>
      simp [store, settle, distinct.put_self stored, bind, Except.bind]

/-- Commands in place have the effects of commands, and a command that fails
leaves the session as it was. -/
theorem Distinct.perform?_eq
    (distinct : session.Distinct) (command : Command) :
    session.perform? command =
      (session.effect? command).map session.settle := by
  cases command with
  | set name pos stop =>
      cases stored : session.find? name with
      | none =>
          simp [perform?, effect?, stored]
      | some cursor =>
          have performed :=
            distinct.store_run stored (InPlace.set_carriesOut pos stop)
          simp [perform?, effect?, stored, performed]
  | setFrom name other =>
      cases stored : session.find? name with
      | none =>
          simp [perform?, effect?, stored]
      | some cursor =>
          cases otherStored : session.find? other with
          | none =>
              simp [perform?, effect?, stored, otherStored]
          | some target =>
              have performed :=
                distinct.store_run stored (InPlace.setFrom_carriesOut target)
              simp [perform?, effect?, stored, otherStored, performed]
  | jump name other =>
      cases stored : session.find? name with
      | none =>
          simp [perform?, effect?, stored]
      | some cursor =>
          cases otherStored : session.find? other with
          | none =>
              simp [perform?, effect?, stored, otherStored]
          | some target =>
              have performed :=
                distinct.store_run stored (InPlace.jump_carriesOut target)
              simp [perform?, effect?, stored, otherStored, performed]
  | _ =>
      rfl

theorem Distinct.stepInPlace_eq
    (distinct : session.Distinct) (command : Command) :
    session.stepInPlace command = session.step command := by
  rw [stepInPlace, distinct.perform?_eq, Session.step]
  cases session.effect? command with
  | none =>
      rfl
  | some effect =>
      cases effect with
      | error failure =>
          rfl
      | ok answer =>
          rfl

theorem Distinct.runInPlace_eq
    (distinct : session.Distinct) (commands : List Command) :
    session.runInPlace commands = session.run commands := by
  induction commands generalizing session with
  | nil =>
      rfl
  | cons command commands inductionHypothesis =>
      rw [runInPlace, List.foldl_cons, distinct.stepInPlace_eq]
      exact inductionHypothesis (distinct.step command)

end Session

end TextGrammar.Cursor
