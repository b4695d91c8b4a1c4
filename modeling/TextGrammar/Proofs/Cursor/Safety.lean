import TextGrammar.Cursor.Session
import TextGrammar.Proofs.Cursor.Placement
import TextGrammar.Proofs.Text.Counting

/-!
Sessions are safe. Whatever commands are given in whatever order, every cursor
stays well placed in one of the texts of its session, and no command faults.
One lemma says what a command does to a sound session, and the main statement
`run_safe` follows by induction over the commands.
-/

namespace TextGrammar.Cursor

namespace Session

/-- Every cursor of the session is well placed in one of its texts. -/
def Sound (session : Session) : Prop :=
  ∀ entry ∈ session.cursors,
    ∃ buffer ∈ session.buffers, entry.2.PlacedIn buffer

theorem Sound.find?
    {session : Session} {name : String} {cursor : Cursor}
    (sound : session.Sound)
    (found : session.find? name = some cursor) :
    ∃ buffer ∈ session.buffers, cursor.PlacedIn buffer := by
  rcases List.lookup_eq_some_iff.mp found with ⟨before, after, split, _⟩
  have member : (name, cursor) ∈ session.cursors := by
    rw [split]
    exact List.mem_append_right before List.mem_cons_self
  exact sound (name, cursor) member

theorem Sound.put
    {session : Session} {buffer : Buffer} {cursor : Cursor}
    (sound : session.Sound) (name : String)
    (known : buffer ∈ session.buffers)
    (placed : cursor.PlacedIn buffer) :
    (session.put name cursor).Sound := by
  intro entry member
  unfold Session.put at member ⊢
  split at member
  · rename_i present
    rw [if_pos present]
    rcases List.mem_map.mp member with ⟨⟨other, old⟩, oldMember, rfl⟩
    by_cases same : other = name
    · exact ⟨buffer, known, by simpa [same] using placed⟩
    · simpa [same] using sound (other, old) oldMember
  · rename_i absent
    rw [if_neg absent]
    rcases List.mem_append.mp member with oldMember | newMember
    · exact sound entry oldMember
    · rw [List.mem_singleton] at newMember
      exact ⟨buffer, known, by rw [newMember]; exact placed⟩

theorem buffers_put
    (session : Session) (name : String) (cursor : Cursor) :
    (session.put name cursor).buffers = session.buffers := by
  unfold Session.put
  split <;> rfl

/-- An effect that either refuses the command or leads to a sound session. It is
no fault. -/
def Effect.Safe : Effect → Prop
  | .ok (_, next) => next.Sound
  | .error (.error _) => True
  | .error (.fault _) => False

/-- A command that checks a request does something only if it is accepted. -/
theorem Effect.safe_of_checked
    {α : Type} {request : Except Error α} {use : α → Effect}
    (safe : ∀ value, request = .ok value → (use value).Safe) :
    Effect.Safe (do use (← request)) := by
  cases checked : request with
  | error cause =>
      exact True.intro
  | ok value =>
      exact safe value checked

/-- A command that reads goes on with what was read. -/
theorem Effect.safe_of_read
    {α : Type} {reading : Except Fault α} {value : α} {use : α → Effect}
    (read : reading = .ok value) (safe : (use value).Safe) :
    Effect.Safe (do use (← reading)) := by
  rw [read]
  exact safe

def SafeAnswer (answer : Option Effect) : Prop :=
  ∀ effect, answer = some effect → effect.Safe

private theorem safeAnswer_pure
    {effect : Effect} (safe : effect.Safe) :
    SafeAnswer (pure effect) := by
  intro other same
  rwa [← Option.some.inj same]

private theorem safeAnswer_of_buffer
    {session : Session} {index : Nat} {use : Buffer → Option Effect}
    (safe : ∀ buffer ∈ session.buffers, SafeAnswer (use buffer)) :
    SafeAnswer (do use (← session.buffers[index]?)) := by
  intro effect answered
  rcases Option.bind_eq_some_iff.mp answered with ⟨buffer, found, answered⟩
  exact safe buffer (List.mem_of_getElem? found) effect answered

private theorem Sound.safeAnswer_of_cursor
    {session : Session} {name : String} {use : Cursor → Option Effect}
    (sound : session.Sound)
    (safe : ∀ buffer ∈ session.buffers, ∀ cursor : Cursor,
      cursor.PlacedIn buffer → SafeAnswer (use cursor)) :
    SafeAnswer (do use (← session.find? name)) := by
  intro effect answered
  rcases Option.bind_eq_some_iff.mp answered with ⟨cursor, found, answered⟩
  rcases sound.find? found with ⟨buffer, known, placed⟩
  exact safe buffer known cursor placed effect answered

/-- A sound session answers every command safely. -/
theorem Sound.safeAnswer
    {session : Session} (sound : session.Sound) (command : Command) :
    SafeAnswer (session.effect? command) := by
  cases command with
  | describe index =>
      apply safeAnswer_of_buffer
      intro buffer known
      exact safeAnswer_pure sound
  | place name index =>
      apply safeAnswer_of_buffer
      intro buffer known
      exact safeAnswer_pure (sound.put name known (.whole buffer))
  | placeAt name index pos stop =>
      apply safeAnswer_of_buffer
      intro buffer known
      apply safeAnswer_pure
      apply Effect.safe_of_checked
      intro cursor accepted
      exact sound.put name known (.ofBounds accepted)
  | copy name other =>
      apply sound.safeAnswer_of_cursor
      intro buffer known cursor placed
      exact safeAnswer_pure (sound.put name known placed)
  | set name pos stop =>
      apply sound.safeAnswer_of_cursor
      intro buffer known cursor placed
      apply safeAnswer_pure
      apply Effect.safe_of_checked
      intro moved accepted
      exact sound.put name known (.set placed.buffer_eq accepted)
  | setFrom name other =>
      apply sound.safeAnswer_of_cursor
      intro buffer known cursor placed
      apply sound.safeAnswer_of_cursor
      intro _ _ target targetPlaced
      apply safeAnswer_pure
      apply Effect.safe_of_checked
      intro moved accepted
      exact sound.put name known
        (.setFrom placed.buffer_eq targetPlaced.wellPlaced accepted)
  | jump name other =>
      apply sound.safeAnswer_of_cursor
      intro buffer known cursor placed
      apply sound.safeAnswer_of_cursor
      intro _ _ target targetPlaced
      apply safeAnswer_pure
      apply Effect.safe_of_checked
      intro moved accepted
      exact sound.put name known
        (placed.jump targetPlaced.wellPlaced accepted)
  | peek name =>
      apply sound.safeAnswer_of_cursor
      intro buffer known cursor placed
      apply safeAnswer_pure
      rcases placed.exists_chars with ⟨chars, read⟩
      exact Effect.safe_of_read (peek_of_chars read) sound
  | advance name =>
      apply sound.safeAnswer_of_cursor
      intro buffer known cursor placed
      apply safeAnswer_pure
      rcases placed.advance with ⟨next, moved, advanced, movedPlaced⟩
      exact Effect.safe_of_read advanced (sound.put name known movedPlaced)
  | skipBlanks name =>
      apply sound.safeAnswer_of_cursor
      intro buffer known cursor placed
      apply safeAnswer_pure
      rcases placed.skipBlanks with ⟨moved, skipped, movedPlaced⟩
      exact Effect.safe_of_read skipped (sound.put name known movedPlaced)
  | seek name recognizer other =>
      apply sound.safeAnswer_of_cursor
      intro buffer known cursor placed
      apply sound.safeAnswer_of_cursor
      intro _ _ _ _
      cases sought : cursor.seek recognizer with
      | none =>
          exact safeAnswer_pure sound
      | some found =>
          exact safeAnswer_pure (sound.put other known (placed.seek sought))
  | seekGroup name other opening closing =>
      apply sound.safeAnswer_of_cursor
      intro buffer known cursor placed
      apply sound.safeAnswer_of_cursor
      intro _ _ _ _
      apply safeAnswer_pure
      obtain ⟨group, moved, searched, movedPlaced, groupPlaced⟩ :=
        placed.seekGroup opening closing
      apply Effect.safe_of_read searched
      have movedSound := sound.put name known movedPlaced
      cases group with
      | none =>
          exact movedSound
      | some group =>
          have knownStill : buffer ∈ (session.put name moved).buffers := by
            rwa [buffers_put]
          exact movedSound.put other knownStill (groupPlaced group rfl)
  | equalsBytes name text start stop =>
      apply sound.safeAnswer_of_cursor
      intro buffer known cursor placed
      apply safeAnswer_pure
      rcases placed.equalsBytes text.toList start stop with ⟨holds, compared⟩
      exact Effect.safe_of_read compared sound
  | sameBytes name other =>
      apply sound.safeAnswer_of_cursor
      intro buffer known cursor placed
      apply sound.safeAnswer_of_cursor
      intro _ _ target _
      apply safeAnswer_pure
      obtain ⟨holds, compared⟩ :=
        placed.equalsBytes target.buffer.chars target.pos target.stop
      exact Effect.safe_of_read compared sound
  | position name =>
      apply sound.safeAnswer_of_cursor
      intro buffer known cursor placed
      exact safeAnswer_pure sound
  | read name =>
      apply sound.safeAnswer_of_cursor
      intro buffer known cursor placed
      apply safeAnswer_pure
      rcases placed.exists_chars with ⟨chars, read⟩
      exact Effect.safe_of_read (text_of_chars read) sound
  | slice name index =>
      apply sound.safeAnswer_of_cursor
      intro buffer known cursor placed
      apply safeAnswer_of_buffer
      intro owner _
      apply safeAnswer_pure
      by_cases owned : cursor.buffer = owner
      · obtain ⟨text, sliced, textRead⟩ :=
          PlacedIn.slice ⟨owned, placed.wellPlaced⟩
        rw [sliced]
        exact Effect.safe_of_read textRead sound
      · rw [Cursor.slice, if_pos owned]
        exact True.intro

/-- A session that is made of sources has no cursors yet. -/
theorem sound_of_ofSources?
    {sources : List Source} {session : Session}
    (made : ofSources? sources = some session) : session.Sound := by
  rcases Option.bind_eq_some_iff.mp made with ⟨buffers, _, same⟩
  obtain rfl := Option.some.inj same
  intro entry member
  contradiction

theorem Sound.step
    {session : Session} (sound : session.Sound) (command : Command) :
    (session.step command).Sound := by
  have safe := sound.safeAnswer command
  unfold Session.step
  split
  · rename_i reply next answered
    exact safe _ answered
  · exact sound

theorem Sound.run
    {session : Session} (sound : session.Sound) (commands : List Command) :
    (session.run commands).Sound := by
  induction commands generalizing session with
  | nil =>
      exact sound
  | cons command commands inductionHypothesis =>
      exact inductionHypothesis (sound.step command)

/-- No command faults in a sound session. -/
theorem Sound.effect?_ne_fault
    {session : Session} (sound : session.Sound)
    (command : Command) (cause : Fault) :
    session.effect? command ≠ some (.error (.fault cause)) := by
  intro faulted
  exact sound.safeAnswer command _ faulted

/-- Whatever commands run, both bounds of every cursor are boundaries of its
own text in order, and no command faults. Neither would a search that keeps
offsets or counts delimiters. -/
theorem run_safe
    {sources : List Source} {session : Session}
    (made : ofSources? sources = some session)
    (commands : List Command) :
    (∀ entry ∈ (session.run commands).cursors,
      entry.2.buffer ∈ (session.run commands).buffers ∧
        entry.2.WellPlaced ∧
        (∀ r : Recognizer,
          r.scanIn entry.2.buffer.chars entry.2.pos entry.2.stop =
            .ok ((entry.2.seek r).map Cursor.stop)) ∧
        ∃ chars, entry.2.chars = .ok chars ∧
          ∀ opening closing,
            countGroup opening closing 0 none entry.2.pos chars ≠
              .underflow) ∧
      ∀ command cause,
        (session.run commands).effect? command ≠
          some (.error (.fault cause)) := by
  have sound := (sound_of_ofSources? made).run commands
  refine ⟨?_, sound.effect?_ne_fault⟩
  intro entry member
  rcases sound entry member with ⟨buffer, known, placed⟩
  rcases placed.exists_chars with ⟨chars, read⟩
  refine ⟨?_, placed.wellPlaced, ?_, chars, read, ?_⟩
  · rw [placed.buffer_eq]
    exact known
  · intro r
    rw [Recognizer.scanIn_eq_matchIn, Cursor.seek, Option.map_map]
    simp [Function.comp_def]
  · intro opening closing
    exact countGroup_ne_underflow opening closing _ chars

/-- A match and a group in the text `é(a)`, each put into a cursor of another
text. -/
theorem run_safe_between_texts :
    let accented : Buffer := ⟨['é', '(', 'a', ')'], 0⟩
    let session : Session := { buffers := [accented, ⟨['b'], 1⟩, accented] }
    let reached := session.run
      [.place "all" 2, .place "other" 1, .seek "all" (.oneOf ['é']) "other",
        .jump "all" "other", .place "other" 1,
        .seekGroup "all" "other" '(' ')', .set "all" 1 3]
    ofSources? [.own "é(a)", .own "b", .shared 0] = some session ∧
      reached.find? "all" = some ⟨accented, 5, 5⟩ ∧
      reached.find? "other" = some ⟨accented, 2, 5⟩ ∧
      (∀ entry ∈ reached.cursors, entry.2.WellPlaced) ∧
      ∀ command cause,
        reached.effect? command ≠ some (.error (.fault cause)) := by
  intro accented session reached
  have made :
      ofSources? [.own "é(a)", .own "b", .shared 0] = some session := by
    decide
  obtain ⟨placed, noFault⟩ := run_safe made
    [.place "all" 2, .place "other" 1, .seek "all" (.oneOf ['é']) "other",
      .jump "all" "other", .place "other" 1,
      .seekGroup "all" "other" '(' ')', .set "all" 1 3]
  refine ⟨made, by decide, by decide, ?_, noFault⟩
  intro entry member
  exact (placed entry member).2.1

end Session

end TextGrammar.Cursor
