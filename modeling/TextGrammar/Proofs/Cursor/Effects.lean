import TextGrammar.Proofs.Cursor.Safety

/-!
What commands do to names. Putting a cursor changes what one name stands for and
nothing else (`find?_put`), and the effect of a command that moves cursors is
given by the operation on the cursors that it names.
-/

namespace TextGrammar.Cursor.Session

/-- Changing the cursors of one name in a list changes what is found under this
name only. -/
theorem lookup_map
    (name known : String) (cursor : Cursor)
    (cursors : List (String × Cursor)) :
    (cursors.map fun (entry, old) =>
      (entry, if entry = name then cursor else old)).lookup known =
      (cursors.lookup known).map fun old =>
        if known = name then cursor else old := by
  induction cursors with
  | nil =>
      rfl
  | cons entry cursors inductionHypothesis =>
      obtain ⟨first, old⟩ := entry
      by_cases same : known = first
      · simp [same]
      · have differs : (known == first) = false := beq_eq_false_iff_ne.mpr same
        simp only [List.map_cons, List.lookup_cons, differs]
        exact inductionHypothesis

theorem find?_put
    (session : Session) (name known : String) (cursor : Cursor) :
    (session.put name cursor).find? known =
      if known = name then some cursor else session.find? known := by
  unfold Session.put
  by_cases present : (session.find? name).isSome = true
  · rw [if_pos present]
    unfold Session.find? at present ⊢
    rw [lookup_map]
    by_cases same : known = name
    · obtain ⟨old, stored⟩ := Option.isSome_iff_exists.mp present
      simp [same, stored]
    · simp [same]
  · rw [if_neg present]
    have absent : session.find? name = none := by simpa using present
    unfold Session.find? at absent ⊢
    rw [List.lookup_append]
    by_cases same : known = name
    · simp [same, absent]
    · have differs : (known == name) = false := beq_eq_false_iff_ne.mpr same
      simp [same, List.lookup_cons, differs]

variable {session : Session} {name other : String} {cursor target : Cursor}

theorem effect?_seek
    (stored : session.find? name = some cursor)
    (otherStored : session.find? other = some target)
    (r : Recognizer) :
    session.effect? (.seek name r other) =
      some (.ok ((cursor.seek r).elim (.truth false, session)
        fun found => (.truth true, session.put other found))) := by
  simp only [effect?, stored, otherStored, Option.bind_eq_bind,
    Option.bind_some]
  cases cursor.seek r <;> rfl

theorem effect?_seekGroup
    {opening closing : Char} {group : Option Cursor} {moved : Cursor}
    (stored : session.find? name = some cursor)
    (otherStored : session.find? other = some target)
    (searched : cursor.seekGroup opening closing = .ok (group, moved)) :
    session.effect? (.seekGroup name other opening closing) =
      some (.ok (.truth group.isSome,
        group.elim (session.put name moved)
          ((session.put name moved).put other))) := by
  simp only [effect?, stored, otherStored, Option.bind_eq_bind,
    Option.bind_some, searched]
  cases group <;> rfl

theorem effect?_jump
    {moved : Cursor}
    (stored : session.find? name = some cursor)
    (otherStored : session.find? other = some target)
    (jumped : cursor.jump target = .ok moved) :
    session.effect? (.jump name other) =
      some (.ok (.done, session.put name moved)) := by
  simp only [effect?, stored, otherStored, Option.bind_eq_bind,
    Option.bind_some, jumped]
  rfl

/-- The slice of a well-placed cursor of one of the buffers. -/
theorem effect?_slice
    {index : Nat} {buffer : Buffer}
    (stored : session.find? name = some cursor)
    (known : session.buffers[index]? = some buffer)
    (placed : cursor.PlacedIn buffer) :
    ∃ text, session.effect? (.slice name index) =
      some (.ok (.slice ⟨buffer, cursor.pos, cursor.stop⟩ text, session)) := by
  obtain ⟨text, sliced, textRead⟩ := placed.slice
  refine ⟨text, ?_⟩
  have read :
      (do
        let part ← Cursor.slice buffer cursor
        let text ← part.text
        return (.slice part text, session) : Effect) =
        .ok (.slice ⟨buffer, cursor.pos, cursor.stop⟩ text, session) := by
    rw [sliced]
    simp only [bind, Except.bind, textRead]
    rfl
  simp only [effect?, stored, known, Option.bind_eq_bind, Option.bind_some,
    read]
  rfl

end TextGrammar.Cursor.Session
