import TextGrammar.Proofs.Cursor.Effects
import TextGrammar.Proofs.Parser.Consumption

/-!
One match by three ways. A recognizer can be run on the text of a cursor between
the cursor's bounds, by a search that puts the match into another cursor, and as
a parser on the slice of the cursor. The main statement is `seek_jump_eq_parse`:
all three match in the same cases, and a search with the jump behind it leaves
two cursors whose slices are the two slices of the parser.
-/

namespace TextGrammar.Cursor

/-- A search and the parser of a recognizer fail together, or the search finds
the range of the parser's value and a jump behind it leaves the rest. -/
theorem PlacedIn.seek_or_fail
    {buffer : Buffer} {cursor : Cursor}
    (placed : cursor.PlacedIn buffer) (r : Recognizer) :
    (r.matchIn buffer.chars cursor.pos cursor.stop = none ∧
      cursor.seek r = none ∧
      (Parser.ofRecognizer r).parse ⟨buffer, cursor.pos, cursor.stop⟩ =
        .unmatched) ∨
    ∃ finish,
      r.matchIn buffer.chars cursor.pos cursor.stop = some finish ∧
      cursor.seek r = some { cursor with stop := finish } ∧
      cursor.jump { cursor with stop := finish } =
        .ok { cursor with pos := finish } ∧
      (Parser.ofRecognizer r).parse ⟨buffer, cursor.pos, cursor.stop⟩ =
        .matched ⟨buffer, cursor.pos, finish⟩
          ⟨buffer, finish, cursor.stop⟩ := by
  obtain ⟨rfl, ordered, inside, _⟩ := placed
  have inBounds :
      (⟨cursor.buffer, cursor.pos, cursor.stop⟩ : Slice).InBounds :=
    ⟨ordered, inside⟩
  have parsed := Parser.parse_ofRecognizer r inBounds
  cases matched : r.matchIn cursor.buffer.chars cursor.pos cursor.stop with
  | none =>
      rw [matched] at parsed
      refine Or.inl ⟨rfl, ?_, parsed⟩
      rw [Cursor.seek, matched, Option.map_none]
  | some finish =>
      rw [matched] at parsed
      refine Or.inr ⟨finish, rfl, ?_, ?_, parsed⟩
      · rw [Cursor.seek, matched, Option.map_some]
      · have before : ¬ cursor.stop < finish :=
          Nat.not_lt.mpr (Recognizer.bounds_of_matchIn matched).2.1
        rw [Cursor.jump, if_neg (not_not_intro rfl), if_neg before]

namespace Session

/-- A jump to a cursor that was just put under another name, and then the slices
of the two cursors. -/
theorem slices_behind_jump
    {session : Session} {name other : String} {index : Nat}
    {buffer : Buffer} {cursor found moved : Cursor}
    (stored : session.find? name = some cursor)
    (apart : name ≠ other)
    (owned : session.buffers[index]? = some buffer)
    (foundPlaced : found.PlacedIn buffer)
    (movedPlaced : moved.PlacedIn buffer)
    (jumped : cursor.jump found = .ok moved) :
    ∃ foundText movedText next,
      (session.put other found).effect? (.jump name other) =
        some (.ok (.done, next)) ∧
      next.effect? (.slice other index) =
        some (.ok (.slice ⟨buffer, found.pos, found.stop⟩ foundText, next)) ∧
      next.effect? (.slice name index) =
        some (.ok (.slice ⟨buffer, moved.pos, moved.stop⟩ movedText, next)) := by
  have storedStill : (session.put other found).find? name = some cursor := by
    rw [find?_put, if_neg apart]
    exact stored
  have otherStored : (session.put other found).find? other = some found := by
    rw [find?_put, if_pos rfl]
  have effect := effect?_jump storedStill otherStored jumped
  generalize final : (session.put other found).put name moved = next at effect
  have nextOther : next.find? other = some found := by
    rw [← final, find?_put, if_neg apart.symm]
    exact otherStored
  have nextName : next.find? name = some moved := by
    rw [← final, find?_put, if_pos rfl]
  have nextOwned : next.buffers[index]? = some buffer := by
    rw [← final, buffers_put, buffers_put]
    exact owned
  obtain ⟨foundText, foundSliced⟩ :=
    effect?_slice nextOther nextOwned foundPlaced
  obtain ⟨movedText, movedSliced⟩ :=
    effect?_slice nextName nextOwned movedPlaced
  exact ⟨foundText, movedText, next, effect, foundSliced, movedSliced⟩

/-- Whatever commands have run, a search answers that it matches just if the
recognizer matches between the bounds of the cursor, and just if its parser
matches the slice of the cursor. Then a jump behind the match is not refused, and
the slices of the two cursors are the value of the parser and what it leaves. If
there is no match, the search changes nothing. -/
theorem seek_jump_eq_parse
    {sources : List Source} {session : Session}
    (made : ofSources? sources = some session)
    (commands : List Command)
    {name other : String} {index : Nat} {cursor target : Cursor}
    (stored : (session.run commands).find? name = some cursor)
    (otherStored : (session.run commands).find? other = some target)
    (apart : name ≠ other)
    (owned : (session.run commands).buffers[index]? = some cursor.buffer)
    (r : Recognizer) :
    let reached := session.run commands
    ∃ input text answer sought,
      reached.effect? (.slice name index) =
        some (.ok (.slice input text, reached)) ∧
      reached.effect? (.seek name r other) =
        some (.ok (.truth answer, sought)) ∧
      (answer = true ↔ ∃ finish,
        r.matchIn cursor.buffer.chars cursor.pos cursor.stop =
          some finish) ∧
      (answer = true ↔ ∃ value rest,
        (Parser.ofRecognizer r).parse input = .matched value rest) ∧
      (answer = true → ∃ value valueText rest restText jumped,
        r.matchIn cursor.buffer.chars cursor.pos cursor.stop =
          some value.stop ∧
        (Parser.ofRecognizer r).parse input = .matched value rest ∧
        sought.effect? (.jump name other) = some (.ok (.done, jumped)) ∧
        jumped.effect? (.slice other index) =
          some (.ok (.slice value valueText, jumped)) ∧
        jumped.effect? (.slice name index) =
          some (.ok (.slice rest restText, jumped))) ∧
      (answer = false →
        (Parser.ofRecognizer r).parse input = .unmatched ∧
        sought = reached) := by
  intro reached
  have sound : reached.Sound := (sound_of_ofSources? made).run commands
  obtain ⟨buffer, known, placed⟩ := sound.find? stored
  obtain rfl := placed.buffer_eq
  obtain ⟨text, sliced⟩ := effect?_slice stored owned placed
  have searched := effect?_seek stored otherStored r
  rcases placed.seek_or_fail r with
    ⟨unmatched, failed, rejected⟩ | ⟨finish, matched, found, jumped, parsed⟩
  · rw [failed, Option.elim_none] at searched
    refine ⟨_, text, false, reached, sliced, searched, ?_, ?_, ?_, ?_⟩
    · simp [unmatched]
    · simp [rejected]
    · intro impossible
      contradiction
    · intro _
      exact ⟨rejected, rfl⟩
  · rw [found, Option.elim_some] at searched
    refine ⟨_, text, true, _, sliced, searched, ?_, ?_, ?_, ?_⟩
    · simp [matched]
    · simp [parsed]
    · intro _
      have matchPlaced := placed.seek found
      have behindPlaced := placed.jump matchPlaced.wellPlaced jumped
      obtain ⟨valueText, restText, next, steps⟩ :=
        slices_behind_jump stored apart owned matchPlaced behindPlaced jumped
      exact ⟨_, valueText, _, restText, next, matched, parsed, steps⟩
    · intro impossible
      contradiction

/-- The digits behind the accent of `é12x`, put into a cursor that stood in
another text. -/
theorem seek_jump_eq_parse_behind_accent :
    let accented : Buffer := ⟨['é', '1', '2', 'x'], 0⟩
    let session : Session := { buffers := [accented, ⟨['b'], 1⟩, accented] }
    let commands : List Command :=
      [.place "all" 2, .place "other" 1, .seek "all" (.oneOf ['é']) "other",
        .jump "all" "other", .place "other" 1]
    let reached := session.run commands
    ofSources? [.own "é12x", .own "b", .shared 0] = some session ∧
      reached.find? "all" = some ⟨accented, 2, 5⟩ ∧
      reached.find? "other" = some ⟨⟨['b'], 1⟩, 0, 1⟩ ∧
      "all" ≠ "other" ∧ reached.buffers[2]? = some accented ∧
      ∃ input sought jumped value valueText rest restText,
        reached.effect? (.seek "all" .digits "other") =
          some (.ok (.truth true, sought)) ∧
        (Parser.ofRecognizer .digits).parse input = .matched value rest ∧
        value.stop = 4 ∧
        sought.effect? (.jump "all" "other") =
          some (.ok (.done, jumped)) ∧
        jumped.effect? (.slice "other" 2) =
          some (.ok (.slice value valueText, jumped)) ∧
        jumped.effect? (.slice "all" 2) =
          some (.ok (.slice rest restText, jumped)) := by
  intro accented session commands reached
  have made :
      ofSources? [.own "é12x", .own "b", .shared 0] = some session := by
    decide
  have stored : reached.find? "all" = some ⟨accented, 2, 5⟩ := by decide
  have otherStored : reached.find? "other" = some ⟨⟨['b'], 1⟩, 0, 1⟩ := by
    decide
  have owned : reached.buffers[2]? = some accented := by decide
  have apart : "all" ≠ "other" := by decide
  have matched :
      Recognizer.digits.matchIn accented.chars 2 5 = some 4 := by
    decide +kernel
  obtain ⟨input, _, answer, sought, _, searched, answered, _, behind, _⟩ :=
    seek_jump_eq_parse made commands stored otherStored apart owned .digits
  have found : answer = true := answered.mpr ⟨4, matched⟩
  obtain ⟨value, valueText, rest, restText, jumped, stop, parsed, steps⟩ :=
    behind found
  rw [found] at searched
  have valueStop : value.stop = 4 := by
    rw [matched] at stop
    exact (Option.some.inj stop).symm
  exact ⟨made, stored, otherStored, apart, owned, input, sought, jumped,
    value, valueText, rest, restText, searched, parsed, valueStop, steps⟩

end Session

end TextGrammar.Cursor
