import TextGrammar.Proofs.Cursor.Effects
import TextGrammar.Proofs.Cursor.Reading
import TextGrammar.Proofs.Text.Balance

/-!
The group that a cursor finds. The search counts delimiters by depth; the group is
described here by offsets of the text and by the numbers of both delimiters
between them. The main statement is `seekGroup_iff_balances`: the search succeeds
just if the first opening delimiter of the range balances somewhere, it finds the
first place where it does, and otherwise the cursor goes to its stop.
-/

namespace TextGrammar.Cursor

section

variable (cursor : Cursor) (opening closing : Char)

/-- The first opening delimiter of the range begins at an offset. -/
def OpensAt (start : Nat) : Prop :=
  ∃ before after,
    cursor.chars = .ok (before ++ opening :: after) ∧ opening ∉ before ∧
      start = cursor.pos + byteLength before

/-- From one offset up to a later one in the range there is something to read,
and as many delimiters open in it as close. -/
def BalancesAt (start stop : Nat) : Prop :=
  start < stop ∧ stop ≤ cursor.stop ∧
    ∃ part, window? cursor.buffer.chars start stop = some part ∧
      part.count opening = part.count closing

/-- A range that begins at the first opening delimiter of the cursor and ends at
the first place where the delimiters balance. Up to any place before, more of
them open than close. -/
structure FirstGroup (group : Cursor) : Prop where
  buffer_eq : group.buffer = cursor.buffer
  opens : cursor.OpensAt opening group.pos
  balances : cursor.BalancesAt opening closing group.pos group.stop
  first : ∀ stop, cursor.BalancesAt opening closing group.pos stop →
    group.stop ≤ stop
  open_before : ∀ stop part, group.pos < stop → stop < group.stop →
    window? cursor.buffer.chars group.pos stop = some part →
      part.count closing < part.count opening

end

variable {cursor : Cursor} {opening closing : Char} {chars : List Char}

private theorem ne_nil_of_window?
    {text part : List Char} {start stop : Nat}
    (read : window? text start stop = some part) (forward : start < stop) :
    part ≠ [] := by
  intro empty
  have length := byteLength_of_window? read
  rw [empty, byteLength_nil] at length
  omega

/-- The parts that a search cuts the range into have the first group in their
middle. -/
theorem firstGroup_of_findGroup?
    (different : opening ≠ closing) {before group after : List Char}
    (readable : cursor.chars = .ok chars)
    (found :
      findGroup? opening closing chars = some (before, group, after)) :
    cursor.FirstGroup opening closing ((cursor.past before).upTo group) := by
  obtain ⟨rfl, free, balanced⟩ :=
    (findGroup?_eq_some_iff different).mp found
  rw [List.append_assoc] at readable
  have readGroup : window? cursor.buffer.chars
      ((cursor.past before).upTo group).pos
      ((cursor.past before).upTo group).stop = some group :=
    chars_eq_ok_iff.mp (chars_upTo (chars_past readable))
  have nonempty : group ≠ [] := by
    obtain ⟨inside, rfl, _⟩ := balanced
    exact List.cons_ne_nil _ _
  have forward :
      ((cursor.past before).upTo group).pos <
        ((cursor.past before).upTo group).stop := by
    have length := byteLength_of_window? readGroup
    have positive := mt byteLength_eq_zero_iff.mp nonempty
    omega
  have openBefore :
      ∀ stop part, ((cursor.past before).upTo group).pos < stop →
        stop < ((cursor.past before).upTo group).stop →
          window? cursor.buffer.chars ((cursor.past before).upTo group).pos
              stop = some part →
            part.count closing < part.count opening := by
    intro stop part behind shorter read
    have initial := prefix_of_window? read readGroup (Nat.le_of_lt shorter)
    have proper : part ≠ group := by
      intro whole
      rw [whole] at read
      have length := byteLength_of_window? read
      have groupLength := byteLength_of_window? readGroup
      omega
    exact balanced.count_lt_of_prefix different initial
      (ne_nil_of_window? read behind) proper
  refine ⟨rfl, ?_, ⟨forward, ?_, group, readGroup, balanced.count_eq different⟩,
    ?_, openBefore⟩
  · obtain ⟨inside, rfl, _⟩ := balanced
    exact ⟨before, _, readable, free, rfl⟩
  · have length := pos_add_byteLength (chars_past readable)
    rw [byteLength_append, ← Nat.add_assoc] at length
    exact Nat.le.intro length
  · intro stop balances
    obtain ⟨behind, _, part, read, even⟩ := balances
    by_contra shorter
    have excess := openBefore stop part behind (Nat.lt_of_not_le shorter) read
    omega

/-- A search that finds nothing leaves no place where the first opening delimiter
balances. -/
theorem not_balancesAt_of_findGroup?
    (different : opening ≠ closing)
    (readable : cursor.chars = .ok chars)
    (absent : findGroup? opening closing chars = none)
    {start stop : Nat} (opens : cursor.OpensAt opening start) :
    ¬ cursor.BalancesAt opening closing start stop := by
  intro balances
  obtain ⟨before, after, split, free, rfl⟩ := opens
  obtain ⟨forward, inside, part, read, even⟩ := balances
  obtain rfl := Except.ok.inj (readable.symm.trans split)
  have never := (findGroup?_eq_none_iff different).mp absent
  have stays := never before after rfl free
  have readRest := chars_eq_ok_iff.mp (chars_past readable)
  rcases List.prefix_cons_iff.mp (prefix_of_window? read readRest inside) with
    empty | ⟨rest, rfl, initial⟩
  · exact ne_nil_of_window? read forward empty
  · have bounded := stays rest initial
    rw [List.count_cons_self, List.count_cons_of_ne different] at even
    omega

/-- What a search finds, how the loop that counts delimiters ends with it, and
where the cursor goes. -/
theorem seekGroup_cases
    (opening closing : Char) (readable : cursor.chars = .ok chars) :
    (∃ group, opening ≠ closing ∧
      cursor.FirstGroup opening closing group ∧
      countGroup opening closing 0 none cursor.pos chars =
        .found group.pos group.stop ∧
      cursor.seekGroup opening closing =
        .ok (some group, { cursor with pos := group.stop })) ∨
    ((opening ≠ closing → ∀ start stop, cursor.OpensAt opening start →
        ¬ cursor.BalancesAt opening closing start stop) ∧
      countGroup opening closing 0 none cursor.pos chars = .exhausted ∧
      cursor.seekGroup opening closing =
        .ok (none, { cursor with pos := cursor.stop })) := by
  have counted := countGroup_eq opening closing cursor.pos chars
  cases found : findGroup? opening closing chars with
  | none =>
      rw [found] at counted
      refine Or.inr ⟨?_, counted, seekGroup_of_none readable found⟩
      intro different start stop opens
      exact not_balancesAt_of_findGroup? different readable found opens
  | some parts =>
      obtain ⟨before, group, after⟩ := parts
      have different : opening ≠ closing := by
        intro same
        rw [same, findGroup?_self] at found
        contradiction
      rw [found] at counted
      exact Or.inl ⟨_, different,
        firstGroup_of_findGroup? different readable found, counted,
        seekGroup_of_some readable found⟩

/-- A search for a group answers that there is one just if the delimiters differ
and the first opening one balances in the range. Then the other cursor is the
range up to the first place where it does, and the cursor goes there; otherwise
the other cursor stays and the cursor goes to its stop. The loop that counts
delimiters ends in the same way and its counter never drops below zero. -/
theorem seekGroup_iff_balances
    {session : Session} {name other : String} {cursor target : Cursor}
    (stored : session.find? name = some cursor)
    (otherStored : session.find? other = some target)
    (apart : name ≠ other)
    (placed : cursor.WellPlaced) (opening closing : Char) :
    ∃ chars answer next,
      cursor.chars = .ok chars ∧
      countGroup opening closing 0 none cursor.pos chars ≠ .underflow ∧
      session.effect? (.seekGroup name other opening closing) =
        some (.ok (.truth answer, next)) ∧
      (answer = true ↔ opening ≠ closing ∧
        ∃ start stop, cursor.OpensAt opening start ∧
          cursor.BalancesAt opening closing start stop) ∧
      (answer = true → ∃ group, cursor.FirstGroup opening closing group ∧
        countGroup opening closing 0 none cursor.pos chars =
          .found group.pos group.stop ∧
        next.find? other = some group ∧
        next.find? name = some { cursor with pos := group.stop }) ∧
      (answer = false →
        countGroup opening closing 0 none cursor.pos chars = .exhausted ∧
        next.find? other = some target ∧
        next.find? name = some { cursor with pos := cursor.stop }) := by
  obtain ⟨chars, readable⟩ := wellPlaced_iff.mp placed
  rw [← chars_eq_ok_iff] at readable
  have noUnderflow :=
    countGroup_ne_underflow opening closing cursor.pos chars
  rcases seekGroup_cases opening closing readable with
    ⟨group, different, first, counted, searched⟩ |
    ⟨unbalanced, counted, searched⟩
  · have effect := Session.effect?_seekGroup stored otherStored searched
    refine ⟨chars, true, _, readable, noUnderflow, effect, ?_, ?_, ?_⟩
    · simp only [true_iff]
      exact ⟨different, _, _, first.opens, first.balances⟩
    · intro _
      refine ⟨group, first, counted, ?_, ?_⟩
      · rw [Option.elim_some, Session.find?_put, if_pos rfl]
      · rw [Option.elim_some, Session.find?_put, if_neg apart,
          Session.find?_put, if_pos rfl]
    · intro impossible
      contradiction
  · have effect := Session.effect?_seekGroup stored otherStored searched
    refine ⟨chars, false, _, readable, noUnderflow, effect, ?_, ?_, ?_⟩
    · simp only [Bool.false_eq_true, false_iff]
      intro balanced
      obtain ⟨different, start, stop, opens, balances⟩ := balanced
      exact unbalanced different start stop opens balances
    · intro impossible
      contradiction
    · intro _
      refine ⟨counted, ?_, ?_⟩
      · rw [Option.elim_none, Session.find?_put, if_neg apart.symm]
        exact otherStored
      · rw [Option.elim_none, Session.find?_put, if_pos rfl]

/-- The outer quotation of `»«a«b»»»`, which stands behind an accent and a mark
that closes nothing. -/
theorem seekGroup_iff_balances_quotation :
    let quoted : Buffer :=
      ⟨['é', '»', '«', 'a', '«', 'b', '»', '»', '»'], 0⟩
    let cursor : Cursor := ⟨quoted, 2, 16⟩
    let target : Cursor := ⟨⟨['b'], 1⟩, 0, 1⟩
    let session : Session :=
      { buffers := [quoted, ⟨['b'], 1⟩]
        cursors := [("all", cursor), ("other", target)] }
    session.find? "all" = some cursor ∧
      session.find? "other" = some target ∧ "all" ≠ "other" ∧
      cursor.WellPlaced ∧
      ∃ group next,
        session.effect? (.seekGroup "all" "other" '«' '»') =
          some (.ok (.truth true, next)) ∧
        cursor.FirstGroup '«' '»' group ∧ group.pos = 4 ∧ group.stop = 14 ∧
        next.find? "other" = some group ∧
        next.find? "all" = some ⟨quoted, 14, 16⟩ := by
  intro quoted cursor target session
  have stored : session.find? "all" = some cursor := by decide
  have otherStored : session.find? "other" = some target := by decide
  have apart : "all" ≠ "other" := by decide
  have placed : cursor.WellPlaced := by decide
  obtain ⟨chars, answer, next, read, _, effect, _, found, missed⟩ :=
    seekGroup_iff_balances stored otherStored apart placed '«' '»'
  have readable : cursor.chars = .ok quoted.chars.tail := by decide
  obtain rfl := Except.ok.inj (readable.symm.trans read)
  have counted :
      countGroup '«' '»' 0 none cursor.pos quoted.chars.tail =
        .found 4 14 := by
    decide
  have succeeds : answer = true := by
    by_contra fails
    have exhausted := (missed (Bool.eq_false_iff.mpr fails)).1
    rw [counted] at exhausted
    contradiction
  obtain ⟨group, first, ends, otherFound, nameFound⟩ := found succeeds
  rw [counted, Counted.found.injEq] at ends
  obtain ⟨start, stop⟩ := ends
  rw [succeeds] at effect
  rw [← stop] at nameFound
  exact ⟨stored, otherStored, apart, placed, group, next, effect, first,
    start.symm, stop.symm, otherFound, nameFound⟩

end TextGrammar.Cursor
