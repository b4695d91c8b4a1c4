import TextGrammar.Proofs.Recognizer.Offsets

/-!
Matches in a window. Scanning that begins between two characters of a window
ends between two characters of it, not before the place where it began, and the
rounds of a repetition end because each moves forward inside the window. The
text before a window shifts what is scanned in it, and the text behind it is
never seen. The main statements are `scanIn_ends_in_bounds` and
`scanIn_eq_recognize_shifted`.
-/

namespace TextGrammar

namespace Recognizer

private theorem isBoundary_offsetOf
    {window rest : List Char} (final : rest <:+ window) :
    IsBoundary window (offsetOf window rest) := by
  rcases final with ⟨before, rfl⟩
  rw [offsetOf_append]
  exact isBoundary_append before rest

private theorem exists_offsetOf_eq
    {window : List Char} {pos : Nat} (boundary : IsBoundary window pos) :
    ∃ rest, rest <:+ window ∧ offsetOf window rest = pos := by
  obtain ⟨before, rest, rfl, rfl⟩ := isBoundary_iff.mp boundary
  exact ⟨rest, List.suffix_append before rest, offsetOf_append before rest⟩

private theorem offsetOf_le_offsetOf
    {window chars rest : List Char} (further : rest <:+ chars) :
    offsetOf window chars ≤ offsetOf window rest :=
  Nat.sub_le_sub_left (byteLength_le_of_suffix further) _

/-- Text before a window shifts the offsets of the window. -/
theorem offsetOf_append_left
    (before : List Char) {window rest : List Char}
    (final : rest <:+ window) :
    offsetOf (before ++ window) rest =
      byteLength before + offsetOf window rest := by
  have inside := byteLength_le_of_suffix final
  rw [offsetOf, offsetOf, byteLength_append]
  exact Nat.add_sub_assoc inside _

/-- A scan that begins between two characters ends, without a fault, between two
characters behind that place or at it. Nor does any offset exceed the length of
the window. -/
theorem scan_of_isBoundary
    (window : List Char) (r : Recognizer) {pos : Nat}
    (boundary : IsBoundary window pos) :
    ∃ result, scan window r pos = .ok result ∧
      ∀ finish, result = some finish →
        pos ≤ finish ∧ finish ≤ byteLength window ∧
          IsBoundary window finish := by
  obtain ⟨chars, final, rfl⟩ := exists_offsetOf_eq boundary
  refine ⟨_, scansAs_scan window r chars final, ?_⟩
  intro finish found
  obtain ⟨rest, consumed, rfl⟩ := Option.map_eq_some_iff.mp found
  have further := r.suffix_of_consume chars rest consumed
  exact ⟨offsetOf_le_offsetOf further, Nat.sub_le _ _,
    isBoundary_offsetOf (further.trans final)⟩

/-- One more round of a repetition: a match at `pos` that ends further on, at
`next`. -/
def Round (window : List Char) (inner : Recognizer) (next pos : Nat) : Prop :=
  pos < next ∧ scan window inner pos = .ok (some next)

/-- No repetition has infinitely many rounds, even if nothing but the rounds
themselves limits it: each of them shortens the part of the window ahead. -/
theorem acc_round
    (window : List Char) (inner : Recognizer) {pos : Nat}
    (boundary : IsBoundary window pos) :
    Acc (Round window inner) pos := by
  induction ahead : byteLength window - pos using Nat.strongRecOn
    generalizing pos with
  | ind distance inductionHypothesis =>
      constructor
      rintro next ⟨forward, found⟩
      obtain ⟨result, scanned, bounds⟩ :=
        scan_of_isBoundary window inner boundary
      have same : result = some next :=
        Except.ok.inj (scanned.symm.trans found)
      obtain ⟨_, inside, nextBoundary⟩ := bounds next same
      exact inductionHypothesis (byteLength window - next) (by omega)
        nextBoundary rfl

private theorem matchIn_eq_none_of_bounds
    (r : Recognizer) {text : List Char} {start stop : Nat}
    (refused : stop < start ∨ byteLength text < stop ∨
      ¬ IsBoundary text start ∨ ¬ IsBoundary text stop) :
    r.matchIn text start stop = none := by
  cases readable : window? text start stop with
  | none =>
      rw [matchIn, readable]
      rfl
  | some chars =>
      obtain ⟨ordered, startBoundary, stopBoundary⟩ :=
        exists_window?_iff.mp ⟨chars, readable⟩
      have inside := stopBoundary.le_byteLength
      rcases refused with reversed | beyond | split | split
      · omega
      · omega
      · exact absurd startBoundary split
      · exact absurd stopBoundary split

theorem bounds_of_matchIn
    {r : Recognizer} {text : List Char} {start stop finish : Nat}
    (found : r.matchIn text start stop = some finish) :
    start ≤ finish ∧ finish ≤ stop ∧ IsBoundary text finish := by
  obtain ⟨read, rest, readable, _, rfl⟩ := matchIn_eq_some_iff.mp found
  obtain ⟨readFirst, readRest⟩ := window?_of_append readable
  obtain ⟨forward, _, boundary⟩ := exists_window?_iff.mp ⟨read, readFirst⟩
  have inside := (exists_window?_iff.mp ⟨rest, readRest⟩).1
  exact ⟨forward, inside, boundary⟩

/-- Scanning ends without a fault whatever the bounds are, and so does every
repetition in it. Bounds that are reversed, lie beyond the text or fall inside a
character never match, and a match ends at a boundary between the bounds. -/
theorem scanIn_ends_in_bounds
    (r : Recognizer) (text : List Char) (start stop : Nat) :
    (∃ result, r.scanIn text start stop = .ok result ∧
      r.matchIn text start stop = result ∧
      (stop < start ∨ byteLength text < stop ∨
        ¬ IsBoundary text start ∨ ¬ IsBoundary text stop →
          result = none) ∧
      ∀ finish, result = some finish →
        start ≤ finish ∧ finish ≤ stop ∧ IsBoundary text finish) ∧
    ∀ window inner pos, IsBoundary window pos →
      Acc (Round window inner) pos := by
  constructor
  · exact ⟨r.matchIn text start stop, r.scanIn_eq_matchIn text start stop,
      rfl, r.matchIn_eq_none_of_bounds, fun _ => bounds_of_matchIn⟩
  · intro window inner pos boundary
    exact acc_round window inner boundary

/-- The digits behind the accent of `é12x` are matched up to byte 4, but not
from byte 1, which the accent covers. -/
theorem scanIn_digits_behind_accent :
    let text := ['é', '1', '2', 'x']
    digits.scanIn text 2 5 = .ok (some 4) ∧
      2 ≤ 4 ∧ 4 ≤ 5 ∧ IsBoundary text 4 ∧
      ¬ IsBoundary text 1 ∧ digits.scanIn text 1 5 = .ok none ∧
      Acc (Round text digit) 2 := by
  intro text
  have matched : digits.matchIn text 2 5 = some 4 := by decide +kernel
  have split : ¬ IsBoundary text 1 := by decide
  obtain ⟨⟨_, scanned, same, _, bounds⟩, rounds⟩ :=
    scanIn_ends_in_bounds digits text 2 5
  obtain ⟨⟨_, scannedInside, _, refused, _⟩, _⟩ :=
    scanIn_ends_in_bounds digits text 1 5
  obtain ⟨forward, inside, boundary⟩ := bounds 4 (same.symm.trans matched)
  rw [← same, matched] at scanned
  rw [refused (Or.inr (Or.inr (Or.inl split)))] at scannedInside
  exact ⟨scanned, forward, inside, boundary, split, scannedInside,
    rounds text digit 2 (by decide)⟩

/-- Text before a window shifts every match in it. -/
theorem scan_append_left
    (before window : List Char) (r : Recognizer) {pos : Nat}
    (boundary : IsBoundary window pos) :
    scan (before ++ window) r (byteLength before + pos) =
      (scan window r pos).map (Option.map (byteLength before + ·)) := by
  obtain ⟨chars, final, rfl⟩ := exists_offsetOf_eq boundary
  have alone := scansAs_scan window r chars final
  have within :=
    scansAs_scan (before ++ window) r chars
      (final.trans (List.suffix_append before window))
  rw [offsetOf_append_left before final] at within
  rw [alone, within]
  cases consumed : r.consume chars with
  | none =>
      rfl
  | some rest =>
      have further := r.suffix_of_consume chars rest consumed
      rw [Option.map_some, offsetOf_append_left before (further.trans final)]
      rfl

theorem scan_eq_recognize
    (r : Recognizer) (text : List Char) :
    scan text r 0 = .ok (r.recognize (String.ofList text)) := by
  have scanned := scansAs_scan text r text (List.suffix_refl text)
  have atStart : offsetOf text text = 0 := Nat.sub_self _
  rw [atStart] at scanned
  rw [scanned, recognize, String.toList_ofList,
    r.matchIn_of_window? (window?_whole text)]
  rfl

private theorem scanIn_append
    (r : Recognizer) (before chars after : List Char) :
    r.scanIn (before ++ chars ++ after) (byteLength before)
        (byteLength before + byteLength chars) =
      .ok ((r.recognize (String.ofList chars)).map
        (byteLength before + ·)) := by
  have taken :
      takeBytes? (before ++ chars ++ after)
          (byteLength before + byteLength chars) =
        some (before ++ chars) :=
    takeBytes?_eq_some_iff.mpr
      ⟨after, rfl, byteLength_append before chars⟩
  have dropped :
      dropBytes? (before ++ chars) (byteLength before) = some chars :=
    dropBytes?_eq_some_iff.mpr ⟨before, rfl, rfl⟩
  have boundary : IsBoundary chars 0 := isBoundary_append [] chars
  have shifted := scan_append_left before chars r boundary
  rw [scan_eq_recognize] at shifted
  rw [scanIn, taken]
  simp only [dropped]
  exact shifted

/-- A match between two boundaries is the match in a copy of the text between
them, moved to where this text begins. So neither what stands before the bounds
nor what stands behind them matters. -/
theorem scanIn_eq_recognize_shifted
    (r : Recognizer) {text : List Char} {start stop : Nat}
    (ordered : start ≤ stop)
    (startBoundary : IsBoundary text start)
    (stopBoundary : IsBoundary text stop) :
    ∃ chars, window? text start stop = some chars ∧
      scan chars r 0 = .ok (r.recognize (String.ofList chars)) ∧
      r.scanIn text start stop =
        .ok ((r.recognize (String.ofList chars)).map (start + ·)) ∧
      r.matchIn text start stop =
        (r.recognize (String.ofList chars)).map (start + ·) ∧
      ∀ before after,
        r.matchIn (before ++ chars ++ after) (byteLength before)
            (byteLength before + byteLength chars) =
          (r.recognize (String.ofList chars)).map
            (byteLength before + ·) := by
  obtain ⟨chars, readable⟩ :=
    exists_window?_iff.mpr ⟨ordered, startBoundary, stopBoundary⟩
  have moved : ∀ before after,
      r.matchIn (before ++ chars ++ after) (byteLength before)
          (byteLength before + byteLength chars) =
        (r.recognize (String.ofList chars)).map
          (byteLength before + ·) := by
    intro before after
    have scanned := r.scanIn_append before chars after
    rw [scanIn_eq_matchIn] at scanned
    exact Except.ok.inj scanned
  obtain ⟨before, after, rfl, rfl, rfl⟩ := window?_eq_some_iff.mp readable
  exact ⟨chars, readable, r.scan_eq_recognize chars,
    r.scanIn_append before chars after, moved before after, moved⟩

/-- The digits of `é12é` are matched in the part between the accents as they
are in `12`, two bytes further on. -/
theorem scanIn_digits_between_accents :
    let text := ['é', '1', '2', 'é']
    IsBoundary text 2 ∧ IsBoundary text 4 ∧
      digits.recognize "12" = some 2 ∧
      digits.scanIn text 2 4 = .ok (some 4) := by
  intro text
  have startBoundary : IsBoundary text 2 := by decide
  have stopBoundary : IsBoundary text 4 := by decide
  have recognized : digits.recognize "12" = some 2 := by decide +kernel
  obtain ⟨chars, readable, _, scanned, _⟩ :=
    scanIn_eq_recognize_shifted digits (by decide : 2 ≤ 4) startBoundary
      stopBoundary
  have read : window? text 2 4 = some "12".toList := by decide
  obtain rfl := Option.some.inj (read.symm.trans readable)
  rw [String.ofList_toList, recognized] at scanned
  exact ⟨startBoundary, stopBoundary, recognized, scanned⟩

end Recognizer

end TextGrammar
