import TextGrammar.Text.Group

/-!
Counting delimiters. A program that searches for a group in one pass keeps a
counter of the delimiters that are open and the offset of the first of them.
The main statement is `countGroup_eq`: the counter never drops below zero, and
the search ends with the group that is found by depth.
-/

namespace TextGrammar

inductive Counted where
  | found (start stop : Nat)
  | exhausted
  | underflow
deriving DecidableEq, Repr

/-- Searches on from the offset `pos` with `depth` delimiters open, the first of
them at the offset `opened`. A delimiter that closes while the counter is zero
would be an underflow. -/
def countGroup (opening closing : Char) :
    (depth : Nat) → (opened : Option Nat) → (pos : Nat) → List Char → Counted
  | _, _, _, [] => .exhausted
  | depth, opened, pos, c :: rest =>
      if c = opening then
        countGroup opening closing (depth + 1)
          (if depth = 0 then some pos else opened) (pos + c.utf8Size) rest
      else if c = closing then
        match opened with
        | none => countGroup opening closing depth none (pos + c.utf8Size) rest
        | some start =>
            if depth = 0 then
              .underflow
            else if depth - 1 = 0 then
              .found start (pos + c.utf8Size)
            else
              countGroup opening closing (depth - 1) opened
                (pos + c.utf8Size) rest
      else
        countGroup opening closing depth opened (pos + c.utf8Size) rest

def Counted.ofClosed (start pos : Nat) :
    Option (List Char × List Char) → Counted
  | some (inside, _) => .found start (pos + byteLength inside)
  | none => .exhausted

private theorem Counted.ofClosed_map_cons
    (start pos : Nat) (c : Char)
    (closed : Option (List Char × List Char)) :
    ofClosed start pos
        (closed.map fun (inside, after) => (c :: inside, after)) =
      ofClosed start (pos + c.utf8Size) closed := by
  cases closed with
  | none =>
      rfl
  | some parts =>
      simp [ofClosed, Nat.add_assoc]

/-- Inside a group the counter stays above zero until the delimiter that closes
the group. -/
theorem countGroup_of_open
    (opening closing : Char) (start depth pos : Nat) (chars : List Char) :
    countGroup opening closing (depth + 1) (some start) pos chars =
      .ofClosed start pos (closeGroup? opening closing depth chars) := by
  fun_induction closeGroup? opening closing depth chars generalizing pos with
  | case1 depth =>
      rfl
  | case2 depth rest inductionHypothesis =>
      rw [countGroup, if_pos rfl, if_neg (Nat.succ_ne_zero depth),
        inductionHypothesis, Counted.ofClosed_map_cons]
  | case3 rest different =>
      rw [countGroup, if_neg different, if_pos rfl]
      simp [Counted.ofClosed]
  | case4 rest outer different inductionHypothesis =>
      rw [countGroup, if_neg different, if_pos rfl, Counted.ofClosed_map_cons,
        ← inductionHypothesis]
      simp
  | case5 depth c rest opens closes inductionHypothesis =>
      rw [countGroup, if_neg opens, if_neg closes, inductionHypothesis,
        Counted.ofClosed_map_cons]

def Counted.ofFound (pos : Nat) :
    Option (List Char × List Char × List Char) → Counted
  | some (before, group, _) =>
      .found (pos + byteLength before)
        (pos + byteLength before + byteLength group)
  | none => .exhausted

/-- Counting never drops below zero and finds the group that is found by
depth. -/
theorem countGroup_eq
    (opening closing : Char) (pos : Nat) (chars : List Char) :
    countGroup opening closing 0 none pos chars =
      .ofFound pos (findGroup? opening closing chars) := by
  induction chars generalizing pos with
  | nil =>
      rfl
  | cons c rest inductionHypothesis =>
      rw [countGroup, findGroup?]
      by_cases opens : c = opening
      · rw [if_pos opens, if_pos opens, if_pos rfl, countGroup_of_open]
        cases closeGroup? opening closing 0 rest with
        | none =>
            rfl
        | some parts =>
            simp [Counted.ofClosed, Counted.ofFound, Nat.add_assoc]
      · rw [if_neg opens, if_neg opens]
        have further :=
          inductionHypothesis (pos + c.utf8Size)
        have same :
            (if c = closing then
              countGroup opening closing 0 none (pos + c.utf8Size) rest
            else
              countGroup opening closing 0 none (pos + c.utf8Size) rest) =
              .ofFound (pos + c.utf8Size)
                (findGroup? opening closing rest) := by
          rw [ite_self, further]
        rw [same]
        cases findGroup? opening closing rest with
        | none =>
            rfl
        | some parts =>
            simp [Counted.ofFound, Nat.add_assoc]

theorem countGroup_ne_underflow
    (opening closing : Char) (pos : Nat) (chars : List Char) :
    countGroup opening closing 0 none pos chars ≠ .underflow := by
  rw [countGroup_eq]
  cases findGroup? opening closing chars <;> simp [Counted.ofFound]

end TextGrammar
