import TextGrammar.Proofs.Slice.Splitting
import TextGrammar.Slice.Workspace

/-!
Slices in a workspace. A command is refused just if it breaks a condition of its
own, and then nothing is added; so every slice that a workspace ever holds keeps its
bounds in order and inside its buffer. The main statement is
`run_inBounds_and_pieces_cover`.
-/

namespace TextGrammar

namespace Workspace

/-- The conditions that a command can break. -/
def Refuses (workspace : Workspace) : Command → Prop
  | .whole _ => False
  | .part text start stop => stop < start ∨ byteLength text.toList < stop
  | .rebuffer slot => workspace.slices[slot]? = none
  | .split slot offset =>
      ∀ slice, workspace.slices[slot]? = some slice →
        offset < slice.start ∨ slice.stop < offset

def Sound (workspace : Workspace) : Prop :=
  ∀ slice ∈ workspace.slices, slice.InBounds

variable {workspace : Workspace}

private theorem get_of_none
    {slot : Nat} (missing : workspace.slices[slot]? = none) :
    workspace.get slot = .error (.missingSlot slot) := by
  rw [get, missing]

private theorem get_of_some
    {slot : Nat} {slice : Slice}
    (found : workspace.slices[slot]? = some slice) :
    workspace.get slot = .ok slice := by
  rw [get, found]

/-- The command is refused and adds nothing, or it adds slices within their
buffers. -/
def Answers (workspace : Workspace) (command : Command) : Prop :=
  (workspace.Refuses command ∧
    ∃ fault, workspace.added command = .error fault) ∨
  (¬ workspace.Refuses command ∧
    ∃ slices, workspace.added command = .ok slices ∧ slices ≠ [] ∧
      ∀ slice ∈ slices, slice.InBounds)

private theorem answers_whole
    (text : String) : workspace.Answers (.whole text) :=
  .inr ⟨id, _, rfl, List.cons_ne_nil _ _,
    List.forall_mem_singleton.mpr (Slice.inBounds_whole _)⟩

private theorem answers_part
    (text : String) (start stop : Nat) :
    workspace.Answers (.part text start stop) := by
  cases made : Slice.ofBounds (workspace.freshBuffer text) start stop with
  | error fault =>
      refine .inl ⟨?_, fault, by rw [added, made]; rfl⟩
      by_contra kept
      have inBounds :
          Slice.InBounds ⟨workspace.freshBuffer text, start, stop⟩ := by
        rw [Refuses, not_or, Nat.not_lt, Nat.not_lt] at kept
        exact kept
      have accepted := Slice.ofBounds_eq_ok_iff.mpr ⟨rfl, inBounds⟩
      rw [made] at accepted
      contradiction
  | ok slice =>
      obtain ⟨rfl, inBounds⟩ := Slice.ofBounds_eq_ok_iff.mp made
      refine .inr ⟨?_, [_], by rw [added, made]; rfl, List.cons_ne_nil _ _,
        List.forall_mem_singleton.mpr inBounds⟩
      rw [Refuses, not_or, Nat.not_lt, Nat.not_lt]
      exact inBounds

private theorem answers_rebuffer
    (slot : Nat) : workspace.Answers (.rebuffer slot) := by
  cases found : workspace.slices[slot]? with
  | none =>
      exact .inl ⟨found, _, by rw [added, get_of_none found]; rfl⟩
  | some slice =>
      refine .inr ⟨by simp [Refuses, found], [.whole slice.buffer],
        by rw [added, get_of_some found]; rfl, List.cons_ne_nil _ _,
        List.forall_mem_singleton.mpr (Slice.inBounds_whole _)⟩

private theorem Sound.answers_split
    (sound : workspace.Sound) (slot offset : Nat) :
    workspace.Answers (.split slot offset) := by
  cases found : workspace.slices[slot]? with
  | none =>
      refine .inl ⟨?_, _, by rw [added, get_of_none found]; rfl⟩
      intro slice other
      rw [found] at other
      contradiction
  | some slice =>
      have inBounds := sound slice (List.mem_of_getElem? found)
      by_cases between : slice.start ≤ offset ∧ offset ≤ slice.stop
      · have split :=
          (Slice.splitAt_eq_ok_iff inBounds).mpr ⟨between, rfl, rfl⟩
        have ⟨before, after⟩ := Slice.inBounds_of_between inBounds between
        refine .inr ⟨?_, [⟨slice.buffer, slice.start, offset⟩,
            ⟨slice.buffer, offset, slice.stop⟩], ?_, List.cons_ne_nil _ _, ?_⟩
        · intro refused
          have outside := refused slice found
          omega
        · simp only [added, get_of_some found, split, bind, Except.bind, pure,
            Except.pure]
        · exact List.forall_mem_cons.mpr
            ⟨before, List.forall_mem_singleton.mpr after⟩
      · refine .inl ⟨?_, .outside offset slice.start slice.stop, ?_⟩
        · intro other same
          obtain rfl := Option.some.inj (found.symm.trans same)
          omega
        · have refused :
              slice.splitAt offset =
                .error (.outside offset slice.start slice.stop) := by
            rw [Slice.splitAt, if_neg between]
          simp only [added, get_of_some found, refused, bind, Except.bind]

theorem Sound.answers
    (sound : workspace.Sound) (command : Command) :
    workspace.Answers command := by
  cases command with
  | whole text =>
      exact answers_whole text
  | part text start stop =>
      exact answers_part text start stop
  | rebuffer slot =>
      exact answers_rebuffer slot
  | split slot offset =>
      exact sound.answers_split slot offset

theorem Sound.step
    (sound : workspace.Sound) (command : Command) :
    (workspace.step command).Sound := by
  rcases sound.answers command with
    ⟨_, _, refused⟩ | ⟨_, slices, accepted, _, inBounds⟩
  · rw [Workspace.step, refused]
    exact sound
  · rw [Workspace.step, accepted]
    exact List.forall_mem_append.mpr ⟨sound, inBounds⟩

theorem Sound.run
    (sound : workspace.Sound) (commands : List Command) :
    (workspace.run commands).Sound := by
  induction commands generalizing workspace with
  | nil =>
      exact sound
  | cons command commands inductionHypothesis =>
      exact inductionHypothesis (sound.step command)

/-- A command that breaks a condition changes nothing, and any other adds slices
behind those that are there. -/
theorem Sound.step_answers
    (sound : workspace.Sound) (command : Command) :
    (workspace.Refuses command →
      (∃ fault, workspace.added command = .error fault) ∧
        workspace.step command = workspace) ∧
    (¬ workspace.Refuses command →
      ∃ slices, workspace.added command = .ok slices ∧ slices ≠ [] ∧
        (workspace.step command).slices = workspace.slices ++ slices) := by
  rcases sound.answers command with
    ⟨refuses, fault, refused⟩ | ⟨accepts, slices, accepted, added, _⟩
  · refine ⟨fun _ => ⟨⟨fault, refused⟩, ?_⟩, absurd refuses⟩
    rw [Workspace.step, refused]
  · refine ⟨(absurd · accepts), fun _ => ⟨slices, accepted, added, ?_⟩⟩
    rw [Workspace.step, accepted]

/-- In a workspace that commands build from slices made with bounds, or from nothing,
a command adds slices just if it breaks no condition, and each slice keeps within its
buffer and can be read unless a bound falls inside a character. A slice within its
buffer can be split again and again at just the offsets within the parts; the pieces
lie side by side and cover it, and at boundaries their texts make up its text. -/
theorem run_inBounds_and_pieces_cover :
    (∀ (made : List Slice) (commands : List Command),
      (∀ slice ∈ made, ∃ buffer start stop,
        Slice.ofBounds buffer start stop = .ok slice) →
      let workspace := run ⟨made⟩ commands
      (∀ command,
        (workspace.Refuses command →
          (∃ fault, workspace.added command = .error fault) ∧
            workspace.step command = workspace) ∧
        (¬ workspace.Refuses command →
          ∃ slices, workspace.added command = .ok slices ∧ slices ≠ [] ∧
            (workspace.step command).slices = workspace.slices ++ slices)) ∧
      ∀ slice ∈ workspace.slices,
        slice.start ≤ slice.stop ∧ slice.stop ≤ slice.buffer.size ∧
        slice.start + slice.size = slice.stop ∧
        ((∃ fault, slice.text = .error fault) ↔
          ¬ IsBoundary slice.buffer.chars slice.start ∨
            ¬ IsBoundary slice.buffer.chars slice.stop)) ∧
    ∀ (slice : Slice) (cuts : Cuts), slice.InBounds →
      ((∃ pieces, slice.pieces cuts = .ok pieces) ↔
        cuts.Within slice.start slice.stop) ∧
      ∀ pieces, slice.pieces cuts = .ok pieces →
        slice.PartitionedInto pieces ∧
        (IsBoundary slice.buffer.chars slice.start →
          IsBoundary slice.buffer.chars slice.stop →
          (∀ offset ∈ cuts.offsets, IsBoundary slice.buffer.chars offset) →
          ∃ texts, pieces.mapM Slice.text = .ok texts ∧
            slice.text = .ok (String.join texts)) := by
  constructor
  · intro made commands bounded workspace
    have sound : workspace.Sound := by
      refine Sound.run (fun slice member => ?_) commands
      obtain ⟨buffer, start, stop, accepted⟩ := bounded slice member
      exact (Slice.ofBounds_eq_ok_iff.mp accepted).2
    refine ⟨sound.step_answers, fun slice member => ?_⟩
    have inBounds := sound slice member
    exact ⟨inBounds.1, inBounds.2, Nat.add_sub_of_le inBounds.1,
      inBounds.exists_fault_iff⟩
  · intro slice cuts inBounds
    refine ⟨Slice.exists_pieces_iff inBounds, fun pieces split => ?_⟩
    refine ⟨Slice.partitionedInto_of_pieces inBounds split, ?_⟩
    intro startBoundary stopBoundary boundaries
    obtain ⟨chars, readable⟩ :=
      Slice.exists_chars?_iff.mpr ⟨inBounds, startBoundary, stopBoundary⟩
    exact Slice.exists_texts_of_pieces readable boundaries split

/-- Of a part behind `x` in `xé1é`, a split inside the first accent leaves two parts
that cannot be read, and cuts behind both first characters leave three texts. -/
theorem run_inBounds_and_pieces_cover_of_accents :
    let buffer : Buffer := { chars := ['x', 'é', '1', 'é'] }
    let slice : Slice := ⟨buffer, 1, 6⟩
    let inside : Slice := ⟨buffer, 2, 6⟩
    let workspace := run ⟨[slice]⟩ [.split 0 2, .rebuffer 1]
    let cuts : Cuts := .cut 3 .none (.cut 4 .none .none)
    let pieces : List Slice := [⟨buffer, 1, 3⟩, ⟨buffer, 3, 4⟩, ⟨buffer, 4, 6⟩]
    Slice.ofBounds buffer 1 6 = .ok slice ∧
      workspace.slices = [slice, ⟨buffer, 1, 2⟩, inside, .whole buffer] ∧
      workspace.step (.split 1 3) = workspace ∧
      (∃ fault, inside.text = .error fault) ∧
      slice.pieces cuts = .ok pieces ∧ slice.PartitionedInto pieces ∧
      ∃ texts, pieces.mapM Slice.text = .ok texts ∧
        slice.text = .ok (String.join texts) := by
  intro buffer slice inside workspace cuts pieces
  have accepted : Slice.ofBounds buffer 1 6 = .ok slice := by decide
  have slices :
      workspace.slices = [slice, ⟨buffer, 1, 2⟩, inside, .whole buffer] := by
    decide
  have split : slice.pieces cuts = .ok pieces := by decide
  have refuses : workspace.Refuses (.split 1 3) := by
    intro part found
    rw [slices] at found
    obtain rfl := Option.some.inj found
    exact .inr (by decide)
  have ⟨commandsAnswered, slicesKept⟩ :=
    run_inBounds_and_pieces_cover.1 [slice] [.split 0 2, .rebuffer 1]
      (List.forall_mem_singleton.mpr ⟨buffer, 1, 6, accepted⟩)
  have covers := (run_inBounds_and_pieces_cover.2 slice cuts (by decide)).2
    pieces split
  refine ⟨accepted, slices, ((commandsAnswered _).1 refuses).2, ?_, split,
    covers.1, covers.2 (by decide) (by decide) (by decide)⟩
  have member : inside ∈ workspace.slices := by
    rw [slices]
    decide
  exact (slicesKept inside member).2.2.2.mpr (.inl (by decide))

end Workspace

end TextGrammar
