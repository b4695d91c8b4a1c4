import TextGrammar.Slice.Basic

/-!
A list of slices that grows by commands: slices over fresh texts, over the
buffer of an earlier slice, and the parts of an earlier slice. A command that
breaks a condition adds nothing.
-/

namespace TextGrammar

structure Workspace where
  slices : List Slice
deriving DecidableEq, Repr

namespace Workspace

inductive Command where
  | whole (text : String)
  | part (text : String) (start stop : Nat)
  | rebuffer (slot : Nat)
  | split (slot offset : Nat)
deriving DecidableEq, Repr

def empty : Workspace := ⟨[]⟩

def get (workspace : Workspace) (slot : Nat) : Except Fault Slice :=
  match workspace.slices[slot]? with
  | some slice => .ok slice
  | none => .error (.missingSlot slot)

/-- A buffer that no slice of the workspace uses, for a text. Its key is the
number of slices so far, which every later buffer exceeds. -/
def freshBuffer (workspace : Workspace) (text : String) : Buffer where
  chars := text.toList
  key := workspace.slices.length

/-- The slices that a command adds. -/
def added (workspace : Workspace) : Command → Except Fault (List Slice)
  | .whole text =>
      .ok [Slice.whole (workspace.freshBuffer text)]
  | .part text start stop => do
      let slice ← Slice.ofBounds (workspace.freshBuffer text) start stop
      return [slice]
  | .rebuffer slot => do
      let slice ← workspace.get slot
      return [Slice.whole slice.buffer]
  | .split slot offset => do
      let slice ← workspace.get slot
      let (before, after) ← slice.splitAt offset
      return [before, after]

/-- The workspace after a command, unchanged if the command fails. -/
def step (workspace : Workspace) (command : Command) : Workspace :=
  match workspace.added command with
  | .ok slices => ⟨workspace.slices ++ slices⟩
  | .error _ => workspace

def run (workspace : Workspace) (commands : List Command) : Workspace :=
  commands.foldl step workspace

/-- The number of different texts among all slots. -/
def distinctTexts (workspace : Workspace) : Except Fault Nat := do
  let texts ← workspace.slices.mapM Slice.text
  return texts.eraseDups.length

end Workspace

end TextGrammar
