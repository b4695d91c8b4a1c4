import TextGrammar.Slice.Basic

/-!
Why a cursor refuses an operation. An error is the caller's to handle and says
which condition the request broke; a fault is a broken condition of a slice.
-/

namespace TextGrammar.Cursor

inductive Error where
  | outOfBounds (pos stop size : Nat)
  | offBoundary (offset : Nat)
  | foreign
deriving DecidableEq, Repr

def Error.message : Error → String
  | outOfBounds pos stop size =>
      s!"stream bounds {pos}..{stop} fall outside text of length {size}"
  | offBoundary offset =>
      s!"offset {offset} is not on a character boundary"
  | foreign => "stream belongs to a different scanner"

/-- Either way in which an operation fails. -/
inductive Failure where
  | error (cause : Error)
  | fault (cause : Fault)
deriving DecidableEq, Repr

instance : MonadLift (Except Error) (Except Failure) :=
  ⟨Except.mapError .error⟩

instance : MonadLift (Except Fault) (Except Failure) :=
  ⟨Except.mapError .fault⟩

end TextGrammar.Cursor
