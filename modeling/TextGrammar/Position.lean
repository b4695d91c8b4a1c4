import TextGrammar.Text.Offset

/-!
Places in a text for people to read: a line and a column, both counted from
one, beside the byte offset. Columns count characters.
-/

namespace TextGrammar

structure Position where
  line : Nat
  column : Nat
  offset : Nat
deriving DecidableEq, Repr

namespace Position

/-- The place before the first character. -/
def start : Position where
  line := 1
  column := 1
  offset := 0

instance : Inhabited Position := ⟨start⟩

instance : ToString Position where
  toString place := s!"{place.line}:{place.column}"

/-- Steps the line and column over one character. -/
def step (place : Position) (c : Char) : Position :=
  if c = '\n' then
    { place with line := place.line + 1, column := 1 }
  else
    { place with column := place.column + 1 }

/-- The longest initial part of the characters that ends at or before the
offset. -/
def wholeCharsBefore : List Char → Nat → List Char
  | [], _ => []
  | c :: rest, offset =>
      if c.utf8Size ≤ offset then
        c :: wholeCharsBefore rest (offset - c.utf8Size)
      else
        []

/-- The place of a byte offset. An offset beyond the end counts as the end, and
an offset inside a character has the line and column of that character. -/
def locate (text : String) (offset : Nat) : Position :=
  let clamped := min offset (byteLength text.toList)
  let place := (wholeCharsBefore text.toList clamped).foldl step start
  { place with offset := clamped }

end Position

end TextGrammar
