import TextGrammar.CharClass
import TextGrammar.Proofs.Escape.Characters
import TextGrammar.Proofs.Text.Balance

/-!
Templates taken apart. A layout is a template cut into its groups in braces and
the text between them; it can only be built where the cut is the one that a
search for groups makes. Filling a layout gives a layout again, since no brace
opens in a value, and the values become part of the text between the groups that
stay. The main statement is `fill_fill`: filling twice is filling once with both
sets of values.
-/

namespace TextGrammar.Template

def isNameChar (c : Char) : Bool :=
  c.isAlphanum || c == '_'

/-- The name that stands alone among blanks, if one does. -/
def nameIn? (inside : List Char) : Option (List Char) :=
  let shown := inside.dropWhile CharClass.isBlank
  let name := shown.takeWhile isNameChar
  if name ≠ [] ∧ (shown.dropWhile isNameChar).all CharClass.isBlank then
    some name
  else
    none

def valueIn? (value? : String → Option String) (inside : List Char) :
    Option String :=
  (nameIn? inside).bind fun name => value? (String.ofList name)

def braced (inside : List Char) : List Char :=
  '{' :: (inside ++ ['}'])

/-- What stands in a filled text for a group. -/
def written (value? : String → Option String) (inside : List Char) :
    List Char :=
  match valueIn? value? inside with
  | some value => (Escape.uriComponent value).toList
  | none => braced inside

/-- A template in parts. No brace opens in a gap, every group is balanced, and
the first brace that opens in the tail, if any, is never balanced again. -/
inductive Layout where
  | tail (text : List Char) (neverCloses : NeverCloses '{' '}' text)
  | piece (gap inside : List Char) (free : '{' ∉ gap)
      (balanced : Balanced '{' '}' inside) (rest : Layout)

namespace Layout

def text : Layout → List Char
  | tail text _ => text
  | piece gap inside _ _ rest => gap ++ braced inside ++ rest.text

/-- The text with all groups that have a value filled. -/
def filledText (value? : String → Option String) : Layout → List Char
  | tail text _ => text
  | piece gap inside _ _ rest =>
      gap ++ written value? inside ++ rest.filledText value?

def behind (front : List Char) (frontFree : '{' ∉ front) : Layout → Layout
  | tail text neverCloses =>
      tail (front ++ text) ((neverCloses_append frontFree).mpr neverCloses)
  | piece gap inside free balanced rest =>
      piece (front ++ gap) inside (List.not_mem_append frontFree free)
        balanced rest

/-- The layout of the filled text. Values are text between the groups that
stay. -/
def fill (value? : String → Option String) : Layout → Layout
  | tail text neverCloses => tail text neverCloses
  | piece gap inside free balanced rest =>
      match valueIn? value? inside with
      | some value =>
          behind (gap ++ (Escape.uriComponent value).toList)
            (List.not_mem_append free
              (Escape.opening_not_mem_uriComponent value))
            (rest.fill value?)
      | none => piece gap inside free balanced (rest.fill value?)

theorem findGroup?_text_tail
    {text : List Char} (neverCloses : NeverCloses '{' '}' text) :
    findGroup? '{' '}' (tail text neverCloses).text = none :=
  (findGroup?_eq_none_iff (by decide)).mpr neverCloses

theorem findGroup?_text_piece
    {gap inside : List Char} (free : '{' ∉ gap)
    (balanced : Balanced '{' '}' inside) (rest : Layout) :
    findGroup? '{' '}' (piece gap inside free balanced rest).text =
      some (gap, braced inside, rest.text) :=
  (findGroup?_eq_some_iff (by decide)).mpr
    ⟨rfl, free, inside, rfl, balanced⟩

/-- Every text has a layout. -/
theorem exists_text_eq
    (chars : List Char) : ∃ layout : Layout, layout.text = chars := by
  induction length : chars.length using Nat.strongRecOn
      generalizing chars with
  | _ size inductionHypothesis =>
      cases search : findGroup? '{' '}' chars with
      | none =>
          exact ⟨tail chars ((findGroup?_eq_none_iff (by decide)).mp search),
            rfl⟩
      | some parts =>
          rcases parts with ⟨gap, group, after⟩
          obtain ⟨rfl, free, inside, rfl, balanced⟩ :=
            (findGroup?_eq_some_iff (by decide)).mp search
          have shorter : after.length < size := by
            rw [← length]
            simp only [List.length_append, List.length_cons]
            omega
          obtain ⟨rest, rfl⟩ := inductionHypothesis _ shorter after rfl
          exact ⟨piece gap inside free balanced rest, rfl⟩

/-- A text has one layout only. -/
theorem text_injective :
    Function.Injective text := by
  intro left
  induction left with
  | tail text neverCloses =>
      intro right same
      have searched := congrArg (findGroup? '{' '}') same
      rw [findGroup?_text_tail] at searched
      cases right with
      | tail other otherNeverCloses =>
          obtain rfl : text = other := same
          rfl
      | piece gap inside free balanced rest =>
          rw [findGroup?_text_piece] at searched
          contradiction
  | piece gap inside free balanced rest inductionHypothesis =>
      intro right same
      have searched := congrArg (findGroup? '{' '}') same
      rw [findGroup?_text_piece] at searched
      cases right with
      | tail other otherNeverCloses =>
          rw [findGroup?_text_tail] at searched
          contradiction
      | piece otherGap otherInside otherFree otherBalanced otherRest =>
          rw [findGroup?_text_piece] at searched
          simp only [Option.some.injEq, Prod.mk.injEq, braced,
            List.cons.injEq, true_and, List.append_cancel_right_eq]
            at searched
          obtain ⟨rfl, rfl, sameRest⟩ := searched
          rw [inductionHypothesis sameRest]

section

variable {front : List Char} (frontFree : '{' ∉ front)

theorem text_behind
    (layout : Layout) :
    (layout.behind front frontFree).text = front ++ layout.text := by
  cases layout with
  | tail text neverCloses =>
      rfl
  | piece gap inside free balanced rest =>
      simp [behind, text]

private theorem behind_behind
    {more : List Char} (moreFree : '{' ∉ more) (layout : Layout) :
    (layout.behind more moreFree).behind front frontFree =
      layout.behind (front ++ more) (List.not_mem_append frontFree moreFree) := by
  cases layout with
  | tail text neverCloses =>
      simp [behind]
  | piece gap inside free balanced rest =>
      simp [behind]

theorem fill_behind
    (value? : String → Option String) (layout : Layout) :
    (layout.behind front frontFree).fill value? =
      (layout.fill value?).behind front frontFree := by
  cases layout with
  | tail text neverCloses =>
      rfl
  | piece gap inside free balanced rest =>
      rw [behind, fill, fill]
      cases valueIn? value? inside with
      | none =>
          rfl
      | some value =>
          simp only [behind_behind, List.append_assoc]

end

variable (value? : String → Option String)

theorem text_fill
    (layout : Layout) :
    (layout.fill value?).text = layout.filledText value? := by
  induction layout with
  | tail text neverCloses =>
      rfl
  | piece gap inside free balanced rest inductionHypothesis =>
      rw [fill, filledText, written]
      cases valueIn? value? inside with
      | none =>
          simp only [text, inductionHypothesis]
      | some value =>
          simp only [text_behind, inductionHypothesis]

end Layout

def merge (first? second? : String → Option String) (name : String) :
    Option String :=
  (first? name).or (second? name)

private theorem valueIn?_merge
    (first? second? : String → Option String) (inside : List Char) :
    valueIn? (merge first? second?) inside =
      (valueIn? first? inside).or (valueIn? second? inside) := by
  rw [valueIn?, valueIn?, valueIn?]
  cases nameIn? inside with
  | none =>
      rfl
  | some name =>
      rfl

/-- Filling twice is filling once, where the first values win. -/
theorem Layout.fill_fill
    (first? second? : String → Option String) (layout : Layout) :
    (layout.fill first?).fill second? = layout.fill (merge first? second?) := by
  induction layout with
  | tail text neverCloses =>
      rfl
  | piece gap inside free balanced rest inductionHypothesis =>
      rw [fill, fill, valueIn?_merge]
      cases valueIn? first? inside with
      | none =>
          simp only [Option.none_or]
          rw [fill, inductionHypothesis]
      | some value =>
          simp only [Option.some_or]
          rw [fill_behind, inductionHypothesis]

end TextGrammar.Template
