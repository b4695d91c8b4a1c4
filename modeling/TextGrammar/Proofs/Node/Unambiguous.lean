import Mathlib.Data.List.TakeWhile
import TextGrammar.Proofs.Node.Alike
import TextGrammar.Proofs.Node.Lines

/-!
Printing is unambiguous on trees without newlines of their own. The blanks at the
start of a line say nothing that the parentheses do not say: the lines without them
can be read back, from the first line of a tree to its last, whatever lines follow.
The main statement is `print_eq_iff_alike`.
-/

namespace TextGrammar.Printer

variable {τ : Type} {printer : Printer τ}

/-- Labels have no blank, and different tags have different labels. -/
structure TellsApart (printer : Printer τ) : Prop where
  blank : ∀ tag, ' ' ∉ (printer.label tag).toList
  injective : Function.Injective printer.label

def words (printer : Printer τ) (node : Node τ) : List (List Char) :=
  (printer.rows node).map Prod.snd

theorem words_atom
    (printer : Printer τ) (tag : τ) (value : Value) :
    printer.words (.atom tag value) =
      ['(' :: ((printer.label tag).toList ++
        ' ' :: (value.caption.toList ++ [')']))] := by
  simp [words, rows]

private theorem map_snd_rowsEach
    (printer : Printer τ) (nodes : List (Node τ)) :
    (printer.rowsEach nodes).map Prod.snd = nodes.flatMap printer.words := by
  have unmoved :
      Prod.snd ∘ Prod.map (· + 1) id =
        (Prod.snd : Nat × List Char → List Char) := rfl
  simp only [rowsEach_eq_flatMap, List.map_flatMap, List.map_map, unmoved]
  rfl

theorem words_branch
    (printer : Printer τ) (tag : τ) (children : List (Node τ)) :
    printer.words (.branch tag children) =
      ('(' :: (printer.label tag).toList) ::
        (children.flatMap printer.words ++ [[')']]) := by
  simp [words, rows, map_snd_rowsEach]

/-- The first line of a tree opens it. -/
theorem exists_words_eq
    (printer : Printer τ) (node : Node τ) :
    ∃ opening others, printer.words node = ('(' :: opening) :: others := by
  cases node with
  | atom tag value =>
      exact ⟨_, _, printer.words_atom tag value⟩
  | branch tag children =>
      exact ⟨_, _, printer.words_branch tag children⟩

/-- Every line starts with a parenthesis. -/
theorem dropWhile_blank_of_mem_words
    {node : Node τ} {word : List Char} (member : word ∈ printer.words node) :
    word.dropWhile (· == ' ') = word := by
  induction node with
  | atom tag value =>
      rw [words_atom, List.mem_singleton] at member
      rw [member]
      rfl
  | branch tag children inductionHypothesis =>
      rw [words_branch, List.mem_cons, List.mem_append, List.mem_flatMap,
        List.mem_singleton] at member
      rcases member with rfl | ⟨child, isChild, found⟩ | rfl
      · rfl
      · exact inductionHypothesis child isChild found
      · rfl

private theorem map_dropWhile_line
    (printer : Printer τ) (node : Node τ) :
    ((printer.rows node).map (printer.line 0)).map
        (List.dropWhile (· == ' ')) =
      printer.words node := by
  rw [List.map_map, words]
  apply List.map_congr_left
  intro row member
  rw [Function.comp_apply, line, List.dropWhile_append_of_pos]
  · exact dropWhile_blank_of_mem_words (List.mem_map_of_mem member)
  · intro c blank
    rw [List.eq_of_mem_replicate blank, beq_self_eq_true]

/-- A label is what stands before the first blank. -/
theorem append_blank_inj
    {label otherLabel rest otherRest : List Char}
    (free : ' ' ∉ label) (otherFree : ' ' ∉ otherLabel)
    (split : label ++ ' ' :: rest = otherLabel ++ ' ' :: otherRest) :
    label = otherLabel ∧ rest = otherRest := by
  have before {label rest : List Char} (free : ' ' ∉ label) :
      (label ++ ' ' :: rest).takeWhile (· ≠ ' ') = label := by
    rw [List.takeWhile_append_of_pos]
    · simp
    · intro c member
      exact decide_eq_true (ne_of_mem_of_not_mem member free)
  have labels : label = otherLabel := by
    rw [← before free, split, before otherFree]
  subst labels
  exact ⟨rfl, (List.cons.inj (List.append_cancel_left split)).2⟩

/-- The tree is known from its lines, and so is where they end, whatever lines
follow. -/
def ReadsBack (printer : Printer τ) (left : Node τ) : Prop :=
  ∀ right leftRest rightRest,
    (∀ part ∈ right.parts, printer.FitsLine part.2) →
      printer.words left ++ leftRest = printer.words right ++ rightRest →
        left.Alike Value.DisplaysAs right ∧ leftRest = rightRest

private theorem closing_ne_words
    (printer : Printer τ) (node : Node τ) (rest otherRest : List (List Char)) :
    [')'] :: rest ≠ printer.words node ++ otherRest := by
  obtain ⟨opening, others, opens⟩ := printer.exists_words_eq node
  rw [opens]
  simp

/-- The children of a branch end at the closing parenthesis. -/
theorem forall₂_alike_of_words
    {lefts : List (Node τ)} (each : ∀ left ∈ lefts, printer.ReadsBack left)
    {rights : List (Node τ)} {leftRest rightRest : List (List Char)}
    (fits : ∀ right ∈ rights, ∀ part ∈ right.parts, printer.FitsLine part.2)
    (split :
      lefts.flatMap printer.words ++ [')'] :: leftRest =
        rights.flatMap printer.words ++ [')'] :: rightRest) :
    List.Forall₂ (Node.Alike Value.DisplaysAs) lefts rights ∧
      leftRest = rightRest := by
  induction lefts generalizing rights with
  | nil =>
      cases rights with
      | nil =>
          exact ⟨.nil, (List.cons.inj split).2⟩
      | cons right rights =>
          rw [List.flatMap_cons, List.append_assoc] at split
          exact absurd split (printer.closing_ne_words right _ _)
  | cons left lefts inductionHypothesis =>
      obtain ⟨ofLeft, ofLefts⟩ := List.forall_mem_cons.mp each
      cases rights with
      | nil =>
          rw [List.flatMap_cons, List.append_assoc] at split
          exact absurd split.symm (printer.closing_ne_words left _ _)
      | cons right rights =>
          obtain ⟨rightFits, rightsFit⟩ := List.forall_mem_cons.mp fits
          rw [List.flatMap_cons, List.flatMap_cons, List.append_assoc,
            List.append_assoc] at split
          obtain ⟨first, behind⟩ := ofLeft right _ _ rightFits split
          obtain ⟨others, rest⟩ := inductionHypothesis ofLefts rightsFit behind
          exact ⟨.cons first others, rest⟩

theorem readsBack
    (tells : printer.TellsApart) {node : Node τ}
    (fits : ∀ part ∈ node.parts, printer.FitsLine part.2) :
    printer.ReadsBack node := by
  induction node with
  | atom tag value =>
      intro right rest otherRest rightFits split
      cases right with
      | atom otherTag other =>
          simp only [words_atom, List.cons_append, List.nil_append,
            List.cons.injEq, true_and] at split
          obtain ⟨first, behind⟩ := split
          obtain ⟨labels, captions⟩ :=
            append_blank_inj (tells.blank tag) (tells.blank otherTag) first
          obtain rfl : tag = otherTag :=
            tells.injective (String.toList_inj.mp labels)
          obtain ⟨displayed, _⟩ :=
            (fits _ (Node.self_mem_parts _)).exists_caption rfl
          obtain ⟨otherDisplayed, _⟩ :=
            (rightFits _ (Node.self_mem_parts _)).exists_caption rfl
          have sameCaption : value.caption = other.caption :=
            String.toList_inj.mp (List.append_cancel_right captions)
          exact ⟨.atom ⟨_, displayed, sameCaption ▸ otherDisplayed⟩, behind⟩
      | branch otherTag children =>
          simp only [words_atom, words_branch, List.cons_append,
            List.cons.injEq, true_and] at split
          have blank : ' ' ∈ (printer.label otherTag).toList := by
            rw [← split.1]
            simp
          exact absurd blank (tells.blank otherTag)
  | branch tag children inductionHypothesis =>
      intro right rest otherRest rightFits split
      cases right with
      | atom otherTag other =>
          simp only [words_atom, words_branch, List.cons_append,
            List.cons.injEq, true_and] at split
          have blank : ' ' ∈ (printer.label tag).toList := by
            rw [split.1]
            simp
          exact absurd blank (tells.blank tag)
      | branch otherTag others =>
          simp only [words_branch, List.cons_append, List.append_assoc,
            List.nil_append, List.cons.injEq, true_and] at split
          obtain ⟨labels, inside⟩ := split
          obtain rfl : tag = otherTag :=
            tells.injective (String.toList_inj.mp labels)
          obtain ⟨each, behind⟩ := forall₂_alike_of_words
            (fun child member => inductionHypothesis child member
              (Node.forall_parts_of_child fits member))
            (fun other member => Node.forall_parts_of_child rightFits member)
            inside
          exact ⟨.branch each, behind⟩

private theorem caption_eq_of_displaysAs
    {left right : Value} (alike : left.DisplaysAs right) :
    left.caption = right.caption := by
  obtain ⟨shown, leftShown, rightShown⟩ := alike
  rw [Value.caption, Value.caption, leftShown, rightShown]

private theorem rowsEach_congr
    {lefts rights : List (Node τ)}
    (each : List.Forall₂
      (fun left right => printer.rows left = printer.rows right)
      lefts rights) :
    printer.rowsEach lefts = printer.rowsEach rights := by
  induction each with
  | nil =>
      rfl
  | cons first _ inductionHypothesis =>
      rw [rowsEach, rowsEach, first, inductionHypothesis]

theorem rows_eq_of_alike
    {left right : Node τ} (alike : left.Alike Value.DisplaysAs right) :
    printer.rows left = printer.rows right := by
  refine alike.pairwise ?_ ?_
  · intro tag left right related
    rw [rows, rows, caption_eq_of_displaysAs related]
  · intro tag lefts rights each
    rw [rows, rows, rowsEach_congr each]

theorem exists_print_eq_iff_alike
    (tells : printer.TellsApart) {left right : Node τ}
    (leftFits : ∀ part ∈ left.parts, printer.FitsLine part.2)
    (rightFits : ∀ part ∈ right.parts, printer.FitsLine part.2) :
    ∃ leftText rightText, printer.print left = .ok leftText ∧
      printer.print right = .ok rightText ∧
      (leftText = rightText ↔ left.Alike Value.DisplaysAs right) := by
  obtain ⟨leftText, leftPrinted, leftSpelled, leftLines⟩ :=
    linesOf_print leftFits
  obtain ⟨rightText, rightPrinted, rightSpelled, rightLines⟩ :=
    linesOf_print rightFits
  refine ⟨leftText, rightText, leftPrinted, rightPrinted, ?_, ?_⟩
  · rintro rfl
    have words : printer.words left ++ [] = printer.words right ++ [] := by
      rw [← map_dropWhile_line, ← leftLines, rightLines, map_dropWhile_line]
    exact (readsBack tells leftFits right [] [] rightFits words).1
  · intro alike
    rw [rows_eq_of_alike alike, ← rightSpelled] at leftSpelled
    exact String.toList_inj.mp (List.append_cancel_right leftSpelled)

/-- Two trees are printed as the same text just if they have the same shape, the
same tags and values that display the same. So the text of a tree tells its content,
but for the kinds of its values. -/
theorem print_eq_iff_alike
    [DecidableEq τ] (tells : printer.TellsApart) {left right : Node τ}
    (leftFits : ∀ part ∈ left.parts, printer.FitsLine part.2)
    (rightFits : ∀ part ∈ right.parts, printer.FitsLine part.2) :
    ∃ leftText rightText, printer.print left = .ok leftText ∧
      printer.print right = .ok rightText ∧
      (leftText = rightText ↔ left.Alike Value.DisplaysAs right) ∧
      (left.same right = .ok true ↔
        leftText = rightText ∧
          left.Alike (fun left right => left.kind = right.kind) right) := by
  obtain ⟨leftText, rightText, leftPrinted, rightPrinted, alike⟩ :=
    exists_print_eq_iff_alike tells leftFits rightFits
  refine ⟨leftText, rightText, leftPrinted, rightPrinted, alike, ?_⟩
  rw [Node.same_eq_ok_true_iff, alike]

/-- A number and the text of its digits beside a text with parentheses, with no
blanks for the levels. -/
theorem print_eq_iff_alike_of_digits :
    let printer : Printer Bool :=
      { label := fun atom => if atom then "Int" else "List", indent := 0 }
    let behind : Node Bool := .atom true (.text (.ofString ") (Int"))
    let left := Node.branch false [.atom true (.integer 1), behind]
    let right :=
      Node.branch false [.atom true (.text (.ofString "1")), behind]
    printer.TellsApart ∧
      (∀ part ∈ left.parts, printer.FitsLine part.2) ∧
      (∀ part ∈ right.parts, printer.FitsLine part.2) ∧
      printer.print left = .ok "(List\n(Int 1)\n(Int ) (Int)\n)" ∧
      printer.print right = printer.print left ∧
      left.Alike Value.DisplaysAs right ∧
      ¬ left.Alike (fun left right => left.kind = right.kind) right := by
  intro printer behind left right
  have labels : ∀ tag other : Bool,
      printer.label tag = printer.label other → tag = other := by decide
  have tells : printer.TellsApart :=
    ⟨by decide, fun tag other => labels tag other⟩
  have atomFits (value : Value) (shown : String)
      (displayed : value.display = .ok shown) (single : '\n' ∉ shown.toList) :
      printer.FitsLine (.atom true value) :=
    ⟨(by decide : '\n' ∉ "Int".toList), fun other held =>
      ⟨shown, Option.some.inj held ▸ displayed, single⟩⟩
  have fits (value : Value) (displayed : value.display = .ok "1") :
      ∀ part ∈ (Node.branch false [.atom true value, behind]).parts,
        printer.FitsLine part.2 := by
    have parts :
        (Node.branch false [.atom true value, behind]).parts =
          [(0, .branch false [.atom true value, behind]),
            (1, .atom true value), (1, behind)] := rfl
    rw [parts, List.forall_mem_cons, List.forall_mem_cons,
      List.forall_mem_singleton]
    refine ⟨⟨(by decide : '\n' ∉ "List".toList), ?_⟩,
      atomFits value "1" displayed (by decide), ?_⟩
    · rintro other ⟨⟩
    · exact atomFits _ ") (Int" (by decide +kernel) (by decide)
  have leftFits := fits (.integer 1) (by decide +kernel)
  have rightFits := fits (.text (.ofString "1")) (by decide +kernel)
  have leftPrinted :
      printer.print left = .ok "(List\n(Int 1)\n(Int ) (Int)\n)" := by
    decide +kernel
  have rightPrinted :
      printer.print right = .ok "(List\n(Int 1)\n(Int ) (Int)\n)" := by
    decide +kernel
  have differ : left.same right = .ok false := by decide +kernel
  obtain ⟨leftText, rightText, leftIs, rightIs, alike, same⟩ :=
    print_eq_iff_alike tells leftFits rightFits
  have equal : leftText = rightText := by
    rw [leftPrinted] at leftIs
    rw [rightPrinted] at rightIs
    exact Except.ok.inj (leftIs.symm.trans rightIs)
  refine ⟨tells, leftFits, rightFits, leftPrinted,
    rightPrinted.trans leftPrinted.symm, alike.mp equal, ?_⟩
  intro kinds
  rw [same.mpr ⟨equal, kinds⟩] at differ
  contradiction

end TextGrammar.Printer
