import Mathlib.Algebra.BigOperators.Ring.List
import Mathlib.Algebra.Ring.Nat
import Mathlib.Data.List.Forall2
import TextGrammar.Node.Printer
import TextGrammar.Proofs.Node.Parts

/-!
The lines of a printed tree. An atom is one line, and a branch has a line where it
opens and one where it closes; in front of the line stand the blanks of the depth
alone, so the text of a branch is made of the texts of its children, each moved to
the right by one level. The main statement is `print_composes`.
-/

namespace TextGrammar

variable {τ : Type}

def linesOf (text : String) : List (List Char) :=
  text.toList.splitOn '\n'

def unlines (lines : List (List Char)) : List Char :=
  lines.flatMap (· ++ ['\n'])

/-- The text with blanks put in front of each of its lines. -/
def shifted (width : Nat) (text : String) : String :=
  String.ofList <| ['\n'].intercalate <|
    (linesOf text).map (List.replicate width ' ' ++ ·)

theorem unlines_append
    (first second : List (List Char)) :
    unlines (first ++ second) = unlines first ++ unlines second :=
  List.flatMap_append

theorem unlines_cons
    (line : List Char) (lines : List (List Char)) :
    unlines (line :: lines) = line ++ '\n' :: unlines lines := by
  rw [unlines, List.flatMap_cons, List.append_assoc]
  rfl

private theorem intercalate_append_newline
    {lines : List (List Char)} (nonempty : lines ≠ []) :
    ['\n'].intercalate lines ++ ['\n'] = unlines lines := by
  induction lines with
  | nil =>
      contradiction
  | cons line lines inductionHypothesis =>
      cases lines with
      | nil =>
          rw [List.intercalate_singleton, unlines_cons]
          rfl
      | cons next lines =>
          rw [List.intercalate_cons_cons, List.append_assoc, List.append_assoc,
            inductionHypothesis (List.cons_ne_nil next lines),
            unlines_cons line]
          rfl

/-- The lines of a text are read off the text with a newline behind it. -/
theorem linesOf_of_unlines
    {text : String} {lines : List (List Char)}
    (single : ∀ line ∈ lines, '\n' ∉ line)
    (ended : text.toList ++ ['\n'] = unlines lines) :
    linesOf text = lines := by
  have nonempty : lines ≠ [] := by
    rintro rfl
    exact List.append_ne_nil_of_right_ne_nil _ (List.cons_ne_nil _ _) ended
  rw [← intercalate_append_newline nonempty] at ended
  rw [linesOf, List.append_cancel_right ended]
  exact List.splitOn_intercalate '\n' single nonempty

theorem toList_shifted
    (width : Nat) (text : String) :
    (shifted width text).toList ++ ['\n'] =
      unlines ((linesOf text).map (List.replicate width ' ' ++ ·)) := by
  rw [shifted, String.toList_ofList]
  apply intercalate_append_newline
  rw [ne_eq, List.map_eq_nil_iff]
  exact List.splitOn_ne_nil _ _

/-! ## The lines of a tree -/

/-- What a value displays; nothing for a text that cannot be read. -/
def Value.caption (value : Value) : String :=
  value.display.toOption.getD ""

namespace Printer

/-- The label of a node and what its value displays, if it has one, have no
newline. -/
structure FitsLine (printer : Printer τ) (node : Node τ) : Prop where
  label : '\n' ∉ (printer.label node.tag).toList
  value : ∀ value ∈ node.value?, ∃ shown, value.display = .ok shown ∧
    '\n' ∉ shown.toList

mutual

/-- The lines of a tree without the blanks in front of them, each with its
depth. -/
def rows (printer : Printer τ) : Node τ → List (Nat × List Char)
  | .atom tag value =>
      [(0, ("(" ++ printer.label tag ++ " " ++ value.caption ++ ")").toList)]
  | .branch tag children =>
      (0, ("(" ++ printer.label tag).toList) ::
        (rowsEach printer children ++ [(0, [')'])])

def rowsEach (printer : Printer τ) : List (Node τ) → List (Nat × List Char)
  | [] => []
  | node :: nodes =>
      (rows printer node).map (Prod.map (· + 1) id) ++ rowsEach printer nodes

end

def line (printer : Printer τ) (depth : Nat) (row : Nat × List Char) :
    List Char :=
  List.replicate ((depth + row.1) * printer.indent) ' ' ++ row.2

section

variable {printer : Printer τ} {node : Node τ}

private theorem toList_pad
    (printer : Printer τ) (depth : Nat) :
    (printer.pad depth).toList =
      List.replicate (depth * printer.indent) ' ' := by
  rw [pad, String.toList_ofList]

/-- One level deeper a line moves to the right by the blanks of one level. -/
theorem line_below
    (printer : Printer τ) (depth : Nat) (row : Nat × List Char) :
    printer.line depth (row.1 + 1, row.2) =
      List.replicate printer.indent ' ' ++ printer.line depth row := by
  have blanks :
      (depth + (row.1 + 1)) * printer.indent =
        printer.indent + (depth + row.1) * printer.indent := by
    rw [← Nat.add_assoc, Nat.succ_mul, Nat.add_comm]
  rw [line, line, blanks, ← List.replicate_append_replicate, List.append_assoc]

theorem rowsEach_eq_flatMap
    (printer : Printer τ) (nodes : List (Node τ)) :
    printer.rowsEach nodes =
      nodes.flatMap fun node =>
        (printer.rows node).map (Prod.map (· + 1) id) := by
  induction nodes with
  | nil =>
      rfl
  | cons node nodes inductionHypothesis =>
      rw [rowsEach, inductionHypothesis, List.flatMap_cons]

theorem FitsLine.exists_caption
    (fits : printer.FitsLine node) {value : Value}
    (held : node.value? = some value) :
    value.display = .ok value.caption ∧ '\n' ∉ value.caption.toList := by
  obtain ⟨shown, displayed, single⟩ := fits.value value held
  have same : value.caption = shown := by
    rw [Value.caption, displayed]
    rfl
  rw [same]
  exact ⟨displayed, single⟩

private theorem toList_printEach
    {nodes : List (Node τ)} {depth : Nat}
    (each : ∀ node ∈ nodes, ∃ shown,
      printer.printAt (depth + 1) node = .ok shown ∧
        (printer.pad (depth + 1)).toList ++ shown.toList ++ ['\n'] =
          unlines ((printer.rows node).map (printer.line (depth + 1)))) :
    ∃ shown, printer.printEach (depth + 1) nodes = .ok shown ∧
      shown.toList =
        unlines ((printer.rowsEach nodes).map (printer.line depth)) := by
  induction nodes with
  | nil =>
      exact ⟨"", rfl, rfl⟩
  | cons node nodes inductionHypothesis =>
      obtain ⟨⟨first, firstPrinted, firstSpelled⟩, others⟩ :=
        List.forall_mem_cons.mp each
      obtain ⟨rest, restPrinted, restSpelled⟩ := inductionHypothesis others
      have deeper :
          printer.line depth ∘ Prod.map (· + 1) id =
            printer.line (depth + 1) := by
        funext row
        rw [Function.comp_apply, line, line, Prod.map_fst, Prod.map_snd,
          Nat.add_right_comm, Nat.add_assoc]
        rfl
      refine ⟨printer.pad (depth + 1) ++ first ++ "\n" ++ rest, ?_, ?_⟩
      · rw [printEach, firstPrinted, restPrinted]
        rfl
      · rw [rowsEach, List.map_append, List.map_map, deeper, unlines_append,
          ← firstSpelled, ← restSpelled]
        simp

/-- A tree is printed as its lines. -/
theorem toList_printAt
    (fits : ∀ part ∈ node.parts, printer.FitsLine part.2) (depth : Nat) :
    ∃ shown, printer.printAt depth node = .ok shown ∧
      (printer.pad depth).toList ++ shown.toList ++ ['\n'] =
        unlines ((printer.rows node).map (printer.line depth)) := by
  induction node generalizing depth with
  | atom tag value =>
      obtain ⟨displayed, _⟩ :=
        (fits _ (Node.self_mem_parts _)).exists_caption rfl
      refine
        ⟨"(" ++ printer.label tag ++ " " ++ value.caption ++ ")", ?_, ?_⟩
      · rw [printAt, displayed]
        rfl
      · rw [rows, List.map_singleton, unlines_cons, line, toList_pad]
        rfl
  | branch tag children inductionHypothesis =>
      obtain ⟨lines, printed, spelled⟩ := toList_printEach
        fun child member =>
          inductionHypothesis child member
            (Node.forall_parts_of_child fits member) (depth + 1)
      refine
        ⟨"(" ++ printer.label tag ++ "\n" ++ lines ++ printer.pad depth ++ ")",
          ?_, ?_⟩
      · rw [printAt, printed]
        rfl
      · rw [rows, List.map_cons, List.map_append, unlines_cons, unlines_append,
          ← spelled, List.map_singleton, unlines_cons, line, line]
        simp [toList_pad, unlines]

theorem newline_not_mem_rows
    (fits : ∀ part ∈ node.parts, printer.FitsLine part.2) :
    ∀ row ∈ printer.rows node, '\n' ∉ row.2 := by
  induction node with
  | atom tag value =>
      have fitsSelf := fits _ (Node.self_mem_parts _)
      obtain ⟨_, single⟩ := fitsSelf.exists_caption rfl
      have label := fitsSelf.label
      rw [Node.tag] at label
      rw [rows, List.forall_mem_singleton]
      simp [label, single]
  | branch tag children inductionHypothesis =>
      have label := (fits _ (Node.self_mem_parts _)).label
      rw [Node.tag] at label
      rw [rows, List.forall_mem_cons, List.forall_mem_append,
        List.forall_mem_singleton]
      refine ⟨by simp [label], ?_, by decide⟩
      rw [rowsEach_eq_flatMap, List.forall_mem_flatMap]
      intro child member
      rw [List.forall_mem_map]
      exact inductionHypothesis child member
        (Node.forall_parts_of_child fits member)

private theorem newline_not_mem_line
    (depth : Nat) {row : Nat × List Char} (single : '\n' ∉ row.2) :
    '\n' ∉ printer.line depth row := by
  rw [line, List.mem_append, List.mem_replicate]
  simp [single]

/-- A tree without newlines of its own is printed, and its lines are known. -/
theorem linesOf_print
    (fits : ∀ part ∈ node.parts, printer.FitsLine part.2) :
    ∃ text, printer.print node = .ok text ∧
      text.toList ++ ['\n'] =
        unlines ((printer.rows node).map (printer.line 0)) ∧
      linesOf text = (printer.rows node).map (printer.line 0) := by
  obtain ⟨text, printed, spelled⟩ := toList_printAt fits 0
  rw [toList_pad, Nat.zero_mul, List.replicate_zero, List.nil_append]
    at spelled
  refine ⟨text, printed, spelled, linesOf_of_unlines ?_ spelled⟩
  rw [List.forall_mem_map]
  intro row member
  exact newline_not_mem_line 0 (newline_not_mem_rows fits row member)

/-- The lines of some children of a tree are those of the children alone, moved to
the right by one level. -/
theorem unlines_rowsEach
    {nodes : List (Node τ)}
    (fits : ∀ node ∈ nodes, ∀ part ∈ node.parts, printer.FitsLine part.2) :
    ∃ texts, List.Forall₂ (fun node own => printer.print node = .ok own)
        nodes texts ∧
      unlines ((printer.rowsEach nodes).map (printer.line 0)) =
        (String.join
          (texts.map fun own => shifted printer.indent own ++ "\n")).toList := by
  induction nodes with
  | nil =>
      exact ⟨[], .nil, rfl⟩
  | cons node nodes inductionHypothesis =>
      obtain ⟨nodeFits, othersFit⟩ := List.forall_mem_cons.mp fits
      obtain ⟨own, printed, _, lines⟩ := linesOf_print nodeFits
      obtain ⟨texts, each, joined⟩ := inductionHypothesis othersFit
      have moved :
          ((printer.rows node).map (Prod.map (· + 1) id)).map (printer.line 0) =
            (linesOf own).map (List.replicate printer.indent ' ' ++ ·) := by
        rw [lines, List.map_map, List.map_map]
        exact List.map_congr_left fun row _ => printer.line_below 0 row
      refine ⟨own :: texts, .cons printed each, ?_⟩
      rw [rowsEach, List.map_append, unlines_append, moved, ← toList_shifted,
        joined]
      simp

/-- An atom is one line, and a branch has two lines beside those of its
children. -/
theorem length_rows
    (printer : Printer τ) (node : Node τ) :
    (printer.rows node).length = node.atomCount + 2 * node.branchCount := by
  induction node with
  | atom tag value =>
      rfl
  | branch tag children inductionHypothesis =>
      have below :
          (printer.rowsEach children).length =
            (children.map Node.atomCount).sum +
              2 * (children.map Node.branchCount).sum := by
        simp only [rowsEach_eq_flatMap, List.length_flatMap, List.length_map]
        rw [List.map_congr_left inductionHypothesis, List.sum_map_add,
          List.sum_map_mul_left]
      rw [rows, List.length_cons, List.length_append, below,
        Node.atomCount_branch, Node.branchCount_branch, List.length_singleton]
      omega

private theorem rows_infix_rowsEach
    {nodes : List (Node τ)} (member : node ∈ nodes) :
    (printer.rows node).map (Prod.map (· + 1) id) <:+:
      printer.rowsEach nodes := by
  rw [rowsEach_eq_flatMap, List.flatMap_def]
  exact List.infix_of_mem_flatten (List.mem_map_of_mem member)

/-- The lines of a part stand together, moved down by its depth. -/
theorem rows_infix_of_mem_parts
    (printer : Printer τ) {depth : Nat} {part : Node τ}
    (member : (depth, part) ∈ node.parts) :
    (printer.rows part).map (Prod.map (· + depth) id) <:+:
      printer.rows node := by
  induction node generalizing depth with
  | atom tag value =>
      obtain ⟨rfl, rfl⟩ := Prod.mk.inj (List.mem_singleton.mp member)
      exact List.infix_rfl
  | branch tag children inductionHypothesis =>
      rcases Node.mem_parts_branch_iff.mp member with
        ⟨rfl, rfl⟩ | ⟨child, isChild, inner, rfl, found⟩
      · have unmoved :
            ((printer.rows (.branch tag children)).map
                (Prod.map (· + 0) id)) =
              printer.rows (.branch tag children) := List.map_id _
        exact ⟨[], [], by rw [unmoved, List.nil_append, List.append_nil]⟩
      · have inChild := (inductionHypothesis child isChild found).map
          (Prod.map (· + 1) id)
        rw [List.map_map] at inChild
        have inEach := inChild.trans (rows_infix_rowsEach isChild)
        rw [rows]
        exact inEach.trans ⟨[_], [_], rfl⟩

private theorem lines_infix_of_mem_parts
    (printer : Printer τ) {depth : Nat} {part : Node τ}
    (member : (depth, part) ∈ node.parts) :
    (printer.rows part).map (printer.line depth) <:+:
      (printer.rows node).map (printer.line 0) := by
  have found := (printer.rows_infix_of_mem_parts member).map (printer.line 0)
  have moved :
      printer.line 0 ∘ Prod.map (· + depth) id = printer.line depth := by
    funext row
    rw [Function.comp_apply, line, line, Prod.map_fst, Prod.map_snd,
      Nat.zero_add, Nat.add_comm]
    rfl
  rwa [List.map_map, moved] at found

end

/-- The text of a branch is a line for its label, the texts of its children in
order, each with its lines moved to the right by one level, and a closing
parenthesis. So a tree has one line for every atom and two for every branch, and
the lines that belong to a part stand behind the blanks of just its depth. -/
theorem print_composes
    (printer : Printer τ) {node : Node τ}
    (fits : ∀ part ∈ node.parts, printer.FitsLine part.2) :
    ∃ text, printer.print node = .ok text ∧
      (∀ tag children, node = .branch tag children →
        ∃ texts,
          List.Forall₂ (fun child own => printer.print child = .ok own)
            children texts ∧
          text = "(" ++ printer.label tag ++ "\n" ++
            String.join
              (texts.map fun own => shifted printer.indent own ++ "\n") ++
            ")") ∧
      (linesOf text).length = node.atomCount + 2 * node.branchCount ∧
      (∀ depth tag value, (depth, .atom tag value) ∈ node.parts →
        ∃ shown, value.display = .ok shown ∧
          [List.replicate (depth * printer.indent) ' ' ++
            ("(" ++ printer.label tag ++ " " ++ shown ++ ")").toList] <:+:
              linesOf text) ∧
      ∀ depth tag children, (depth, .branch tag children) ∈ node.parts →
        ∃ inside,
          inside.length + 2 =
            (Node.branch tag children).atomCount +
              2 * (Node.branch tag children).branchCount ∧
          (List.replicate (depth * printer.indent) ' ' ++
              ("(" ++ printer.label tag).toList) :: (inside ++
            [List.replicate (depth * printer.indent) ' ' ++ [')']]) <:+:
              linesOf text := by
  obtain ⟨text, printed, spelled, lines⟩ := linesOf_print fits
  refine ⟨text, printed, ?_, ?_, ?_, ?_⟩
  · rintro tag children rfl
    obtain ⟨texts, each, joined⟩ := unlines_rowsEach fun child member =>
      Node.forall_parts_of_child fits member
    refine ⟨texts, each, ?_⟩
    have ended :
        text.toList ++ ['\n'] =
          ("(" ++ printer.label tag ++ "\n" ++
            String.join
              (texts.map fun own => shifted printer.indent own ++ "\n") ++
            ")").toList ++ ['\n'] := by
      rw [spelled, rows, List.map_cons, List.map_append, unlines_cons,
        unlines_append, joined]
      simp [line, unlines]
    exact String.toList_inj.mp (List.append_cancel_right ended)
  · rw [lines, List.length_map, length_rows]
  · intro depth tag value member
    obtain ⟨displayed, _⟩ := (fits _ member).exists_caption rfl
    have found := printer.lines_infix_of_mem_parts member
    rw [← lines] at found
    refine ⟨value.caption, displayed, ?_⟩
    simpa [rows, line] using found
  · intro depth tag children member
    have found := printer.lines_infix_of_mem_parts member
    rw [← lines, rows, List.map_cons, List.map_append] at found
    refine ⟨(printer.rowsEach children).map (printer.line depth), ?_, ?_⟩
    · rw [← printer.length_rows, rows]
      simp
    · simpa [line] using found

/-- An atom and an empty branch, three blanks for each level. -/
theorem print_composes_around_empty_branch :
    let printer : Printer String := { label := id, indent := 3 }
    let children : List (Node String) :=
      [.atom "Int" (.integer 2), .branch "Empty" []]
    let node := Node.branch "List" children
    (∀ part ∈ node.parts, printer.FitsLine part.2) ∧
      printer.print node =
        .ok "(List\n   (Int 2)\n   (Empty\n   )\n)" ∧
      ∃ text, printer.print node = .ok text ∧
        (linesOf text).length = 5 ∧
        ∃ inside, inside.length = 0 ∧
          "   (Empty".toList :: (inside ++ ["   )".toList]) <:+:
            linesOf text := by
  intro printer children node
  have fits : ∀ part ∈ node.parts, printer.FitsLine part.2 := by
    have parts :
        node.parts = [(0, node), (1, .atom "Int" (.integer 2)),
          (1, .branch "Empty" [])] := rfl
    rw [parts, List.forall_mem_cons, List.forall_mem_cons,
      List.forall_mem_singleton]
    refine ⟨⟨by decide, ?_⟩, ⟨by decide, ?_⟩, ⟨by decide, ?_⟩⟩
    · rintro value ⟨⟩
    · rintro value ⟨⟩
      exact ⟨"2", rfl, by decide⟩
    · rintro value ⟨⟩
  obtain ⟨text, printed, _, count, _, branches⟩ := printer.print_composes fits
  obtain ⟨inside, length, found⟩ :=
    branches 1 "Empty" [] (by simp [node, children, Node.parts, Node.partsEach])
  have opening :
      List.replicate (1 * printer.indent) ' ' ++
        ("(" ++ printer.label "Empty").toList = "   (Empty".toList := by
    decide +kernel
  have closing :
      List.replicate (1 * printer.indent) ' ' ++ [')'] = "   )".toList := by
    decide +kernel
  rw [opening, closing] at found
  refine ⟨fits, by decide +kernel, text, printed, count, inside, ?_, found⟩
  exact Nat.add_right_cancel length

end Printer

end TextGrammar
