import TextGrammar.Node.Printer

/-!
Trees that can be printed. Only a text that cannot be read keeps a tree from
being printed. The main statement is `exists_print`.
-/

namespace TextGrammar

variable {τ : Type}

/-- Every value in the tree can be shown. -/
inductive Node.Readable : Node τ → Prop where
  | atom {tag : τ} {value : Value} {shown : String} :
      value.display = .ok shown → Readable (.atom tag value)
  | branch {tag : τ} {children : List (Node τ)} :
      (∀ child ∈ children, Readable child) →
        Readable (.branch tag children)

namespace Printer

private theorem exists_printEach
    {printer : Printer τ} {nodes : List (Node τ)}
    (each : ∀ node ∈ nodes, ∀ depth,
      ∃ shown, printer.printAt depth node = .ok shown)
    (depth : Nat) :
    ∃ lines, printer.printEach depth nodes = .ok lines := by
  induction nodes with
  | nil =>
      exact ⟨"", rfl⟩
  | cons node nodes inductionHypothesis =>
      have ⟨nodePrints, nodesPrint⟩ := List.forall_mem_cons.mp each
      obtain ⟨first, firstPrinted⟩ := nodePrints depth
      obtain ⟨others, othersPrinted⟩ := inductionHypothesis nodesPrint
      rw [printEach, firstPrinted, othersPrinted]
      exact ⟨_, rfl⟩

theorem exists_printAt
    (printer : Printer τ) {node : Node τ} (readable : node.Readable)
    (depth : Nat) :
    ∃ shown, printer.printAt depth node = .ok shown := by
  induction readable generalizing depth with
  | atom displayed =>
      rw [printAt, displayed]
      exact ⟨_, rfl⟩
  | branch _ inductionHypothesis =>
      obtain ⟨lines, printed⟩ :=
        exists_printEach inductionHypothesis (depth + 1)
      rw [printAt, printed]
      exact ⟨_, rfl⟩

theorem exists_print
    (printer : Printer τ) {node : Node τ} (readable : node.Readable) :
    ∃ shown, printer.print node = .ok shown :=
  printer.exists_printAt readable 0

end Printer

end TextGrammar
