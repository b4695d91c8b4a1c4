import TextGrammar.Proofs.Node.Printing
import TextGrammar.Proofs.Node.Unambiguous
import TextGrammar.Proofs.PluralRule.Tree

/-!
Trees of rules as texts. Every value in such a tree is shown within a line, and the
tag of an atom tells the kind of its value, so that the text of a tree tells all of
its content. The main statement is `print_eq_iff_same`.
-/

namespace TextGrammar.PluralRule

def Tag.kind : Tag → Value.Kind
  | modulus | integer => .integer
  | _ => .text

/-- Every value in the tree can be shown within a line, and is of the kind of its
tag. -/
inductive Legible : Node Tag → Prop where
  | atom {tag : Tag} {value : Value} {shown : String} :
      value.display = .ok shown → '\n' ∉ shown.toList →
        value.kind = tag.kind → Legible (.atom tag value)
  | branch {tag : Tag} {children : List (Node Tag)} :
      (∀ child ∈ children, Legible child) → Legible (.branch tag children)

private theorem HasWord.legible
    {tag : Tag} {word : String} {node : Node Tag}
    (shown : HasWord tag word node) (single : '\n' ∉ word.toList)
    (words : tag.kind = .text) : Legible node := by
  obtain ⟨text, rfl, readable⟩ := shown
  have displayed := Slice.text_of_chars? readable
  rw [String.ofList_toList] at displayed
  exact .atom displayed single words.symm

private theorem legible_integer
    (tag : Tag) (value : UInt64) (numbers : tag.kind = .integer) :
    Legible (.atom tag (.integer value)) := by
  refine .atom rfl ?_ numbers.symm
  intro newline
  have spelled :
      toString value.toNat =
        String.ofList (Nat.toDigits 10 value.toNat) :=
    Nat.repr_eq_ofList_toDigits
  rw [spelled, String.toList_ofList] at newline
  have digit :=
    Nat.isDigit_of_mem_toDigits (by decide) (by decide) newline
  contradiction

private theorem Span.legible_tree
    (span : Span) : Legible span.tree := by
  cases span with
  | single value =>
      exact legible_integer .integer value rfl
  | between low high =>
      exact .branch <| List.forall_mem_cons.mpr
        ⟨legible_integer .integer low rfl,
          List.forall_mem_singleton.mpr (legible_integer .integer high rfl)⟩

private theorem legible_of_mem_modulusTrees
    {modulus : Option UInt64} {node : Node Tag}
    (member : node ∈ modulusTrees modulus) : Legible node := by
  cases modulus with
  | none =>
      contradiction
  | some value =>
      rw [List.mem_singleton.mp member]
      exact legible_integer .modulus value rfl

private theorem newline_not_mem_operand
    {c : Char} (member : c ∈ operands) :
    '\n' ∉ (String.singleton c).toList := by
  rw [String.toList_singleton, List.mem_singleton]
  rintro rfl
  exact absurd member (by decide)

private theorem Relation.newline_not_mem_word
    (relation : Relation) : '\n' ∉ relation.word.toList := by
  cases relation <;> decide

private theorem Connective.newline_not_mem_word
    (connective : Connective) : '\n' ∉ connective.word.toList := by
  cases connective <;> decide

theorem Condition.ShownBy.legible
    {condition : Condition} {node : Node Tag}
    (shown : condition.ShownBy node) : Legible node := by
  obtain ⟨left, sign, leftShown, signShown, rfl⟩ := shown
  have ranges :
      Legible (.branch .ranges (condition.spans.map Span.tree)) := by
    apply Legible.branch
    rw [List.forall_mem_map]
    exact fun span _ => span.legible_tree
  apply Legible.branch
  rw [List.forall_mem_append, List.forall_mem_append,
    List.forall_mem_singleton, List.forall_mem_cons,
    List.forall_mem_singleton]
  refine ⟨⟨?_, fun _ => legible_of_mem_modulusTrees⟩, ?_, ranges⟩
  · exact leftShown.legible
      (newline_not_mem_operand condition.operand_mem) rfl
  · exact signShown.legible condition.relation.newline_not_mem_word rfl

private theorem legible_of_shownByPair
    {further : Connective × Condition} {pair : List (Node Tag)}
    (shown : ShownByPair further pair) : ∀ node ∈ pair, Legible node := by
  obtain ⟨connective, next, connectiveShown, nextShown, rfl⟩ := shown
  exact List.forall_mem_cons.mpr
    ⟨connectiveShown.legible further.1.newline_not_mem_word rfl,
      List.forall_mem_singleton.mpr nextShown.legible⟩

private theorem legible_of_shownByPairs
    {further : List (Connective × Condition)}
    {pairs : List (List (Node Tag))}
    (shown : List.Forall₂ ShownByPair further pairs) :
    ∀ node ∈ pairs.flatten, Legible node := by
  induction shown with
  | nil =>
      exact List.forall_mem_nil _
  | cons first _ inductionHypothesis =>
      rw [List.flatten_cons, List.forall_mem_append]
      exact ⟨legible_of_shownByPair first, inductionHypothesis⟩

theorem WellShaped.legible
    {node : Node Tag} (shaped : WellShaped node) : Legible node := by
  obtain ⟨rule, first, pairs, firstShown, pairsShown, rfl⟩ := shaped
  exact .branch <| List.forall_mem_cons.mpr
    ⟨firstShown.legible, legible_of_shownByPairs pairsShown⟩

theorem Legible.readable
    {node : Node Tag} (legible : Legible node) : node.Readable := by
  induction legible with
  | atom displayed _ _ =>
      exact .atom displayed
  | branch _ inductionHypothesis =>
      exact .branch inductionHypothesis

theorem WellShaped.readable
    {node : Node Tag} (shaped : WellShaped node) : node.Readable :=
  shaped.legible.readable

private theorem newline_not_mem_label
    (tag : Tag) : '\n' ∉ (printer.label tag).toList := by
  cases tag <;> decide

theorem Legible.fitsLine
    {node : Node Tag} (legible : Legible node) :
    ∀ part ∈ node.parts, printer.FitsLine part.2 := by
  induction legible with
  | @atom tag value shown displayed single _ =>
      rw [Node.parts, List.forall_mem_singleton]
      refine ⟨newline_not_mem_label tag, ?_⟩
      rintro _ ⟨⟩
      exact ⟨shown, displayed, single⟩
  | @branch tag children _ inductionHypothesis =>
      rintro ⟨depth, part⟩ member
      rcases Node.mem_parts_branch_iff.mp member with
        ⟨_, rfl⟩ | ⟨child, isChild, inner, _, found⟩
      · refine ⟨newline_not_mem_label tag, ?_⟩
        rintro value ⟨⟩
      · exact inductionHypothesis child isChild (inner, part) found

theorem tellsApart_printer : printer.TellsApart := by
  constructor
  · intro tag
    cases tag <;> decide
  · intro left right labels
    cases left <;> cases right <;> first | rfl | contradiction

/-- Values at one place are of one kind. -/
theorem alike_kind_of_legible
    {values : Value → Value → Prop} {left right : Node Tag}
    (alike : left.Alike values right)
    (leftLegible : Legible left) (rightLegible : Legible right) :
    left.Alike (fun left right => left.kind = right.kind) right := by
  revert leftLegible rightLegible
  refine alike.pairwise ?_ ?_
  · rintro tag left right _ (⟨_, _, leftKind⟩ | _) (⟨_, _, rightKind⟩ | _)
    exact .atom (leftKind.trans rightKind.symm)
  · rintro tag lefts rights each (_ | leftsLegible) (_ | rightsLegible)
    exact .branch (Node.forall₂_of_mem
      (fun left leftMember right rightMember kinds =>
        kinds (leftsLegible left leftMember) (rightsLegible right rightMember))
      each)

/-- Trees of rules are printed as the same text just if they have the same
content. -/
theorem print_eq_iff_same
    {left right : Node Tag} (leftShaped : WellShaped left)
    (rightShaped : WellShaped right) :
    printer.print left = printer.print right ↔ Same left right := by
  obtain ⟨leftText, rightText, leftPrinted, rightPrinted, alike⟩ :=
    Printer.exists_print_eq_iff_alike tellsApart_printer
      leftShaped.legible.fitsLine rightShaped.legible.fitsLine
  rw [leftPrinted, rightPrinted, Except.ok.injEq, alike, Same,
    Node.same_eq_ok_true_iff]
  constructor
  · intro shown
    have kinds :=
      alike_kind_of_legible shown leftShaped.legible rightShaped.legible
    exact ⟨shown, kinds⟩
  · exact And.left

end TextGrammar.PluralRule
