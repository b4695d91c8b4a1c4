import TextGrammar.Proofs.Node.Alike
import TextGrammar.Proofs.Node.Printing
import TextGrammar.Proofs.Slice.Reading

/-!
The content of a tree: the tree with the text itself in place of every slice, so
that nothing is left of buffers and offsets. A tree has a content just if it can be
printed. The main statement is `same_decides_content_eq`: comparing two such trees
always gives an answer, and it tells whether their contents are one and the same tree.
-/

namespace TextGrammar

/-- The answer is given, and it is yes just if the statement holds. -/
def Decides (answer : Except Fault Bool) (holds : Prop) : Prop :=
  ∃ agreed, answer = .ok agreed ∧ (agreed = true ↔ holds)

namespace Decides

variable {answer : Except Fault Bool} {holds : Prop}

theorem yes
    (right : holds) : Decides (.ok true) holds :=
  ⟨true, rfl, iff_of_true rfl right⟩

theorem no
    (wrong : ¬ holds) : Decides (.ok false) holds :=
  ⟨false, rfl, iff_of_false Bool.false_ne_true wrong⟩

theorem congr
    {other : Prop} (decides : Decides answer holds) (same : holds ↔ other) :
    Decides answer other := by
  rwa [← propext same]

/-- One comparison after the other, the second only if the first agrees. -/
theorem andThen
    {next : Except Fault Bool} {nextHolds : Prop}
    (first : Decides answer holds) (second : Decides next nextHolds) :
    Decides (do if ← answer then next else return false)
      (holds ∧ nextHolds) := by
  obtain ⟨agreed, rfl, right⟩ := first
  cases agreed with
  | false =>
      exact no fun both => Bool.false_ne_true (right.mpr both.1)
  | true =>
      exact second.congr (and_iff_right (right.mp rfl)).symm

end Decides

private theorem map_eq_ok_iff
    {α β : Type} {reading : Except Fault α} {use : α → β} {found : β} :
    use <$> reading = .ok found ↔
      ∃ value, reading = .ok value ∧ use value = found := by
  cases reading with
  | error fault =>
      simp [Functor.map, Except.map]
  | ok value =>
      simp [Functor.map, Except.map]

private theorem exists_map_eq_ok_iff
    {α β : Type} {reading : Except Fault α} {use : α → β} :
    (∃ found, use <$> reading = .ok found) ↔ ∃ value, reading = .ok value := by
  simp only [map_eq_ok_iff]
  constructor
  · rintro ⟨_, value, read, _⟩
    exact ⟨value, read⟩
  · rintro ⟨value, read⟩
    exact ⟨use value, value, read, rfl⟩

inductive Value.Content where
  | text (text : String)
  | integer (number : UInt64)
  | character (c : Char)
deriving DecidableEq, Repr

namespace Value

/-- Reads what a value says. Only a text can be unreadable. -/
def content : Value → Except Fault Content
  | text slice => .text <$> slice.text
  | integer number => .ok (.integer number)
  | character c => .ok (.character c)

/-- A value can be read just if it can be shown. -/
theorem exists_content_iff
    {value : Value} :
    (∃ found, value.content = .ok found) ↔
      ∃ shown, value.display = .ok shown := by
  cases value with
  | text slice =>
      exact exists_map_eq_ok_iff
  | integer number =>
      exact iff_of_true ⟨_, rfl⟩ ⟨_, rfl⟩
  | character c =>
      exact iff_of_true ⟨_, rfl⟩ ⟨_, rfl⟩

theorem decides_same
    {left right : Value} {leftContent rightContent : Content}
    (leftRead : left.content = .ok leftContent)
    (rightRead : right.content = .ok rightContent) :
    Decides (left.same right) (leftContent = rightContent) := by
  cases left with
  | text slice =>
      obtain ⟨text, read, rfl⟩ := map_eq_ok_iff.mp leftRead
      cases right with
      | text other =>
          obtain ⟨otherText, otherRead, rfl⟩ := map_eq_ok_iff.mp rightRead
          exact ⟨otherText == text, Slice.sameText_of_texts read otherRead,
            by rw [beq_iff_eq, Content.text.injEq, eq_comm]⟩
      | integer _ | character _ =>
          obtain rfl := Except.ok.inj rightRead
          exact .no (by simp)
  | integer number =>
      obtain rfl := Except.ok.inj leftRead
      cases right with
      | text other =>
          obtain ⟨_, _, rfl⟩ := map_eq_ok_iff.mp rightRead
          exact .no (by simp)
      | integer other =>
          obtain rfl := Except.ok.inj rightRead
          exact ⟨number == other, rfl, by rw [beq_iff_eq, Content.integer.injEq]⟩
      | character _ =>
          obtain rfl := Except.ok.inj rightRead
          exact .no (by simp)
  | character c =>
      obtain rfl := Except.ok.inj leftRead
      cases right with
      | text other =>
          obtain ⟨_, _, rfl⟩ := map_eq_ok_iff.mp rightRead
          exact .no (by simp)
      | integer _ =>
          obtain rfl := Except.ok.inj rightRead
          exact .no (by simp)
      | character d =>
          obtain rfl := Except.ok.inj rightRead
          exact ⟨c == d, rfl, by rw [beq_iff_eq, Content.character.injEq]⟩

/-- The values give the same answers, and give them. -/
structure AnswersAs (left right : Value) : Prop where
  text : ∃ text, left.text? = .ok text ∧ right.text? = .ok text
  integer : left.integer? = right.integer?
  display : left.DisplaysAs right

theorem answersAs_of_same
    {left right : Value} (agreed : left.same right = .ok true) :
    left.AnswersAs right := by
  obtain ⟨shown, kinds⟩ := same_eq_ok_true_iff.mp agreed
  obtain ⟨text, leftShown, rightShown⟩ := shown
  cases left <;> cases right <;> try contradiction
  case text.text slice other =>
    refine ⟨⟨some text, ?_, ?_⟩, rfl, text, leftShown, rightShown⟩
    · exact congrArg (some <$> ·) leftShown
    · exact congrArg (some <$> ·) rightShown
  case integer.integer number other =>
    have same := displaysAs_integer_iff.mp ⟨text, leftShown, rightShown⟩
    exact ⟨⟨none, rfl, rfl⟩, congrArg some same, text, leftShown, rightShown⟩
  case character.character c d =>
    exact ⟨⟨none, rfl, rfl⟩, rfl, text, leftShown, rightShown⟩

end Value

inductive Node.Content (τ : Type) where
  | atom (tag : τ) (value : Value.Content)
  | branch (tag : τ) (children : List (Content τ))
deriving Repr

namespace Node

variable {τ : Type}

mutual

/-- Reads all texts of a tree. -/
def content : Node τ → Except Fault (Content τ)
  | atom tag value => .atom tag <$> value.content
  | branch tag children => .branch tag <$> contentEach children

def contentEach : List (Node τ) → Except Fault (List (Content τ))
  | [] => .ok []
  | node :: nodes => do
      let first ← content node
      (first :: ·) <$> contentEach nodes

end

private theorem contentEach_cons_eq_ok_iff
    {node : Node τ} {nodes : List (Node τ)} {found : List (Content τ)} :
    contentEach (node :: nodes) = .ok found ↔
      ∃ first, node.content = .ok first ∧
        ∃ others, contentEach nodes = .ok others ∧ first :: others = found := by
  rw [contentEach]
  simp only [← map_eq_ok_iff]
  cases node.content with
  | error fault =>
      simp [bind, Except.bind]
  | ok first =>
      simp [bind, Except.bind]

/-- Trees can be read in turn just if each of them can be read. -/
theorem exists_contentEach_iff
    {nodes : List (Node τ)} :
    (∃ found, contentEach nodes = .ok found) ↔
      ∀ node ∈ nodes, ∃ found, node.content = .ok found := by
  induction nodes with
  | nil =>
      exact iff_of_true ⟨[], rfl⟩ (List.forall_mem_nil _)
  | cons node nodes inductionHypothesis =>
      rw [List.forall_mem_cons, ← inductionHypothesis]
      simp only [contentEach_cons_eq_ok_iff]
      constructor
      · rintro ⟨_, first, firstRead, others, othersRead, _⟩
        exact ⟨⟨first, firstRead⟩, others, othersRead⟩
      · rintro ⟨⟨first, firstRead⟩, others, othersRead⟩
        exact ⟨_, first, firstRead, others, othersRead, rfl⟩

/-- A tree can be read just if all of its values can be shown. -/
theorem exists_content_iff
    {node : Node τ} :
    (∃ found, node.content = .ok found) ↔ node.Readable := by
  induction node with
  | atom tag value =>
      rw [content, exists_map_eq_ok_iff, Value.exists_content_iff]
      constructor
      · rintro ⟨shown, displayed⟩
        exact .atom displayed
      · rintro ⟨displayed⟩
        exact ⟨_, displayed⟩
  | branch tag children inductionHypothesis =>
      rw [content, exists_map_eq_ok_iff, exists_contentEach_iff]
      constructor
      · intro each
        exact .branch fun child member =>
          (inductionHypothesis child member).mp (each child member)
      · rintro (_ | each) child member
        exact (inductionHypothesis child member).mpr (each child member)

private theorem length_of_contentEach
    {nodes : List (Node τ)} {found : List (Content τ)}
    (read : contentEach nodes = .ok found) :
    found.length = nodes.length := by
  induction nodes generalizing found with
  | nil =>
      obtain rfl := Except.ok.inj read
      rfl
  | cons node nodes inductionHypothesis =>
      obtain ⟨first, _, others, othersRead, rfl⟩ :=
        contentEach_cons_eq_ok_iff.mp read
      rw [List.length_cons, List.length_cons, inductionHypothesis othersRead]

/-! ## Comparing trees -/

section

variable [DecidableEq τ]

private theorem decides_sameEach
    {lefts rights : List (Node τ)} {leftContents rightContents : List (Content τ)}
    (each : ∀ left ∈ lefts, ∀ right leftContent rightContent,
      left.content = .ok leftContent → right.content = .ok rightContent →
        Decides (left.same right) (leftContent = rightContent))
    (leftsRead : contentEach lefts = .ok leftContents)
    (rightsRead : contentEach rights = .ok rightContents) :
    Decides (sameEach lefts rights) (leftContents = rightContents) := by
  induction lefts generalizing rights leftContents rightContents with
  | nil =>
      obtain rfl := Except.ok.inj leftsRead
      cases rights with
      | nil =>
          obtain rfl := Except.ok.inj rightsRead
          exact .yes rfl
      | cons right rights =>
          obtain ⟨_, _, _, _, rfl⟩ := contentEach_cons_eq_ok_iff.mp rightsRead
          exact .no (by simp)
  | cons left lefts inductionHypothesis =>
      obtain ⟨leftContent, leftRead, leftContents, othersRead, rfl⟩ :=
        contentEach_cons_eq_ok_iff.mp leftsRead
      cases rights with
      | nil =>
          obtain rfl := Except.ok.inj rightsRead
          exact .no (by simp)
      | cons right rights =>
          obtain ⟨rightContent, rightRead, rightContents, behindRead, rfl⟩ :=
            contentEach_cons_eq_ok_iff.mp rightsRead
          have ⟨leftDecides, leftsDecide⟩ := List.forall_mem_cons.mp each
          rw [sameEach, List.cons.injEq]
          exact (leftDecides right _ _ leftRead rightRead).andThen
            (inductionHypothesis leftsDecide othersRead behindRead)

/-- Comparing two trees that can be read tells whether they have the same
content. -/
theorem decides_same
    {left right : Node τ} {leftContent rightContent : Content τ}
    (leftRead : left.content = .ok leftContent)
    (rightRead : right.content = .ok rightContent) :
    Decides (left.same right) (leftContent = rightContent) := by
  induction left generalizing right leftContent rightContent with
  | atom leftTag left =>
      obtain ⟨leftContent, leftValue, rfl⟩ := map_eq_ok_iff.mp leftRead
      cases right with
      | atom rightTag right =>
          obtain ⟨rightContent, rightValue, rfl⟩ := map_eq_ok_iff.mp rightRead
          rw [same, Content.atom.injEq]
          split
          · rename_i tags
            exact (Value.decides_same leftValue rightValue).congr
              (and_iff_right tags).symm
          · rename_i tags
            exact .no fun both => tags both.1
      | branch rightTag rights =>
          obtain ⟨_, _, rfl⟩ := map_eq_ok_iff.mp rightRead
          exact .no (by simp)
  | branch leftTag lefts inductionHypothesis =>
      obtain ⟨leftContents, leftsRead, rfl⟩ := map_eq_ok_iff.mp leftRead
      cases right with
      | atom rightTag right =>
          obtain ⟨_, _, rfl⟩ := map_eq_ok_iff.mp rightRead
          exact .no (by simp)
      | branch rightTag rights =>
          obtain ⟨rightContents, rightsRead, rfl⟩ :=
            map_eq_ok_iff.mp rightRead
          rw [same, Content.branch.injEq]
          split
          · rename_i agreed
            exact (decides_sameEach
              (fun left member right _ _ => inductionHypothesis left member)
              leftsRead rightsRead).congr (and_iff_right agreed.1).symm
          · rename_i disagreed
            refine .no fun both => disagreed ⟨both.1, ?_⟩
            rw [← length_of_contentEach leftsRead, both.2,
              length_of_contentEach rightsRead]

end

end Node

namespace Printer

variable {τ : Type} (printer : Printer τ)

private theorem printEach_congr
    {lefts rights : List (Node τ)} {depth : Nat}
    (each : List.Forall₂ (fun left right =>
      printer.printAt depth left = printer.printAt depth right) lefts rights) :
    printer.printEach depth lefts = printer.printEach depth rights := by
  induction each with
  | nil =>
      rfl
  | cons first _ inductionHypothesis =>
      rw [printEach, printEach, first, inductionHypothesis]

/-- Trees are printed alike if their values are shown alike, readable or not. -/
theorem printAt_eq_of_alike
    {left right : Node τ} (alike : left.Alike Value.DisplaysAs right)
    (depth : Nat) :
    printer.printAt depth left = printer.printAt depth right := by
  revert depth
  refine alike.pairwise ?_ ?_
  · rintro tag left right ⟨shown, leftShown, rightShown⟩ depth
    rw [printAt, printAt, leftShown, rightShown]
  · intro tag lefts rights each depth
    rw [printAt, printAt,
      printer.printEach_congr (each.imp fun _ _ same => same (depth + 1))]

end Printer

namespace Node

variable {τ : Type} [DecidableEq τ] {left right : Node τ}

/-- Two trees that can be read are the same just if their contents are. -/
theorem same_eq_ok_true_iff_content
    (leftReadable : left.Readable) (rightReadable : right.Readable) :
    left.same right = .ok true ↔ left.content = right.content := by
  obtain ⟨leftContent, leftRead⟩ := exists_content_iff.mpr leftReadable
  obtain ⟨rightContent, rightRead⟩ := exists_content_iff.mpr rightReadable
  obtain ⟨agreed, answered, decided⟩ := decides_same leftRead rightRead
  rw [answered, leftRead, rightRead, Except.ok.injEq, Except.ok.injEq, decided]

/-- Comparing two trees that can be read tells whether they are one tree once every
text is put in place of its slice. So it is an equivalence relation, and trees that
are the same are printed alike and have values that answer alike, whatever buffers
and offsets their texts come from. -/
theorem same_decides_content_eq
    (τ : Type) [DecidableEq τ] :
    (∀ left right : Node τ, left.Readable → right.Readable →
      ∃ leftContent rightContent agreed,
        left.content = .ok leftContent ∧ right.content = .ok rightContent ∧
        left.same right = .ok agreed ∧
        (agreed = true ↔ leftContent = rightContent) ∧
        (agreed = true →
          (∀ printer : Printer τ, ∃ shown,
            printer.print left = .ok shown ∧
              printer.print right = .ok shown) ∧
          Option.Rel Value.AnswersAs left.value? right.value?)) ∧
    Equivalence fun left right : {node : Node τ // node.Readable} =>
      left.val.same right.val = .ok true := by
  constructor
  · intro left right leftReadable rightReadable
    obtain ⟨leftContent, leftRead⟩ := exists_content_iff.mpr leftReadable
    obtain ⟨rightContent, rightRead⟩ := exists_content_iff.mpr rightReadable
    obtain ⟨agreed, answered, decided⟩ := decides_same leftRead rightRead
    refine ⟨leftContent, rightContent, agreed, leftRead, rightRead, answered,
      decided, ?_⟩
    rintro rfl
    have alike := same_eq_ok_true_iff_alike.mp answered
    constructor
    · intro printer
      obtain ⟨shown, printed⟩ := printer.exists_print leftReadable
      have display := (same_eq_ok_true_iff.mp answered).1
      exact ⟨shown, printed,
        (printer.printAt_eq_of_alike display 0).symm.trans printed⟩
    · cases alike with
      | atom values =>
          exact .some (Value.answersAs_of_same values)
      | branch _ =>
          exact .none
  · constructor
    · intro node
      exact (same_eq_ok_true_iff_content node.2 node.2).mpr rfl
    · intro left right agreed
      rw [same_eq_ok_true_iff_content left.2 right.2] at agreed
      exact (same_eq_ok_true_iff_content right.2 left.2).mpr agreed.symm
    · intro first second third agreed further
      rw [same_eq_ok_true_iff_content first.2 second.2] at agreed
      rw [same_eq_ok_true_iff_content second.2 third.2] at further
      exact (same_eq_ok_true_iff_content first.2 third.2).mpr
        (agreed.trans further)

/-- A name behind a blank of another text is the same name in a buffer of its own,
and a digit as a text is not the number. -/
theorem same_decides_content_eq_between_buffers :
    let shared : Buffer := { chars := ['x', ' ', 'n', 'é'], key := 7 }
    let number : Node Bool := .atom true (.integer 1)
    let left := branch false [.atom true (.text ⟨shared, 2, 5⟩), number]
    let right := branch false [.ofText true "né", number]
    let other := branch false [.ofText true "né", .ofText true "1"]
    left.Readable ∧ right.Readable ∧ other.Readable ∧
      left.same right = .ok true ∧ left.same other = .ok false ∧
      (∀ printer : Printer Bool, ∃ shown,
        printer.print left = .ok shown ∧ printer.print right = .ok shown) ∧
      Option.Rel Value.AnswersAs left.value? right.value? := by
  intro shared number left right other
  have leftReadable : left.Readable := exists_content_iff.mp ⟨_, rfl⟩
  have rightReadable : right.Readable := exists_content_iff.mp ⟨_, rfl⟩
  have otherReadable : other.Readable := exists_content_iff.mp ⟨_, rfl⟩
  have leftContent :
      left.content = .ok (.branch false
        [.atom true (.text "né"), .atom true (.integer 1)]) := rfl
  have rightContent : right.content = left.content := rfl
  have otherContent :
      other.content = .ok (.branch false
        [.atom true (.text "né"), .atom true (.text "1")]) := rfl
  have ⟨decides, _⟩ := same_decides_content_eq Bool
  obtain ⟨_, _, agreed, leftRead, rightRead, answered, decided, follows⟩ :=
    decides left right leftReadable rightReadable
  obtain ⟨_, _, otherAgreed, leftAgain, otherRead, otherAnswered,
    otherDecided, _⟩ := decides left other leftReadable otherReadable
  have agrees : agreed = true := by
    rw [rightContent, leftRead, Except.ok.injEq] at rightRead
    exact decided.mpr rightRead
  have disagrees : otherAgreed = false := by
    rw [leftContent, Except.ok.injEq] at leftAgain
    rw [otherContent, Except.ok.injEq] at otherRead
    rw [← leftAgain, ← otherRead] at otherDecided
    simpa using otherDecided
  subst agrees disagrees
  exact ⟨leftReadable, rightReadable, otherReadable, answered, otherAnswered,
    follows rfl⟩

end Node

end TextGrammar
