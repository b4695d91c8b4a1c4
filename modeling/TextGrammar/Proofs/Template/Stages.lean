import TextGrammar.Proofs.Template.Scanning

/-!
Rendering in stages. The text that a rendering gives has the filled layout, so a
second rendering finds only the groups that the first one left, and a value never
becomes a placeholder or a part of one. The main statement is
`render_in_stages`: rendering twice is rendering once with both sets of values.
-/

namespace TextGrammar.Template

variable {value? : String → Option String}

private theorem merge_self
    (value? : String → Option String) : merge value? value? = value? := by
  funext name
  exact Option.or_self

namespace Layout

/-- A value stands for a group of the layout, between what comes before and
after it in the filled text. -/
inductive Substitutes (value? : String → Option String) :
    Layout → (before value after : List Char) → Prop
  | here {gap inside : List Char} {free : '{' ∉ gap}
      {balanced : Balanced '{' '}' inside} {rest : Layout} {value : String}
      (bound : valueIn? value? inside = some value) :
      Substitutes value? (.piece gap inside free balanced rest) gap
        (Escape.uriComponent value).toList (rest.filledText value?)
  | later {gap inside : List Char} {free : '{' ∉ gap}
      {balanced : Balanced '{' '}' inside} {rest : Layout}
      {before value after : List Char}
      (further : Substitutes value? rest before value after) :
      Substitutes value? (.piece gap inside free balanced rest)
        (gap ++ written value? inside ++ before) value after

theorem Substitutes.filledText_eq
    {layout : Layout} {before value after : List Char}
    (substitutes : Substitutes value? layout before value after) :
    layout.filledText value? = before ++ value ++ after := by
  induction substitutes with
  | here bound =>
      rw [filledText, written, bound]
  | later further inductionHypothesis =>
      rw [filledText, inductionHypothesis]
      simp only [List.append_assoc]

private theorem filledText_fill
    (first? second? : String → Option String) (layout : Layout) :
    (layout.fill first?).filledText second? =
      layout.filledText (merge first? second?) := by
  rw [← text_fill, fill_fill, text_fill]

end Layout

namespace Marks

variable {buffer : Buffer} {start : Nat} {layout : Layout}
  {placeholders : List Placeholder}

/-- Text in front of a layout only moves its placeholders. -/
theorem of_behind
    {front : List Char} {frontFree : '{' ∉ front}
    (marks : Marks buffer start (layout.behind front frontFree) placeholders) :
    Marks buffer (start + byteLength front) layout placeholders := by
  cases layout with
  | tail text neverCloses =>
      cases marks with
      | tail tailRead =>
          exact .tail (window?_of_append tailRead).2
  | piece gap inside free balanced rest =>
      cases marks with
      | piece sameBuffer gapRead groupRead nameRead othersMarked =>
          exact .piece sameBuffer (window?_of_append gapRead).2 groupRead
            nameRead othersMarked

/-- A placeholder of a filled text ends before a value or begins behind it. -/
theorem apart
    {before value after : List Char}
    (substitutes : layout.Substitutes value? before value after)
    (marks : Marks buffer start (layout.fill value?) placeholders) :
    ∀ placeholder ∈ placeholders,
      placeholder.group.stop ≤ start + byteLength before ∨
        start + byteLength (before ++ value) ≤ placeholder.group.pos := by
  induction substitutes generalizing start placeholders with
  | here bound =>
      rw [Layout.fill, bound] at marks
      intro placeholder member
      exact Or.inr (marks.of_behind.placed placeholder member).1
  | @later gap inside free balanced rest before value after further
      inductionHypothesis =>
      rw [Layout.fill] at marks
      cases bound : valueIn? value? inside with
      | some other =>
          rw [bound] at marks
          have moved := inductionHypothesis marks.of_behind
          rw [written, bound]
          simpa only [byteLength_append, Nat.add_assoc] using moved
      | none =>
          rw [bound] at marks
          rw [written, bound]
          cases marks with
          | piece sameBuffer gapRead groupRead nameRead othersMarked =>
              have gapLength := byteLength_of_window? gapRead
              have groupLength := Cursor.pos_add_byteLength groupRead
              have moved := inductionHypothesis othersMarked
              simp only [byteLength_append] at moved ⊢
              refine List.forall_mem_cons.mpr ⟨?_, ?_⟩
              · left
                omega
              · intro placeholder member
                have apart := moved placeholder member
                omega

end Marks

/-- Rendering in two stages is rendering once with both sets of values, where the
first set wins; so rendering again with the same values changes nothing. Where a
value stands in the rendered text, no placeholder is found in it or over any part
of it. -/
theorem render_in_stages
    (first? second? : String → Option String) (template : String) :
    ∃ once twice,
      render first? template = .ok once ∧
        render second? once.text = .ok twice ∧
        (∃ warnings, render (merge first? second?) template =
          .ok ⟨twice.text, warnings⟩) ∧
        (∃ warnings, render first? once.text = .ok ⟨once.text, warnings⟩) ∧
        ∃ (layout : Layout) (placeholders : List Placeholder),
          layout.text = template.toList ∧
            Placeholder.scan (.whole { chars := once.text.toList }) =
              .ok placeholders ∧
            ∀ before value after,
              layout.Substitutes first? before value after →
                once.text.toList = before ++ value ++ after ∧
                  ∀ placeholder ∈ placeholders,
                    placeholder.group.stop ≤ byteLength before ∨
                      byteLength (before ++ value) ≤
                        placeholder.group.pos := by
  obtain ⟨layout, whole⟩ := Layout.exists_text_eq template.toList
  obtain ⟨_, warnings, _, _, rendered⟩ := exists_render first? layout
  obtain ⟨_, mergedWarnings, _, _, renderedMerged⟩ :=
    exists_render (merge first? second?) layout
  obtain ⟨placeholders, secondWarnings, scanned, marks, renderedTwice⟩ :=
    exists_render second? (layout.fill first?)
  obtain ⟨_, againWarnings, _, _, renderedAgain⟩ :=
    exists_render first? (layout.fill first?)
  rw [whole, String.ofList_toList] at rendered renderedMerged
  rw [Layout.filledText_fill] at renderedTwice renderedAgain
  rw [merge_self] at renderedAgain
  rw [Layout.text_fill] at scanned marks renderedTwice renderedAgain
  refine ⟨_, _, rendered, renderedTwice, ⟨mergedWarnings, renderedMerged⟩,
    ⟨againWarnings, renderedAgain⟩, layout, placeholders, whole, ?_, ?_⟩
  · rw [String.toList_ofList]
    exact scanned
  · intro before value after substitutes
    refine ⟨?_, ?_⟩
    · rw [String.toList_ofList]
      exact substitutes.filledText_eq
    · have apart := marks.apart substitutes
      simpa only [Nat.zero_add] using apart

/-- A value that is written like a placeholder is none. -/
theorem render_in_stages_braces_in_value :
    ∃ once placeholders,
      render (fun name => if name = "x" then some "{y}" else none) "{x}{y}" =
          .ok once ∧
        once.text = "%7By%7D{y}" ∧
        Placeholder.scan (.whole { chars := once.text.toList }) =
          .ok placeholders ∧
        ∀ placeholder ∈ placeholders,
          placeholder.group.stop ≤ 0 ∨ 7 ≤ placeholder.group.pos := by
  obtain ⟨once, _, rendered, _, _, _, layout, placeholders, whole, scanned,
      apart⟩ := render_in_stages
      (fun name => if name = "x" then some "{y}" else none) (fun _ => none)
      "{x}{y}"
  have counted : ∀ c ∈ ['x', 'y'],
      closeGroup? '{' '}' 0 [c] = none ∧ [c].count '}' = [c].count '{' := by
    simp [closeGroup?]
  have balanced (c : Char) (known : c ∈ ['x', 'y']) : Balanced '{' '}' [c] :=
    ⟨(closeGroup?_eq_none_iff (by decide)).mp (counted c known).1,
      (counted c known).2⟩
  have nothing : NeverCloses '{' '}' [] :=
    (findGroup?_eq_none_iff (by decide)).mp rfl
  have known :
      layout = .piece [] ['x'] List.not_mem_nil (balanced 'x' (by decide))
        (.piece [] ['y'] List.not_mem_nil (balanced 'y' (by decide))
          (.tail [] nothing)) :=
    Layout.text_injective whole
  subst known
  have escaped : (Escape.uriComponent "{y}").toList = "%7By%7D".toList := by
    decide +kernel
  obtain ⟨split, away⟩ := apart [] _ _ (.here rfl)
  rw [escaped] at split away
  have spelled : once.text = "%7By%7D{y}" :=
    String.toList_inj.mp (split.trans rfl)
  exact ⟨once, placeholders, rendered, spelled, scanned, away⟩

end TextGrammar.Template
