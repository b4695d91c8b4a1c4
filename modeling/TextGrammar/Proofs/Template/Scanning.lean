import TextGrammar.Proofs.Cursor.Reading
import TextGrammar.Proofs.Recognizer.Runs
import TextGrammar.Proofs.Slice.Reading
import TextGrammar.Proofs.Template.Layout
import TextGrammar.Template.Render

/-!
Scanning finds the layout of a template. `Marks` says that placeholders stand at
the groups of a layout and have the names in them. Scanning never fails and its
placeholders mark the layout of the template; filling them never fails either and
gives the filled text of the layout. The main statement is `scan_and_render`.
-/

namespace TextGrammar.Template

theorem consume_identifier
    (chars : List Char) :
    identifier.consume chars =
      if chars.head?.any isNameChar then
        some (chars.dropWhile isNameChar)
      else
        none := by
  apply Recognizer.consume_oneOrMore_of_afterChar?
  funext chars
  have underscore :
      (Recognizer.oneOf ['_']).consume chars = afterChar? (· == '_') chars := by
    rw [Recognizer.consume]
    congr 1
    funext c
    rw [List.contains_cons, List.contains_nil, Bool.or_false]
  rw [Recognizer.consume_choice, List.findSome?_cons,
    Recognizer.consume_ofClass, List.findSome?_cons, underscore,
    List.findSome?_nil]
  cases chars with
  | nil =>
      rfl
  | cons c rest =>
      simp only [afterChar?, CharClass.contains_alphanumeric, isNameChar]
      by_cases letter : c.isAlphanum = true
      · simp [letter]
      · by_cases line : c = '_'
        · simp [line]
        · simp [letter, line]

/-- The identifier at a cursor is the run of name characters there. -/
theorem seek_identifier
    {cursor : Cursor} {chars : List Char} (readable : cursor.chars = .ok chars) :
    cursor.seek identifier =
      if chars.takeWhile isNameChar ≠ [] then
        some (cursor.upTo (chars.takeWhile isNameChar))
      else
        none := by
  have consumed := consume_identifier chars
  have begins :
      chars.head?.any isNameChar = true ↔ chars.takeWhile isNameChar ≠ [] := by
    cases chars with
    | nil =>
        simp
    | cons c rest =>
        by_cases letter : isNameChar c = true
        · simp [letter]
        · simp [letter]
  by_cases named : chars.takeWhile isNameChar ≠ []
  · rw [if_pos (begins.mpr named)] at consumed
    rw [if_pos named]
    have parts := List.takeWhile_append_dropWhile (p := isNameChar) (l := chars)
    apply Cursor.seek_of_consume_some
    · rw [readable, parts]
    · rw [parts, consumed]
  · rw [if_neg (mt begins.mp named)] at consumed
    rw [if_neg named]
    exact Cursor.seek_of_consume_none readable consumed

/-- A group without its braces. -/
theorem set_inside
    {group : Cursor} {inside : List Char}
    (readable : group.chars = .ok (braced inside)) :
    group.set (group.pos + 1) (group.stop - 1) =
        .ok ((group.past ['{']).upTo inside) ∧
      ((group.past ['{']).upTo inside).chars = .ok inside := by
  have readBehind : (group.past ['{']).chars = .ok (inside ++ ['}']) :=
    Cursor.chars_past readable
  have readInside := Cursor.chars_upTo readBehind
  have bounds :
      (group.past ['{']).upTo inside =
        { group with pos := group.pos + 1, stop := group.stop - 1 } := by
    have length :
        group.pos + (1 + (byteLength inside + 1)) = group.stop := by
      rw [← Cursor.pos_add_byteLength readable, braced, byteLength_cons,
        byteLength_append]
      rfl
    have stops : group.pos + 1 + byteLength inside = group.stop - 1 := by
      omega
    rw [← stops]
    rfl
  refine ⟨?_, readInside⟩
  rw [bounds] at readInside ⊢
  exact Cursor.set_of_window? (Cursor.chars_eq_ok_iff.mp readInside)

def nameAt? (group : Cursor) (inside : List Char) : Option Cursor :=
  (nameIn? inside).map fun name =>
    (group.past ('{' :: inside.takeWhile CharClass.isBlank)).upTo name

/-- The name that is found in a group is the one that stands alone in it. -/
theorem ofGroup_of_chars
    {group : Cursor} {inside : List Char}
    (readable : group.chars = .ok (braced inside)) :
    Placeholder.ofGroup group =
      .ok { group, name := nameAt? group inside } := by
  obtain ⟨placed, readInside⟩ := set_inside readable
  have skipped := Cursor.skipBlanks_of_chars readInside
  have readShown := Cursor.chars_past_blanks readInside
  have place (name : List Char) :
      (((group.past ['{']).upTo inside).past
          (inside.takeWhile CharClass.isBlank)).upTo name =
        (group.past ('{' :: inside.takeWhile CharClass.isBlank)).upTo name := by
    show ((group.past ['{']).past
      (inside.takeWhile CharClass.isBlank)).upTo name = _
    rw [Cursor.past_past]
    rfl
  rw [nameAt?, nameIn?]
  simp only [← place]
  generalize inside.dropWhile CharClass.isBlank = chars at readShown ⊢
  generalize
    ((group.past ['{']).upTo inside).past
      (inside.takeWhile CharClass.isBlank) = shown at skipped readShown ⊢
  have sought := seek_identifier readShown
  by_cases named : chars.takeWhile isNameChar ≠ []
  · rw [if_pos named] at sought
    rw [← List.takeWhile_append_dropWhile (p := isNameChar) (l := chars)]
      at readShown
    have jumped := Cursor.jump_upTo readShown
    have readBehind := Cursor.chars_past readShown
    have skippedBehind := Cursor.skipBlanks_of_chars readBehind
    have ended := Cursor.isEmpty_past_blanks readBehind
    simp only [Placeholder.ofGroup, placed, skipped, sought, jumped,
      skippedBehind, ended, Cursor.Failure.liftM_error_ok,
      Cursor.Failure.liftM_fault_ok, bind, Except.bind]
    by_cases blank : (chars.dropWhile isNameChar).all CharClass.isBlank = true
    · rw [if_pos blank, if_pos ⟨named, blank⟩]
      rfl
    · rw [if_neg blank, if_neg fun both => blank both.2]
      rfl
  · rw [if_neg named] at sought
    simp only [Placeholder.ofGroup, placed, skipped, sought,
      Cursor.Failure.liftM_error_ok, Cursor.Failure.liftM_fault_ok, bind,
      Except.bind]
    rw [if_neg fun both => named both.1]
    rfl

/-- The inside of a group is the blanks before its name, the name, and the
rest. -/
theorem eq_append_of_nameIn?
    {inside name : List Char} (named : nameIn? inside = some name) :
    inside =
      inside.takeWhile CharClass.isBlank ++
        (name ++ (inside.dropWhile CharClass.isBlank).dropWhile isNameChar) := by
  rw [nameIn?, Option.ite_none_right_eq_some, Option.some.injEq] at named
  rw [← named.2, List.takeWhile_append_dropWhile,
    List.takeWhile_append_dropWhile]

theorem chars_nameAt?
    {group : Cursor} {inside : List Char}
    (readable : group.chars = .ok (braced inside)) :
    (nameAt? group inside).map Cursor.chars = (nameIn? inside).map .ok := by
  rw [nameAt?]
  cases named : nameIn? inside with
  | none =>
      rfl
  | some name =>
      have split := eq_append_of_nameIn? named
      generalize inside.takeWhile CharClass.isBlank = front at split ⊢
      generalize
        (inside.dropWhile CharClass.isBlank).dropWhile isNameChar = behind
        at split
      have readParts :
          group.chars = .ok ('{' :: front ++ (name ++ (behind ++ ['}']))) := by
        rw [readable, braced, split]
        simp only [List.append_assoc, List.cons_append]
      have readName := Cursor.chars_upTo (Cursor.chars_past readParts)
      rw [Option.map_some, Option.map_some, Option.map_some, readName]

/-! ## Scanning -/

/-- The placeholders stand in the buffer, from an offset on, where the layout
has its groups, and have the names in them. -/
inductive Marks (buffer : Buffer) : Nat → Layout → List Placeholder → Prop
  | tail {start : Nat} {text : List Char}
      {neverCloses : NeverCloses '{' '}' text}
      (tailRead : window? buffer.chars start buffer.size = some text) :
      Marks buffer start (.tail text neverCloses) []
  | piece {start : Nat} {gap inside : List Char} {free : '{' ∉ gap}
      {balanced : Balanced '{' '}' inside} {rest : Layout}
      {placeholder : Placeholder} {others : List Placeholder}
      (sameBuffer : placeholder.group.buffer = buffer)
      (gapRead :
        window? buffer.chars start placeholder.group.pos = some gap)
      (groupRead : placeholder.group.chars = .ok (braced inside))
      (nameRead :
        placeholder.name.map Cursor.chars = (nameIn? inside).map .ok)
      (othersMarked : Marks buffer placeholder.group.stop rest others) :
      Marks buffer start (.piece gap inside free balanced rest)
        (placeholder :: others)

private theorem scan_of_none
    {cursor next : Cursor}
    (sought : cursor.seekGroup '{' '}' = .ok (none, next)) :
    Placeholder.scan cursor = .ok [] := by
  rw [Placeholder.scan]
  split
  · rename_i cause failed
    simp [sought] at failed
  · rfl
  · rename_i group behind found
    simp [sought] at found

private theorem scan_of_some
    {cursor group next : Cursor} {placeholder : Placeholder}
    {others : List Placeholder}
    (sought : cursor.seekGroup '{' '}' = .ok (some group, next))
    (made : Placeholder.ofGroup group = .ok placeholder)
    (scanned : Placeholder.scan next = .ok others) :
    Placeholder.scan cursor = .ok (placeholder :: others) := by
  rw [Placeholder.scan]
  split
  · rename_i cause failed
    simp [sought] at failed
  · rename_i behind absent
    simp [sought] at absent
  · rename_i foundGroup behind found
    rw [sought, Except.ok.injEq, Prod.mk.injEq, Option.some.injEq] at found
    obtain ⟨rfl, rfl⟩ := found
    rw [made, scanned]
    rfl

/-- Scanning finds the placeholders of the layout that a cursor reads, each with
the name in its group. -/
theorem exists_scan
    {layout : Layout} {cursor : Cursor}
    (readable : cursor.chars = .ok layout.text)
    (toEnd : cursor.stop = cursor.buffer.size) :
    ∃ placeholders, Placeholder.scan cursor = .ok placeholders ∧
      Marks cursor.buffer cursor.pos layout placeholders ∧
      ∀ placeholder ∈ placeholders, ∃ inside,
        placeholder.group.chars = .ok (braced inside) ∧
          placeholder.name = nameAt? placeholder.group inside := by
  induction layout generalizing cursor with
  | tail text neverCloses =>
      have sought := Cursor.seekGroup_of_none readable
        (Layout.findGroup?_text_tail neverCloses)
      refine ⟨[], scan_of_none sought, .tail ?_, by simp⟩
      rw [← toEnd]
      exact Cursor.chars_eq_ok_iff.mp readable
  | piece gap inside free balanced rest inductionHypothesis =>
      have sought := Cursor.seekGroup_of_some readable
        (Layout.findGroup?_text_piece free balanced rest)
      have readParts :
          cursor.chars = .ok (gap ++ (braced inside ++ rest.text)) := by
        rw [readable, Layout.text, List.append_assoc]
      have readBehindGap := Cursor.chars_past readParts
      have readGroup := Cursor.chars_upTo readBehindGap
      have made := ofGroup_of_chars readGroup
      obtain ⟨others, scanned, othersMarked, othersNamed⟩ :=
        inductionHypothesis (Cursor.chars_past readBehindGap) toEnd
      have gapRead := (window?_of_append
        (Cursor.chars_eq_ok_iff.mp readParts)).1
      exact ⟨_, scan_of_some sought made scanned,
        .piece rfl gapRead readGroup (chars_nameAt? readGroup) othersMarked,
        List.forall_mem_cons.mpr ⟨⟨inside, readGroup, rfl⟩, othersNamed⟩⟩

namespace Marks

variable {buffer : Buffer} {start : Nat} {layout : Layout}
  {placeholders : List Placeholder}

/-- No group is empty, and none begins before the scan did. -/
theorem placed
    (marks : Marks buffer start layout placeholders) :
    ∀ placeholder ∈ placeholders,
      start ≤ placeholder.group.pos ∧
        placeholder.group.pos < placeholder.group.stop := by
  induction marks with
  | tail tailRead =>
      simp
  | piece sameBuffer gapRead groupRead nameRead othersMarked
      inductionHypothesis =>
      have gapLength := byteLength_of_window? gapRead
      have groupLength := Cursor.pos_add_byteLength groupRead
      rw [braced, byteLength_cons] at groupLength
      have brace := '{'.utf8Size_pos
      refine List.forall_mem_cons.mpr ⟨by omega, ?_⟩
      intro later member
      obtain ⟨behind, nonempty⟩ := inductionHypothesis later member
      exact ⟨by omega, nonempty⟩

/-- The groups stand one behind the other. -/
theorem ordered
    (marks : Marks buffer start layout placeholders) :
    placeholders.Pairwise fun earlier later =>
      earlier.group.stop ≤ later.group.pos := by
  induction marks with
  | tail tailRead =>
      exact .nil
  | piece sameBuffer gapRead groupRead nameRead othersMarked
      inductionHypothesis =>
      refine .cons ?_ inductionHypothesis
      intro later member
      exact (othersMarked.placed later member).1

end Marks

/-! ## Filling -/

section

variable (value? : String → Option String) {inside : List Char}
  {buffer : Buffer} {start : Nat} {layout : Layout}

private theorem exists_fill
    {placeholder : Placeholder}
    (groupRead : placeholder.group.chars = .ok (braced inside))
    (nameRead :
      placeholder.name.map Cursor.chars = (nameIn? inside).map .ok) :
    ∃ warnings, placeholder.fill value? =
      .ok ⟨String.ofList (written value? inside), warnings⟩ := by
  have groupText := Cursor.text_of_chars groupRead
  rcases placeholder with ⟨group, name⟩
  cases name with
  | none =>
      have unnamed : nameIn? inside = none := by
        simpa using nameRead.symm
      refine ⟨[.malformed group.position (String.ofList (braced inside))], ?_⟩
      simp only [Placeholder.fill, groupText, bind, Except.bind]
      rw [written, valueIn?, unnamed]
      rfl
  | some cursor =>
      obtain ⟨name, named, read⟩ := Option.map_eq_some_iff.mp nameRead.symm
      have nameText := Cursor.text_of_chars read.symm
      cases bound : value? (String.ofList name) with
      | none =>
          refine ⟨[.unbound cursor.position (String.ofList name)], ?_⟩
          simp only [Placeholder.fill, groupText, bind, Except.bind, nameText,
            bound]
          rw [written, valueIn?, named, Option.bind_some, bound]
          rfl
      | some value =>
          refine ⟨[], ?_⟩
          simp only [Placeholder.fill, groupText, bind, Except.bind, nameText,
            bound]
          rw [written, valueIn?, named, Option.bind_some, bound]
          simp only [String.ofList_toList]
          rfl

private theorem ofBounds_of_window?
    {stop : Nat} {chars : List Char}
    (readable : window? buffer.chars start stop = some chars) :
    Slice.ofBounds buffer start stop = .ok ⟨buffer, start, stop⟩ ∧
      Slice.text ⟨buffer, start, stop⟩ = .ok (String.ofList chars) := by
  have read : Slice.chars? ⟨buffer, start, stop⟩ = some chars := readable
  exact ⟨Slice.ofBounds_eq_ok_iff.mpr ⟨rfl, Slice.inBounds_of_chars? read⟩,
    Slice.text_of_chars? read⟩

/-- Filling the placeholders that mark a layout gives its filled text. -/
theorem exists_fillFrom
    {placeholders : List Placeholder}
    (marks : Marks buffer start layout placeholders) :
    ∃ warnings, fillFrom value? buffer start placeholders =
      .ok ⟨String.ofList (layout.filledText value?), warnings⟩ := by
  induction marks with
  | tail tailRead =>
      obtain ⟨made, read⟩ := ofBounds_of_window? tailRead
      refine ⟨[], ?_⟩
      simp only [fillFrom, made, bind, Except.bind, read]
      rfl
  | piece sameBuffer gapRead groupRead nameRead othersMarked
      inductionHypothesis =>
      obtain ⟨made, read⟩ := ofBounds_of_window? gapRead
      obtain ⟨warnings, filled⟩ := exists_fill value? groupRead nameRead
      obtain ⟨furtherWarnings, filledRest⟩ := inductionHypothesis
      refine ⟨[] ++ warnings ++ furtherWarnings, ?_⟩
      simp only [fillFrom, made, bind, Except.bind, read, filled, filledRest,
        Layout.filledText, String.ofList_append]
      rfl

def Placeholder.Unbound (value? : String → Option String)
    (placeholder : Placeholder) : Prop :=
  ∀ cursor name, placeholder.name = some cursor → cursor.text = .ok name →
    value? name = none

private theorem Marks.filledText_of_unbound
    {value? : String → Option String} {placeholders : List Placeholder}
    (marks : Marks buffer start layout placeholders)
    (unbound : ∀ placeholder ∈ placeholders, placeholder.Unbound value?) :
    layout.filledText value? = layout.text := by
  induction marks with
  | tail tailRead =>
      rfl
  | @piece start gap inside free balanced rest placeholder others sameBuffer
      gapRead groupRead nameRead othersMarked inductionHypothesis =>
      obtain ⟨firstUnbound, othersUnbound⟩ := List.forall_mem_cons.mp unbound
      have stays : written value? inside = braced inside := by
        cases named : nameIn? inside with
        | none =>
            rw [written, valueIn?, named]
            rfl
        | some name =>
            rw [named] at nameRead
            obtain ⟨cursor, found, read⟩ := Option.map_eq_some_iff.mp nameRead
            have valueless :=
              firstUnbound cursor _ found (Cursor.text_of_chars read)
            rw [written, valueIn?, named, Option.bind_some, valueless]
      rw [Layout.filledText, stays, inductionHypothesis othersUnbound,
        Layout.text]

/-- Rendering the text of a layout gives its filled text. -/
theorem exists_render
    (layout : Layout) :
    ∃ placeholders warnings,
      Placeholder.scan (.whole { chars := layout.text }) = .ok placeholders ∧
        Marks { chars := layout.text } 0 layout placeholders ∧
        render value? (String.ofList layout.text) =
          .ok ⟨String.ofList (layout.filledText value?), warnings⟩ := by
  have readable :
      (Cursor.whole { chars := layout.text }).chars = .ok layout.text :=
    Cursor.chars_eq_ok_iff.mpr (window?_whole layout.text)
  obtain ⟨placeholders, scanned, marks, _⟩ := exists_scan readable rfl
  obtain ⟨warnings, filled⟩ := exists_fillFrom value? marks
  refine ⟨placeholders, warnings, scanned, marks, ?_⟩
  have filledWhole :
      fillFrom value? { chars := layout.text } 0 placeholders =
        .ok ⟨String.ofList (layout.filledText value?), warnings⟩ := filled
  simp only [render, String.toList_ofList, scanned, filledWhole,
    Cursor.Failure.liftM_fault_ok, bind, Except.bind]

end

/-- Neither scanning nor rendering a template fails. The placeholders stand in
order at the groups of a layout of the template, whose gaps open no brace and
whose tail is never balanced from its first open brace on. Rendering gives the
filled text of this layout: every group with a value gives way to the escaped
value and everything else stays. Where no placeholder has a value this is the
template. -/
theorem scan_and_render
    (value? : String → Option String) (template : String) :
    ∃ placeholders layout warnings,
      Placeholder.scan (.whole { chars := template.toList }) =
          .ok placeholders ∧
        render value? template =
          .ok ⟨String.ofList (layout.filledText value?), warnings⟩ ∧
        layout.text = template.toList ∧
        Marks { chars := template.toList } 0 layout placeholders ∧
        (∀ placeholder ∈ placeholders,
          placeholder.group.pos < placeholder.group.stop) ∧
        (placeholders.Pairwise fun earlier later =>
          earlier.group.stop ≤ later.group.pos) ∧
        ((∀ placeholder ∈ placeholders, placeholder.Unbound value?) →
          layout.filledText value? = template.toList) := by
  obtain ⟨layout, whole⟩ := Layout.exists_text_eq template.toList
  obtain ⟨placeholders, warnings, scanned, marks, rendered⟩ :=
    exists_render value? layout
  rw [whole] at scanned marks rendered
  rw [String.ofList_toList] at rendered
  refine ⟨placeholders, layout, warnings, scanned, rendered, whole, marks, ?_,
    marks.ordered, ?_⟩
  · intro placeholder member
    exact (marks.placed placeholder member).2
  · intro unbound
    rw [marks.filledText_of_unbound unbound, whole]

/-- Without any value a template with a name and an open brace stays. -/
theorem render_without_values :
    ∃ warnings,
      render (fun _ => none) "a{ x }b\x7b" = .ok ⟨"a{ x }b\x7b", warnings⟩ := by
  obtain ⟨_, _, warnings, _, rendered, _, _, _, _, stays⟩ :=
    scan_and_render (fun _ => none) "a{ x }b\x7b"
  have unbound := stays fun _ _ _ _ _ _ => rfl
  rw [unbound, String.ofList_toList] at rendered
  exact ⟨warnings, rendered⟩

end TextGrammar.Template
