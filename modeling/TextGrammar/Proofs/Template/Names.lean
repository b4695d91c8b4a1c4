import TextGrammar.Proofs.Template.Scanning

/-!
Names of placeholders. `StandsAlone` says that the inside of a group is an
identifier with blanks around it. There is one way at most to cut an inside like
this, and `nameIn?` finds it. The main statement is `scan_finds_names`: of all
placeholders of a template just those have a name whose groups hold an identifier
alone, and the name is this identifier in its place.
-/

namespace TextGrammar.Template

/-- The inside of a group is an identifier, with blanks before and behind it if
any. -/
structure StandsAlone (inside front name behind : List Char) : Prop where
  parts : inside = front ++ (name ++ behind)
  nonempty : name ≠ []
  letters : ∀ c ∈ name, c.isAlphanum = true ∨ c = '_'
  blanksBefore : ∀ c ∈ front, CharClass.isBlank c = true
  blanksBehind : ∀ c ∈ behind, CharClass.isBlank c = true

private theorem isNameChar_iff
    {c : Char} : isNameChar c = true ↔ c.isAlphanum = true ∨ c = '_' := by
  rw [isNameChar, Bool.or_eq_true, beq_iff_eq]

private theorem isNameChar_eq_false_of_isBlank
    {c : Char} (blank : CharClass.isBlank c = true) : isNameChar c = false := by
  have each :
      [' ', '\t', '\n', '\r', '\x0b', '\x0c'].all (fun c => !isNameChar c) =
        true := by
    rfl
  have noName := List.all_eq_true.mp each c (List.contains_iff_mem.mp blank)
  simpa using noName

namespace StandsAlone

variable {inside front name behind : List Char}

/-- The name begins where the blanks end. -/
theorem head?_not_isBlank
    (alone : StandsAlone inside front name behind) :
    (name ++ behind).head?.any CharClass.isBlank = false := by
  rcases List.exists_cons_of_ne_nil alone.nonempty with ⟨c, others, rfl⟩
  have letter := isNameChar_iff.mpr (alone.letters c List.mem_cons_self)
  rw [List.cons_append, List.head?_cons, Option.any_some, Bool.eq_false_iff]
  intro blank
  rw [isNameChar_eq_false_of_isBlank blank] at letter
  contradiction

/-- The name ends where the blanks go on. -/
theorem head?_not_isNameChar
    (alone : StandsAlone inside front name behind) :
    behind.head?.any isNameChar = false := by
  have blanks := alone.blanksBehind
  cases behind with
  | nil =>
      rfl
  | cons c others =>
      rw [List.head?_cons, Option.any_some]
      exact isNameChar_eq_false_of_isBlank (blanks c List.mem_cons_self)

private theorem takeWhile_isBlank
    (alone : StandsAlone inside front name behind) :
    inside.takeWhile CharClass.isBlank = front := by
  rw [alone.parts]
  exact takeWhile_append_of_head? alone.blanksBefore alone.head?_not_isBlank

theorem nameIn?_eq
    (alone : StandsAlone inside front name behind) :
    nameIn? inside = some name := by
  have letters : ∀ c ∈ name, isNameChar c = true :=
    fun c member => isNameChar_iff.mpr (alone.letters c member)
  have shown : inside.dropWhile CharClass.isBlank = name ++ behind := by
    rw [alone.parts]
    exact dropWhile_append_of_head? alone.blanksBefore alone.head?_not_isBlank
  have taken : (name ++ behind).takeWhile isNameChar = name :=
    takeWhile_append_of_head? letters alone.head?_not_isNameChar
  have dropped : (name ++ behind).dropWhile isNameChar = behind :=
    dropWhile_append_of_head? letters alone.head?_not_isNameChar
  have blanks : behind.all CharClass.isBlank = true :=
    List.all_eq_true.mpr alone.blanksBehind
  rw [nameIn?, shown, taken, dropped, if_pos ⟨alone.nonempty, blanks⟩]

end StandsAlone

private theorem standsAlone_of_nameIn?
    {inside name : List Char} (named : nameIn? inside = some name) :
    StandsAlone inside (inside.takeWhile CharClass.isBlank) name
      ((inside.dropWhile CharClass.isBlank).dropWhile isNameChar) := by
  have parts := eq_append_of_nameIn? named
  rw [nameIn?, Option.ite_none_right_eq_some, Option.some.injEq] at named
  rcases named with ⟨⟨nonempty, blanks⟩, rfl⟩
  refine ⟨parts, nonempty, ?_, ?_, List.all_eq_true.mp blanks⟩
  · intro c member
    exact isNameChar_iff.mp (List.mem_takeWhile_imp member)
  · intro c member
    exact List.mem_takeWhile_imp member

theorem exists_nameIn?_eq_some_iff
    {inside : List Char} :
    (nameIn? inside).isSome = true ↔
      ∃ front name behind, StandsAlone inside front name behind := by
  rw [Option.isSome_iff_exists]
  constructor
  · intro named
    rcases named with ⟨name, named⟩
    exact ⟨_, name, _, standsAlone_of_nameIn? named⟩
  · intro alone
    rcases alone with ⟨front, name, behind, alone⟩
    exact ⟨name, alone.nameIn?_eq⟩

/-- Every placeholder that is found has a name just if there is an identifier
among blanks and nothing else between its braces. The name is then the range of
this identifier, inside the group. -/
theorem scan_finds_names
    (template : String) :
    ∃ placeholders layout,
      Placeholder.scan (.whole { chars := template.toList }) =
          .ok placeholders ∧
        layout.text = template.toList ∧
        Marks { chars := template.toList } 0 layout placeholders ∧
        ∀ placeholder ∈ placeholders, ∃ inside,
          placeholder.group.chars = .ok (braced inside) ∧
            (placeholder.name.isSome = true ↔
              ∃ front name behind, StandsAlone inside front name behind) ∧
            ∀ front name behind, StandsAlone inside front name behind →
              ∃ cursor, placeholder.name = some cursor ∧
                cursor.chars = .ok name ∧
                cursor.buffer = placeholder.group.buffer ∧
                cursor.pos = placeholder.group.pos + 1 + byteLength front ∧
                cursor.stop = cursor.pos + byteLength name ∧
                cursor.stop < placeholder.group.stop := by
  obtain ⟨layout, whole⟩ := Layout.exists_text_eq template.toList
  have readable :
      (Cursor.whole { chars := template.toList }).chars = .ok layout.text := by
    rw [whole]
    exact Cursor.chars_eq_ok_iff.mpr (window?_whole template.toList)
  obtain ⟨placeholders, scanned, marks, named⟩ := exists_scan readable rfl
  refine ⟨placeholders, layout, scanned, whole, marks, ?_⟩
  intro placeholder member
  rcases named placeholder member with ⟨inside, groupRead, nameAt⟩
  refine ⟨inside, groupRead, ?_, ?_⟩
  · rw [nameAt, nameAt?, Option.isSome_map]
    exact exists_nameIn?_eq_some_iff
  · intro front name behind alone
    have nameRead := chars_nameAt? groupRead
    have length := Cursor.pos_add_byteLength groupRead
    rw [nameAt?, alone.nameIn?_eq, Option.map_some, Option.map_some,
      Option.map_some, Option.some.injEq, alone.takeWhile_isBlank] at nameRead
    rw [nameAt?, alone.nameIn?_eq, Option.map_some, alone.takeWhile_isBlank]
      at nameAt
    refine ⟨_, nameAt, nameRead, rfl, ?_, rfl, ?_⟩
    · simp only [Cursor.upTo, Cursor.past, byteLength_cons]
      exact (Nat.add_assoc _ _ _).symm
    · have brace : '}'.utf8Size = 1 := rfl
      have opening : '{'.utf8Size = 1 := rfl
      rw [alone.parts] at length
      simp only [braced, byteLength_cons, byteLength_append, byteLength_nil]
        at length
      simp only [Cursor.upTo, Cursor.past, byteLength_cons]
      omega

end TextGrammar.Template
