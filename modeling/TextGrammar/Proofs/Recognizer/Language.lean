import Mathlib.Computability.Language
import TextGrammar.Proofs.Recognizer.Nullability

/-!
The language of a recognizer: the words that its tree describes, whatever order
alternatives stand in and however far repetitions could go. The main statements
are `nil_mem_language_iff` on the empty word, `mem_language_of_consume`, that
what a match reads is a word of the language, and `matchIn_reads_language` on
matches between two bounds of a text.
-/

namespace TextGrammar

open scoped Computability

/-- What a repetition reads is made of words that single steps have read, none
of them empty. -/
theorem exists_words_of_exhaust
    {step : List Char → Option (List Char)}
    (stepSuffix : ∀ chars rest, step chars = some rest → rest <:+ chars)
    (chars : List Char) :
    ∃ words : List (List Char),
      chars = words.flatten ++ exhaust step chars ∧
        ∀ word ∈ words, word ≠ [] ∧
          ∃ after, step (word ++ after) = some after := by
  fun_induction exhaust step chars with
  | case1 chars stuck =>
      exact ⟨[], rfl, by simp⟩
  | case2 chars rest found shorter inductionHypothesis =>
      rcases stepSuffix chars rest found with ⟨word, rfl⟩
      rcases inductionHypothesis with ⟨words, split, read⟩
      have nonempty : word ≠ [] := by
        rintro rfl
        exact Nat.lt_irrefl _ shorter
      refine ⟨word :: words, ?_, ?_⟩
      · rw [List.flatten_cons, List.append_assoc, ← split]
      · exact List.forall_mem_cons.mpr ⟨⟨nonempty, rest, found⟩, read⟩
  | case3 chars rest found longer =>
      exact ⟨[], rfl, by simp⟩

namespace Recognizer

/-! ## The language of a tree -/

mutual

/-- The words that a recognizer describes. A repetition of at least one match
takes matches of one character or more. -/
def language : Recognizer → Language Char
  | literal word => {word.toList}
  | oneOf listed => {word | ∃ c ∈ listed, word = [c]}
  | ofClass classes => {word | ∃ c ∈ classes, word = [c]}
  | sequence parts => languageOfEach parts
  | choice alternatives => languageOfAny alternatives
  | zeroOrMore inner => (language inner)∗
  | oneOrMore inner => (language inner - 1) * (language inner - 1)∗

def languageOfEach : List Recognizer → Language Char
  | [] => 1
  | part :: parts => language part * languageOfEach parts

def languageOfAny : List Recognizer → Language Char
  | [] => 0
  | first :: others => language first + languageOfAny others

end

private theorem mem_languageOfAny_iff
    {word : List Char} {alternatives : List Recognizer} :
    word ∈ languageOfAny alternatives ↔
      ∃ r ∈ alternatives, word ∈ r.language := by
  induction alternatives with
  | nil =>
      simp [languageOfAny, Language.notMem_zero]
  | cons first others inductionHypothesis =>
      rw [languageOfAny, Language.mem_add, inductionHypothesis,
        List.exists_mem_cons_iff]

theorem nil_mem_mul_iff
    {left right : Language Char} :
    [] ∈ left * right ↔ [] ∈ left ∧ [] ∈ right := by
  rw [Language.mem_mul]
  constructor
  · rintro ⟨first, firstMember, second, secondMember, empty⟩
    obtain ⟨rfl, rfl⟩ := List.append_eq_nil_iff.mp empty
    exact ⟨firstMember, secondMember⟩
  · rintro ⟨leftMember, rightMember⟩
    exact ⟨[], leftMember, [], rightMember, rfl⟩

private theorem nil_mem_languageOfEach_iff
    {parts : List Recognizer} :
    [] ∈ languageOfEach parts ↔ ∀ part ∈ parts, [] ∈ part.language := by
  induction parts with
  | nil =>
      simp [languageOfEach]
  | cons part parts inductionHypothesis =>
      rw [languageOfEach, nil_mem_mul_iff, inductionHypothesis,
        List.forall_mem_cons]

/-- Just the nullable recognizers describe the empty word. -/
theorem nil_mem_language_iff
    {r : Recognizer} : [] ∈ r.language ↔ r.isNullable = true := by
  induction r with
  | literal word =>
      rw [language, isNullable]
      show [] = word.toList ↔ _
      rw [eq_comm]
      simp
  | oneOf listed =>
      rw [language, isNullable]
      show (∃ c ∈ listed, [] = [c]) ↔ _
      simp
  | ofClass classes =>
      rw [language, isNullable]
      show (∃ c ∈ classes, [] = [c]) ↔ _
      simp
  | sequence parts inductionHypothesis =>
      rw [language, nil_mem_languageOfEach_iff, isNullable,
        allNullable_eq_all, List.all_eq_true]
      exact forall₂_congr inductionHypothesis
  | choice alternatives inductionHypothesis =>
      rw [language, mem_languageOfAny_iff, isNullable, anyNullable_eq_any,
        List.any_eq_true]
      exact exists_congr fun r => and_congr_right (inductionHypothesis r)
  | zeroOrMore inner _ =>
      rw [language, isNullable]
      simp [Language.nil_mem_kstar]
  | oneOrMore inner _ =>
      rw [language, nil_mem_mul_iff, Language.mem_sub, isNullable]
      simp

def ReadsWords (r : Recognizer) : Prop :=
  ∀ word rest, r.consume (word ++ rest) = some rest → word ∈ r.language

private theorem mem_languageOfEach_of_consumeEach
    {parts : List Recognizer}
    (sound : ∀ part ∈ parts, part.ReadsWords)
    {word rest : List Char}
    (consumed : consumeEach parts (word ++ rest) = some rest) :
    word ∈ languageOfEach parts := by
  induction parts generalizing word with
  | nil =>
      rw [consumeEach_nil, Option.some.injEq,
        List.append_left_eq_self] at consumed
      rw [consumed, languageOfEach]
      exact Language.nil_mem_one
  | cons part parts inductionHypothesis =>
      rcases List.forall_mem_cons.mp sound with ⟨partSound, partsSound⟩
      rw [consumeEach_cons] at consumed
      rcases Option.bind_eq_some_iff.mp consumed with
        ⟨middle, partConsumed, partsConsumed⟩
      obtain ⟨first, split⟩ :=
        part.suffix_of_consume _ _ partConsumed
      obtain ⟨more, rfl⟩ := suffix_of_consumeEach parts _ _ partsConsumed
      rw [← List.append_assoc, List.append_cancel_right_eq] at split
      subst split
      rw [List.append_assoc] at partConsumed
      rw [languageOfEach]
      exact Language.append_mem_mul (partSound first _ partConsumed)
        (inductionHypothesis partsSound partsConsumed)

/-- The words that the rounds of a repetition read, in one list. -/
theorem exists_words_of_consume
    {inner : Recognizer} (sound : inner.ReadsWords)
    {word rest : List Char}
    (exhausted : exhaust inner.consume (word ++ rest) = rest) :
    ∃ words : List (List Char), word = words.flatten ∧
      ∀ item ∈ words, item ∈ inner.language - 1 := by
  obtain ⟨words, split, read⟩ :=
    exists_words_of_exhaust inner.suffix_of_consume (word ++ rest)
  rw [exhausted, List.append_cancel_right_eq] at split
  refine ⟨words, split, ?_⟩
  intro item member
  obtain ⟨nonempty, after, consumed⟩ := read item member
  exact (Language.mem_sub _ _ _).mpr ⟨sound item after consumed, nonempty⟩

/-- What a match reads is a word of the language. -/
theorem mem_language_of_consume
    (r : Recognizer) : r.ReadsWords := by
  induction r with
  | literal word =>
      intro read rest consumed
      rw [consume, afterWord?_eq_some_iff,
        List.append_cancel_right_eq] at consumed
      rw [consumed, language]
      rfl
  | oneOf listed =>
      intro word rest consumed
      rw [consume, afterChar?_eq_some_iff] at consumed
      obtain ⟨c, passed, split⟩ := consumed
      have one : word = [c] := List.append_cancel_right split
      rw [language]
      exact ⟨c, List.contains_iff_mem.mp passed, one⟩
  | ofClass classes =>
      intro word rest consumed
      rw [consume, afterChar?_eq_some_iff] at consumed
      obtain ⟨c, passed, split⟩ := consumed
      have one : word = [c] := List.append_cancel_right split
      rw [language]
      exact ⟨c, passed, one⟩
  | sequence parts inductionHypothesis =>
      intro word rest consumed
      rw [consume] at consumed
      rw [language]
      exact mem_languageOfEach_of_consumeEach inductionHypothesis consumed
  | choice alternatives inductionHypothesis =>
      intro word rest consumed
      rw [consume_choice] at consumed
      obtain ⟨r, member, found⟩ := List.exists_of_findSome?_eq_some consumed
      rw [language, mem_languageOfAny_iff]
      exact ⟨r, member, inductionHypothesis r member word rest found⟩
  | zeroOrMore inner inductionHypothesis =>
      intro word rest consumed
      rw [consume, Option.some.injEq] at consumed
      obtain ⟨words, rfl, read⟩ :=
        exists_words_of_consume inductionHypothesis consumed
      rw [language]
      apply Language.join_mem_kstar
      intro item member
      exact ((Language.mem_sub _ _ _).mp (read item member)).1
  | oneOrMore inner inductionHypothesis =>
      intro word rest consumed
      simp only [consume, Option.ite_none_right_eq_some,
        Option.some.injEq] at consumed
      obtain ⟨shorter, consumed⟩ := consumed
      obtain ⟨words, rfl, read⟩ :=
        exists_words_of_consume inductionHypothesis consumed
      rw [language]
      cases words with
      | nil =>
          rw [consumed] at shorter
          exact absurd shorter (Nat.lt_irrefl _)
      | cons first others =>
          rcases List.forall_mem_cons.mp read with ⟨firstRead, othersRead⟩
          exact Language.append_mem_mul firstRead
            (Language.join_mem_kstar othersRead)

theorem exists_word_of_matchIn
    {r : Recognizer} {text chars : List Char} {start stop finish : Nat}
    (readable : window? text start stop = some chars)
    (found : r.matchIn text start stop = some finish) :
    ∃ word, window? text start finish = some word ∧ word <+: chars ∧
      word ∈ r.language := by
  obtain ⟨word, rest, splitRead, consumed, rfl⟩ :=
    matchIn_eq_some_iff.mp found
  obtain rfl := Option.some.inj (readable.symm.trans splitRead)
  exact ⟨word, (window?_of_append readable).1, List.prefix_append word rest,
    r.mem_language_of_consume word rest consumed⟩

/-- What a match between two bounds reads is a word of the language, so there is
no match where the text between the bounds begins with no such word. If the empty
word is one, there is always a match. -/
theorem matchIn_reads_language
    (r : Recognizer) {text : List Char} {start stop : Nat}
    (ordered : start ≤ stop)
    (startBoundary : IsBoundary text start)
    (stopBoundary : IsBoundary text stop) :
    ∃ chars, window? text start stop = some chars ∧
      (∀ finish, r.matchIn text start stop = some finish →
        ∃ word, window? text start finish = some word ∧ word <+: chars ∧
          word ∈ r.language) ∧
      ((∀ word, word <+: chars → word ∉ r.language) →
        r.matchIn text start stop = none) ∧
      ([] ∈ r.language → ∃ finish, r.matchIn text start stop = some finish) := by
  obtain ⟨chars, readable⟩ :=
    exists_window?_iff.mpr ⟨ordered, startBoundary, stopBoundary⟩
  refine ⟨chars, readable, ?_, ?_, ?_⟩
  · intro finish found
    exact exists_word_of_matchIn readable found
  · intro noWord
    apply Option.eq_none_iff_forall_ne_some.mpr
    intro finish found
    obtain ⟨word, _, initial, member⟩ := exists_word_of_matchIn readable found
    exact noWord word initial member
  · intro emptyWord
    exact exists_matchIn_of_isNullable (nil_mem_language_iff.mp emptyWord)
      ordered startBoundary stopBoundary

/-- Of `12x` behind an accent, digits and an `x` read all. No word of the literal
`x` begins it, while blanks match there without reading anything. -/
theorem matchIn_reads_language_behind_accent :
    let text := ['é', '1', '2', 'x']
    let numbered := sequence [digits, literal "x"]
    2 ≤ 5 ∧ IsBoundary text 2 ∧ IsBoundary text 5 ∧
      numbered.matchIn text 2 5 = some 5 ∧
      ['1', '2', 'x'] ∈ numbered.language ∧
      (∀ word, word <+: ['1', '2', 'x'] → word ∉ (literal "x").language) ∧
      (literal "x").matchIn text 2 5 = none ∧
      [] ∈ blanks.language ∧
      ∃ finish, blanks.matchIn text 2 5 = some finish := by
  intro text numbered
  have ordered : 2 ≤ 5 := by decide
  have startBoundary : IsBoundary text 2 := by decide
  have stopBoundary : IsBoundary text 5 := by decide
  have read : window? text 2 5 = some ['1', '2', 'x'] := by decide
  have matched : numbered.matchIn text 2 5 = some 5 := by decide +kernel
  have noWord :
      ∀ word, word <+: ['1', '2', 'x'] → word ∉ (literal "x").language := by
    rintro word initial rfl
    exact absurd initial (by decide)
  have emptyWord : [] ∈ blanks.language := nil_mem_language_iff.mpr rfl
  obtain ⟨_, _, readsWord, _, _⟩ :=
    matchIn_reads_language numbered ordered startBoundary stopBoundary
  obtain ⟨_, readable, _, unmatched, _⟩ :=
    matchIn_reads_language (literal "x") ordered startBoundary stopBoundary
  obtain ⟨_, _, _, _, alwaysMatched⟩ :=
    matchIn_reads_language blanks ordered startBoundary stopBoundary
  obtain ⟨word, wordRead, _, member⟩ := readsWord 5 matched
  obtain rfl := Option.some.inj (read.symm.trans wordRead)
  obtain rfl := Option.some.inj (read.symm.trans readable)
  exact ⟨ordered, startBoundary, stopBoundary, matched, member, noWord,
    unmatched noWord, emptyWord, alwaysMatched emptyWord⟩

end Recognizer

end TextGrammar
