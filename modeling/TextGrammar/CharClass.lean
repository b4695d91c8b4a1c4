/-!
Classes of ASCII characters. A class set is a word of sixteen bits, one for
each primitive class, so one test answers for a union of classes. Characters
outside ASCII belong to no class. The main statement is `mem_union_iff`: a
union holds just the characters of its parts.
-/

namespace TextGrammar

/-- A set of character classes. Bits that name no class are kept, and no
character has them. -/
structure CharClass where
  bits : UInt16
deriving DecidableEq, Repr

namespace CharClass

instance : EmptyCollection CharClass := ⟨⟨0⟩⟩

instance : Union CharClass := ⟨fun left right => ⟨left.bits ||| right.bits⟩⟩

def digit : CharClass := ⟨1⟩
def lowercase : CharClass := ⟨2⟩
def uppercase : CharClass := ⟨4⟩
def whitespace : CharClass := ⟨8⟩
def numberSign : CharClass := ⟨16⟩
def uriReserved : CharClass := ⟨32⟩
def uriMark : CharClass := ⟨64⟩
def escapeSymbol : CharClass := ⟨128⟩
def hexDigit : CharClass := ⟨256⟩
def letter : CharClass := lowercase ∪ uppercase
def alphanumeric : CharClass := letter ∪ digit

/-- The six ASCII blanks: space, tab, newline, carriage return, vertical tab
and form feed. -/
def isBlank (c : Char) : Bool :=
  [' ', '\t', '\n', '\r', '\x0b', '\x0c'].contains c

/-- A decimal digit or a letter from `a` to `f` in either case. -/
def isHexDigit (c : Char) : Bool :=
  c.isDigit || ('a' ≤ c && c ≤ 'f') || ('A' ≤ c && c ≤ 'F')

/-- Each primitive class with the test of its characters. -/
def primitives : List (CharClass × (Char → Bool)) :=
  [(digit, Char.isDigit),
    (lowercase, Char.isLower),
    (uppercase, Char.isUpper),
    (whitespace, isBlank),
    (numberSign, (· == '#')),
    (uriReserved, [';', '/', '?', ':', '@', '&', '=', '+', '$', ','].contains),
    (uriMark, ['-', '_', '.', '!', '~', '*', '\'', '(', ')'].contains),
    (escapeSymbol, ['@', '*', '_', '+', '-', '.', '/'].contains),
    (hexDigit, isHexDigit)]

/-- All classes to which a character belongs. -/
def of (c : Char) : CharClass :=
  primitives.foldl
    (fun found (primitive, test) => if test c then found ∪ primitive else found)
    ∅

/-- Whether a character belongs to any class of the set. -/
def contains (classes : CharClass) (c : Char) : Bool :=
  (of c).bits &&& classes.bits != 0

instance : Membership Char CharClass :=
  ⟨fun classes c => classes.contains c = true⟩

instance (c : Char) (classes : CharClass) : Decidable (c ∈ classes) :=
  inferInstanceAs (Decidable (classes.contains c = true))

theorem mem_iff
    {c : Char} {classes : CharClass} :
    c ∈ classes ↔ classes.contains c = true := Iff.rfl

theorem mem_union_iff
    {c : Char} {left right : CharClass} :
    c ∈ left ∪ right ↔ c ∈ left ∨ c ∈ right := by
  have bitsOr : (left ∪ right).bits = left.bits ||| right.bits := rfl
  have split :
      (of c).bits &&& (left.bits ||| right.bits) =
        ((of c).bits &&& left.bits) ||| ((of c).bits &&& right.bits) := by
    apply UInt16.toBitVec_inj.mp
    simp only [UInt16.toBitVec_and, UInt16.toBitVec_or]
    ext i
    simp [Bool.and_or_distrib_left]
  simp only [mem_iff, contains, bitsOr, split, bne_iff_ne, ne_eq,
    UInt16.or_eq_zero_iff]
  grind

theorem not_mem_empty
    (c : Char) : c ∉ (∅ : CharClass) := by
  have bitsZero : (∅ : CharClass).bits = 0 := rfl
  simp [mem_iff, contains, bitsZero]

end CharClass

end TextGrammar
