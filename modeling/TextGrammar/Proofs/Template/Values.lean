import TextGrammar.Proofs.Escape.Triplets
import TextGrammar.Proofs.Template.Stages

/-!
Values in filled templates. What stands for a placeholder in a filled text is its
value as an escaped component, so it holds unreserved characters and percent signs
only. It is a part of a URI just if no character of the value is above `U+00FF`
(`substituted_uriPart_iff`); the euro sign is no such value.
-/

namespace TextGrammar.Template

variable {value? : String → Option String}

/-- What stands for a group is the escaped value of a name. -/
theorem Layout.Substitutes.exists_value
    {layout : Layout} {before substituted after : List Char}
    (substitutes : layout.Substitutes value? before substituted after) :
    ∃ name value, value? name = some value ∧
      substituted = (Escape.uriComponent value).toList := by
  induction substitutes with
  | @here gap inside free balanced rest value bound =>
      rcases Option.bind_eq_some_iff.mp bound with ⟨name, _, found⟩
      exact ⟨String.ofList name, value, found, rfl⟩
  | later further inductionHypothesis =>
      exact inductionHypothesis

/-- Every value in a filled text is written unit by unit, in unreserved
characters and percent signs. It is a part of a URI just if all characters of the
value are narrow. -/
theorem substituted_uriPart_iff
    (value? : String → Option String) (template : String) :
    ∃ (layout : Layout) (rendering : Rendering),
      layout.text = template.toList ∧
        render value? template = .ok rendering ∧
        ∀ before substituted after,
          layout.Substitutes value? before substituted after →
            rendering.text.toList = before ++ substituted ++ after ∧
              ∃ name value, value? name = some value ∧
                (∃ pieces,
                  List.Forall₂ (Escape.Written Escape.unreserved)
                    (value.toList.flatMap Escape.unitsOf) pieces ∧
                  substituted = pieces.flatten) ∧
                (∀ c ∈ substituted, c ∈ Escape.unreserved ∨ c = '%') ∧
                (Escape.UriPart substituted ↔
                  ∀ c ∈ value.toList, c.toNat < 256) := by
  obtain ⟨layout, whole⟩ := Layout.exists_text_eq template.toList
  obtain ⟨_, warnings, _, _, rendered⟩ := exists_render value? layout
  rw [whole, String.ofList_toList] at rendered
  refine ⟨layout, _, whole, rendered, ?_⟩
  intro before substituted after substitutes
  have split := substitutes.filledText_eq
  rcases substitutes.exists_value with ⟨name, value, found, rfl⟩
  have escapes := Escape.escapesAllBut_encode Escape.keptInComponent
  rw [Escape.setOf_mem_keptInComponent] at escapes
  refine ⟨?_, name, value, found, escapes.exists_written value,
    fun _ => Escape.mem_unreserved_or_eq_of_uriComponent,
    Escape.uriPart_uriComponent_iff⟩
  rw [String.toList_ofList]
  exact split

/-- The escaped euro sign in a filled text is no part of a URI. -/
theorem substituted_euro_not_uriPart :
    let value? := fun name => if name = "q" then some "€" else none
    ∃ (layout : Layout) (rendering : Rendering),
      layout.text = "{q}".toList ∧
        render value? "{q}" = .ok rendering ∧
        rendering.text = "%u20AC" ∧
        layout.Substitutes value? [] "%u20AC".toList [] ∧
        ¬ Escape.UriPart "%u20AC".toList := by
  intro value?
  have balanced : Balanced '{' '}' ['q'] :=
    ⟨(closeGroup?_eq_none_iff (by decide)).mp (by simp [closeGroup?]), by simp⟩
  have nothing : NeverCloses '{' '}' [] :=
    (findGroup?_eq_none_iff (by decide)).mp rfl
  let layout : Layout :=
    .piece [] ['q'] List.not_mem_nil balanced (.tail [] nothing)
  have escaped : (Escape.uriComponent "€").toList = "%u20AC".toList := by
    decide +kernel
  have substitutes : layout.Substitutes value? [] "%u20AC".toList [] := by
    rw [← escaped]
    exact .here rfl
  obtain ⟨_, warnings, _, _, rendered⟩ := exists_render value? layout
  have filled : layout.filledText value? = "%u20AC".toList := by
    rw [substitutes.filledText_eq]
    rfl
  rw [filled, String.ofList_toList] at rendered
  refine ⟨layout, _, rfl, rendered, rfl, substitutes, ?_⟩
  rw [← escaped, Escape.uriPart_uriComponent_iff]
  intro narrow
  exact absurd (narrow '€' (by decide)) (by decide)

end TextGrammar.Template
