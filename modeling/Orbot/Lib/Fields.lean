import Mathlib.Data.List.Basic

/-! # Fields

The fields of a list are its longest non-empty parts without a separator.
Separators around a field, and how many there are, do not matter.
-/

namespace Orbot.Lib.Fields

variable {α : Type} (p : α → Bool)

def fields (s : List α) : List (List α) := (s.splitOnP p).filter (!·.isEmpty)

@[simp] theorem fields_nil : fields p [] = [] := by
  simp [fields]

variable {p}

theorem fields_append_cons (s rest : List α) {c : α} (separator : p c = true) :
    fields p (s ++ c :: rest) = fields p s ++ fields p rest := by
  rw [fields, List.splitOnP_append_cons s rest separator, List.filter_append, fields, fields]

theorem fields_cons (rest : List α) {c : α} (separator : p c = true) :
    fields p (c :: rest) = fields p rest := by
  have split := fields_append_cons [] rest separator
  rwa [fields_nil, List.nil_append, List.nil_append] at split

/-- A part without separators is one field. -/
theorem fields_single {s : List α} (nonempty : s ≠ []) (apart : ∀ c ∈ s, p c = false) :
    fields p s = [s] := by
  rw [fields, List.splitOnP_eq_singleton apart]
  simp [nonempty]

theorem fields_separators_append {front : List α} (separators : ∀ c ∈ front, p c = true)
    (s : List α) : fields p (front ++ s) = fields p s := by
  induction front with
  | nil => rfl
  | cons c front ih =>
      obtain ⟨first, others⟩ := List.forall_mem_cons.mp separators
      rw [List.cons_append, fields_cons _ first, ih others]

theorem fields_append_separators (s : List α) {back : List α}
    (separators : ∀ c ∈ back, p c = true) : fields p (s ++ back) = fields p s := by
  cases back with
  | nil => rw [List.append_nil]
  | cons c back =>
      obtain ⟨first, others⟩ := List.forall_mem_cons.mp separators
      have none := fields_separators_append others []
      rw [List.append_nil, fields_nil] at none
      rw [fields_append_cons s back first, none, List.append_nil]

/-- A list has no separator, or one behind a part without separators. -/
theorem separator_induction {motive : List α → Prop}
    (single : ∀ s, (∀ c ∈ s, p c = false) → motive s)
    (cons : ∀ s c rest, (∀ c ∈ s, p c = false) → p c = true → motive rest →
      motive (s ++ c :: rest)) (s : List α) : motive s := by
  have behind : ∀ front, (∀ c ∈ front, p c = false) → motive (front ++ s) := by
    induction s with
    | nil =>
        intro front apart
        rw [List.append_nil]
        exact single front apart
    | cons c s ih =>
        intro front apart
        cases separator : p c with
        | true => exact cons front c s apart separator (ih [] (List.forall_mem_nil _))
        | false =>
            rw [List.append_cons]
            apply ih
            exact List.forall_mem_append.mpr ⟨apart, List.forall_mem_singleton.mpr separator⟩
  exact behind [] (List.forall_mem_nil _)

/-- Where an element is not a separator, there is a field. -/
theorem fields_ne_nil {s : List α} {c : α} (inside : c ∈ s) (other : p c = false) :
    fields p s ≠ [] := by
  induction s using separator_induction (p := p) with
  | single s apart =>
      rw [fields_single (List.ne_nil_of_mem inside) apart]
      exact List.cons_ne_nil s []
  | cons s d rest apart separator ih =>
      rw [fields_append_cons s rest separator]
      rcases List.mem_append.mp inside with front | later
      · rw [fields_single (List.ne_nil_of_mem front) apart]
        exact List.cons_ne_nil s _
      · rcases List.mem_cons.mp later with rfl | behind
        · rw [other] at separator
          cases separator
        · exact List.append_ne_nil_of_right_ne_nil _ (ih behind)

/-- A field is not empty and has no separator. -/
theorem mem_fields {s field : List α} (member : field ∈ fields p s) :
    field ≠ [] ∧ ∀ c ∈ field, p c = false := by
  have single {s : List α} (apart : ∀ c ∈ s, p c = false) (member : field ∈ fields p s) :
      field ≠ [] ∧ ∀ c ∈ field, p c = false := by
    by_cases empty : s = []
    · rw [empty, fields_nil] at member
      cases member
    · rw [fields_single empty apart, List.mem_singleton] at member
      subst member
      exact ⟨empty, apart⟩
  induction s using separator_induction (p := p) with
  | single s apart => exact single apart member
  | cons s d rest apart separator ih =>
      rw [fields_append_cons s rest separator] at member
      rcases List.mem_append.mp member with front | later
      · exact single apart front
      · exact ih later

end Orbot.Lib.Fields
