import Mathlib.Data.List.Basic

/-! # Numbered items one after another

Each item of a list contributes a list that may depend on its number.
-/

namespace Orbot.Lib.Numbered

variable {A B : Type}

/-- The contributions of the items, the first of them having number i. -/
def numbered (f : ℕ → A → List B) : ℕ → List A → List B
  | _, [] => []
  | i, a :: rest => f i a ++ numbered f (i + 1) rest

variable (f : ℕ → A → List B)

@[simp] theorem numbered_nil (i : ℕ) : numbered f i [] = [] := rfl

@[simp] theorem numbered_cons (i : ℕ) (a : A) (rest : List A) :
    numbered f i (a :: rest) = f i a ++ numbered f (i + 1) rest := rfl

theorem numbered_append (i : ℕ) (items later : List A) :
    numbered f i (items ++ later) = numbered f i items ++ numbered f (i + items.length) later := by
  induction items generalizing i with
  | nil => rfl
  | cons a rest ih =>
      have number : i + 1 + rest.length = i + (a :: rest).length := by
        rw [List.length_cons]
        omega
      rw [List.cons_append, numbered_cons, numbered_cons, ih, List.append_assoc, number]

theorem numbered_concat (i : ℕ) (items : List A) (a : A) :
    numbered f i (items ++ [a]) = numbered f i items ++ f (i + items.length) a := by
  rw [numbered_append, numbered_cons, numbered_nil, List.append_nil]

/-- The contributions from a position on. -/
theorem numbered_split (i k : ℕ) (items : List A) (inside : k ≤ items.length) :
    numbered f i items = numbered f i (items.take k) ++ numbered f (i + k) (items.drop k) := by
  conv_lhs => rw [← List.take_append_drop k items]
  rw [numbered_append, List.length_take, Nat.min_eq_left inside]

end Orbot.Lib.Numbered
