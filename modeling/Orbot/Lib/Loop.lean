import Mathlib.Data.List.Basic

/-! # Loops that may fail

A loop over a list whose rounds have a result or fail. Where no round fails from a
state with some property and every round keeps it, the loop has a result with it.
-/

namespace Orbot.Lib.Loop

variable {σ α : Type} {f : σ → α → Option σ}

/-- Induction over the rounds. -/
theorem foldlM_some {P : σ → Prop} {xs : List α} {s : σ}
    (step : ∀ s, ∀ x ∈ xs, P s → ∃ s', f s x = some s' ∧ P s') (start : P s) :
    ∃ s', xs.foldlM f s = some s' ∧ P s' := by
  induction xs generalizing s with
  | nil => exact ⟨s, rfl, start⟩
  | cons x xs ih =>
      obtain ⟨s', first, kept⟩ := step s x List.mem_cons_self start
      obtain ⟨s'', rest, kept'⟩ := ih (fun s x mem => step s x (List.mem_cons_of_mem _ mem)) kept
      refine ⟨s'', ?_, kept'⟩
      rw [List.foldlM_cons, first, Option.bind_eq_bind, Option.bind_some, rest]

/-- What commutes with every round commutes with the loop. -/
theorem foldlM_commutes {m : σ → σ} (s : σ) (xs : List α)
    (step : ∀ s x, f (m s) x = (f s x).map m) :
    xs.foldlM f (m s) = (xs.foldlM f s).map m := by
  induction xs generalizing s with
  | nil => rfl
  | cons x xs ih =>
      rw [List.foldlM_cons, List.foldlM_cons, step]
      cases f s x with
      | none => rfl
      | some s' => exact ih s'

end Orbot.Lib.Loop
