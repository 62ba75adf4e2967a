import Mathlib.Data.List.Count

/-! # Undoing additions to a list

Entries are appended behind a base and later deleted one by one, each deletion
removing the first equal entry or nothing. What was added is gone, and the base
untouched, as soon as no deletion hits the base and the deletions cover the
additions with their multiplicities.
-/

namespace Orbot.Lib.Ledger

open List

variable {α : Type} [BEq α] [LawfulBEq α] {base added deleted : List α}

theorem diff_append_of_fresh (fresh : ∀ d ∈ deleted, d ∉ base) :
    (base ++ added).diff deleted = base ++ added.diff deleted := by
  induction deleted generalizing added with
  | nil => simp only [diff_nil]
  | cons d rest ih =>
      have absent : d ∉ base := fresh d (mem_cons_self ..)
      rw [diff_cons, diff_cons, erase_append_right _ absent,
        ih fun d' member => fresh d' (mem_cons_of_mem _ member)]

theorem diff_eq_nil_of_subperm (covered : added <+~ deleted) : added.diff deleted = [] := by
  apply eq_nil_iff_forall_not_mem.mpr
  intro e member
  have counted : 0 < (added.diff deleted).count e := count_pos_iff.mpr member
  rw [count_diff] at counted
  have atMost := covered.count_le e
  omega

/-- The deletions restore the base. -/
theorem diff_restores (fresh : ∀ d ∈ deleted, d ∉ base) (covered : added <+~ deleted) :
    (base ++ added).diff deleted = base := by
  rw [diff_append_of_fresh fresh, diff_eq_nil_of_subperm covered, append_nil]

end Orbot.Lib.Ledger
