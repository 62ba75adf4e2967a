import Mathlib.Data.List.Basic

/-! # What two lists have in common

How many elements two lists share at the front, and how many at the end. Both are
the largest numbers with the property, which is how they are used.
-/

namespace Orbot.Lib.CommonSuffix

variable {α : Type*} [DecidableEq α]

def sharedPrefix : List α → List α → ℕ
  | x :: xs, y :: ys => if x = y then sharedPrefix xs ys + 1 else 0
  | _, _ => 0

theorem le_sharedPrefix_iff {n : ℕ} {xs ys : List α} :
    n ≤ sharedPrefix xs ys ↔ n ≤ xs.length ∧ n ≤ ys.length ∧ xs.take n = ys.take n := by
  induction xs generalizing n ys with
  | nil =>
      cases n <;> simp [sharedPrefix]
  | cons x xs ih =>
      cases ys with
      | nil =>
          cases n <;> simp [sharedPrefix]
      | cons y ys =>
          cases n with
          | zero => simp
          | succ n =>
              by_cases same : x = y
              · simp [sharedPrefix, same, ih]
              · simp [sharedPrefix, same]

def sharedSuffix (xs ys : List α) : ℕ :=
  sharedPrefix xs.reverse ys.reverse

theorem le_sharedSuffix_iff {n : ℕ} {xs ys : List α} :
    n ≤ sharedSuffix xs ys ↔ n ≤ xs.length ∧ n ≤ ys.length ∧
      xs.drop (xs.length - n) = ys.drop (ys.length - n) := by
  simp only [sharedSuffix, le_sharedPrefix_iff, List.length_reverse, List.take_reverse,
    List.reverse_inj]

theorem sharedSuffix_le_left (xs ys : List α) : sharedSuffix xs ys ≤ xs.length :=
  (le_sharedSuffix_iff.mp (Nat.le_refl _)).1

theorem sharedSuffix_le_right (xs ys : List α) : sharedSuffix xs ys ≤ ys.length :=
  (le_sharedSuffix_iff.mp (Nat.le_refl _)).2.1

theorem drop_sharedSuffix (xs ys : List α) :
    xs.drop (xs.length - sharedSuffix xs ys) = ys.drop (ys.length - sharedSuffix xs ys) :=
  (le_sharedSuffix_iff.mp (Nat.le_refl _)).2.2

/-- Two lists with an end in common share at least that. -/
theorem le_sharedSuffix_of_drop {xs ys : List α} {i j : ℕ} (same : xs.drop i = ys.drop j) :
    xs.length - i ≤ sharedSuffix xs ys := by
  have lengths : xs.length - i = ys.length - j := by
    simpa using congrArg List.length same
  refine le_sharedSuffix_iff.mpr ⟨Nat.sub_le _ _, by omega, ?_⟩
  by_cases inside : i ≤ xs.length
  · by_cases inside' : j ≤ ys.length
    · rwa [Nat.sub_sub_self inside, lengths, Nat.sub_sub_self inside']
    · simp [lengths, Nat.sub_eq_zero_of_le (Nat.le_of_not_le inside')]
  · simp [Nat.sub_eq_zero_of_le (Nat.le_of_not_le inside)]

end Orbot.Lib.CommonSuffix
