import Mathlib.Data.List.Basic

/-! # First-match chains

A chain is a list of rules tried in order; the first rule that fires decides.
Rules and packets are arbitrary: `fires` says when a rule applies to a packet
and `target` what it decides.
-/

namespace Orbot.Lib.FirstMatch

variable {R P V : Type} (fires : R → P → Bool) (target : R → V)

/-- The target of the first rule that fires; `none` leaves it to the policy. -/
def verdict (chain : List R) (p : P) : Option V :=
  (chain.find? (fires · p)).map target

@[simp] theorem verdict_nil (p : P) : verdict fires target [] p = none := rfl

theorem verdict_cons (r : R) (chain : List R) (p : P) :
    verdict fires target (r :: chain) p =
      if fires r p then some (target r) else verdict fires target chain p := by
  by_cases fired : fires r p
  · simp [verdict, fired]
  · simp [verdict, fired]

/-- A chain extended at its end decides as before, and asks the new rules only
    where it had no verdict. -/
theorem verdict_append (chain added : List R) (p : P) :
    verdict fires target (chain ++ added) p =
      (verdict fires target chain p).or (verdict fires target added p) := by
  simp only [verdict, List.find?_append, Option.map_or]

theorem verdict_eq_none {chain : List R} {p : P} (silent : ∀ r ∈ chain, fires r p = false) :
    verdict fires target chain p = none := by
  have missing : chain.find? (fires · p) = none := by
    simpa only [List.find?_eq_none, Bool.not_eq_true] using silent
  simp only [verdict, missing, Option.map_none]

/-- When all rules that fire agree on a target, it does not matter which comes
    first. -/
theorem verdict_eq_of_agree {chain : List R} {p : P} {v : V}
    (some_fires : ∃ r ∈ chain, fires r p = true)
    (agree : ∀ r ∈ chain, fires r p = true → target r = v) :
    verdict fires target chain p = some v := by
  obtain ⟨r, member, fired⟩ := some_fires
  cases found : chain.find? (fires · p) with
  | none => exact absurd fired (by simpa using List.find?_eq_none.mp found r member)
  | some first =>
      have inside : first ∈ chain := List.mem_of_find?_eq_some found
      have firstFires : fires first p = true := by simpa using List.find?_some found
      simp only [verdict, found, Option.map_some, agree first inside firstFires]

/-- A chain whose rules all have one target. -/
theorem verdict_of_same_target {chain : List R} {p : P} {v : V}
    (same : ∀ r ∈ chain, target r = v) :
    verdict fires target chain p = if ∃ r ∈ chain, fires r p = true then some v else none := by
  by_cases fired : ∃ r ∈ chain, fires r p = true
  · rw [if_pos fired]
    exact verdict_eq_of_agree fires target fired fun r member _ => same r member
  · rw [if_neg fired]
    apply verdict_eq_none
    intro r member
    by_contra fires
    exact fired ⟨r, member, by simpa using fires⟩

end Orbot.Lib.FirstMatch
