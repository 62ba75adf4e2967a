import Mathlib.Data.List.Sort

/-! # Searching a sorted list

Binary search by halving a window, over an arbitrary linear order. A found key
is answered with its index, an absent one with a negative number that encodes
where it would have to be inserted.
-/

namespace Orbot.Lib.SortedSearch

variable {α : Type} [LinearOrder α]

/-- Search the window from `low` up to and excluding `high`. -/
def searchFrom (xs : List α) (key : α) (low high : Nat) : Int :=
  if low < high then
    match xs[(low + high - 1) / 2]? with
    | none => -(low + 1)
    | some midVal =>
        if midVal < key then searchFrom xs key ((low + high - 1) / 2 + 1) high
        else if key < midVal then searchFrom xs key low ((low + high - 1) / 2)
        else ((low + high - 1) / 2 : Nat)
  else -(low + 1)
termination_by high - low

def binarySearch (xs : List α) (key : α) : Int :=
  searchFrom xs key 0 xs.length

variable {xs : List α} {key : α}

/-- An index that is answered holds the key, whether the list is sorted or not. -/
theorem searchFrom_sound {low high : Nat} (found : 0 ≤ searchFrom xs key low high) : key ∈ xs := by
  fun_induction searchFrom xs key low high with
  | case1 => omega
  | case2 low high _ midVal _ _ ih => exact ih found
  | case3 low high _ midVal _ _ _ ih => exact ih found
  | case4 low high _ midVal at_mid notBelow notAbove =>
      obtain rfl : midVal = key := le_antisymm (not_lt.mp notAbove) (not_lt.mp notBelow)
      exact List.mem_of_getElem? at_mid
  | case5 => omega

theorem le_of_getElem? (sorted : xs.Pairwise (· ≤ ·)) {i j : Nat} {x y : α} (ordered : i ≤ j)
    (at_i : xs[i]? = some x) (at_j : xs[j]? = some y) : x ≤ y := by
  obtain ⟨inside, rfl⟩ := List.getElem?_eq_some_iff.mp at_i
  obtain ⟨inside', rfl⟩ := List.getElem?_eq_some_iff.mp at_j
  rcases Nat.eq_or_lt_of_le ordered with rfl | before
  · exact le_rfl
  · exact List.pairwise_iff_getElem.mp sorted i j inside inside' before

/-- In a sorted list the half that is given up cannot hold the key. -/
theorem searchFrom_complete (sorted : xs.Pairwise (· ≤ ·)) {low high i : Nat}
    (inside : high ≤ xs.length) (above : low ≤ i) (below : i < high) (at_i : xs[i]? = some key) :
    0 ≤ searchFrom xs key low high := by
  fun_induction searchFrom xs key low high with
  | case1 low high window missing =>
      have outside := List.getElem?_eq_none_iff.mp missing
      omega
  | case2 low high window midVal at_mid small ih =>
      have after : (low + high - 1) / 2 < i := by
        by_contra notAfter
        have ordered := le_of_getElem? sorted (Nat.le_of_not_lt notAfter) at_i at_mid
        exact absurd small (not_lt.mpr ordered)
      exact ih inside after below
  | case3 low high window midVal at_mid _ large ih =>
      have before : i < (low + high - 1) / 2 := by
        by_contra notBefore
        have ordered := le_of_getElem? sorted (Nat.le_of_not_lt notBefore) at_mid at_i
        exact absurd large (not_lt.mpr ordered)
      exact ih (by omega) above before
  | case4 => omega
  | case5 => omega

theorem binarySearch_nonneg_iff (sorted : xs.Pairwise (· ≤ ·)) :
    0 ≤ binarySearch xs key ↔ key ∈ xs := by
  constructor
  · exact searchFrom_sound
  · intro member
    obtain ⟨i, inside, at_i⟩ := List.getElem_of_mem member
    exact searchFrom_complete sorted le_rfl (Nat.zero_le i) inside
      (List.getElem?_eq_some_iff.mpr ⟨inside, at_i⟩)

/-- Sorting first makes binary search a membership test of the original list. -/
theorem binarySearch_mergeSort_nonneg_iff :
    0 ≤ binarySearch (xs.mergeSort (· ≤ ·)) key ↔ key ∈ xs := by
  have sorted := List.pairwise_mergeSort' (· ≤ ·) xs
  rw [binarySearch_nonneg_iff sorted, List.mem_mergeSort]

end Orbot.Lib.SortedSearch
