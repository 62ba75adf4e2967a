import Mathlib.Data.List.Infix

/-! # Greedy matching

A pattern is a row of items, each a class of elements: one element of the class,
or as many as there are, which may be captured. A matcher tries the longest run
first and goes back to shorter ones where the rest of the pattern fails. It
begins at the front of the list; where it may stop is a parameter.
-/

namespace Orbot.Lib.GreedyMatch

variable {α : Type}

inductive Item (α : Type) where
  | one (p : α → Bool)
  | many (p : α → Bool)
  /-- `many`, captured -/
  | group (p : α → Bool)

/-- One element of the class or more. -/
def plus (p : α → Bool) : List (Item α) := [.one p, .many p]

def word [BEq α] (w : List α) : List (Item α) := w.map fun c => .one (· == c)

/-- The ways to cut a run of the class off the front, longest first. -/
def runs (p : α → Bool) : List α → List (List α × List α)
  | [] => [([], [])]
  | c :: s => (if p c then (runs p s).map (Prod.map (c :: ·) id) else []) ++ [([], c :: s)]

/-- What the first match captures. -/
def firstMatch (atEnd : List α → Bool) : List (Item α) → List α → Option (List (List α))
  | [], s => if atEnd s then some [] else none
  | .one p :: items, s =>
      match s with
      | [] => none
      | c :: rest => if p c then firstMatch atEnd items rest else none
  | .many p :: items, s => (runs p s).findSome? fun cut => firstMatch atEnd items cut.2
  | .group p :: items, s =>
      (runs p s).findSome? fun cut => (firstMatch atEnd items cut.2).map (cut.1 :: ·)

/-! ## Runs -/

/-- A run of the class at the front of the list, and what is behind it. -/
structure Cut (p : α → Bool) (s front rest : List α) : Prop where
  split : s = front ++ rest
  run : ∀ c ∈ front, p c = true

variable {p : α → Bool}

theorem mem_runs {s : List α} {cut : List α × List α} :
    cut ∈ runs p s ↔ Cut p s cut.1 cut.2 := by
  induction s generalizing cut with
  | nil =>
      rw [runs, List.mem_singleton]
      constructor
      · rintro rfl
        exact ⟨rfl, List.forall_mem_nil _⟩
      · intro isCut
        obtain ⟨front, rest⟩ := List.append_eq_nil_iff.mp isCut.split.symm
        exact Prod.ext front rest
  | cons c s ih =>
      rw [runs, List.mem_append, List.mem_singleton]
      constructor
      · rintro (longer | rfl)
        · split_ifs at longer with isP
          · obtain ⟨shorter, member, rfl⟩ := List.mem_map.mp longer
            obtain ⟨split, run⟩ := ih.mp member
            exact ⟨congrArg (c :: ·) split, List.forall_mem_cons.mpr ⟨isP, run⟩⟩
          · cases longer
        · exact ⟨rfl, List.forall_mem_nil _⟩
      · rintro ⟨split, run⟩
        obtain ⟨front, rest⟩ := cut
        cases front with
        | nil => exact .inr (Prod.ext rfl split.symm)
        | cons d front =>
            obtain ⟨rfl, remaining⟩ := List.cons.inj split
            obtain ⟨isP, others⟩ := List.forall_mem_cons.mp run
            rw [if_pos isP]
            exact .inl (List.mem_map.mpr ⟨(front, rest), ih.mpr ⟨remaining, others⟩, rfl⟩)

/-- Longer runs come first. -/
theorem runs_pairwise (s : List α) :
    (runs p s).Pairwise fun cut cut' => cut'.1.length < cut.1.length := by
  induction s with
  | nil => exact List.pairwise_singleton _ _
  | cons c s ih =>
      rw [runs, List.pairwise_append]
      refine ⟨?_, List.pairwise_singleton _ _, ?_⟩
      · split_ifs
        · rw [List.pairwise_map]
          exact ih.imp fun shorter => Nat.succ_lt_succ shorter
        · exact List.Pairwise.nil
      · intro cut member last isLast
        rw [List.mem_singleton.mp isLast]
        split_ifs at member
        · obtain ⟨shorter, -, rfl⟩ := List.mem_map.mp member
          exact Nat.succ_pos _
        · cases member

/-- The run that is taken is the longest with which the rest succeeds. -/
theorem findSome?_runs {β : Type} {f : List α × List α → Option β} {s : List α} {b : β} :
    (runs p s).findSome? f = some b ↔
      ∃ front rest, Cut p s front rest ∧ f (front, rest) = some b ∧
        ∀ front' rest', Cut p s front' rest' → front.length < front'.length →
          f (front', rest') = none := by
  rw [List.findSome?_eq_some_iff]
  constructor
  · rintro ⟨before, ⟨front, rest⟩, after, order, found, failed⟩
    have ordered := runs_pairwise (p := p) s
    rw [order] at ordered
    have taken : (front, rest) ∈ runs p s := by
      rw [order]
      exact List.mem_append_right _ (List.mem_cons_self ..)
    refine ⟨front, rest, mem_runs.mp taken, found, fun front' rest' isCut longer => ?_⟩
    have member : (front', rest') ∈ before ++ (front, rest) :: after := order ▸ mem_runs.mpr isCut
    rcases List.mem_append.mp member with earlier | later
    · exact failed _ earlier
    · rcases List.mem_cons.mp later with same | later
      · cases same
        exact absurd longer (Nat.lt_irrefl _)
      · have shorter := (List.pairwise_cons.mp (List.pairwise_append.mp ordered).2.1).1 _ later
        exact absurd longer (Nat.lt_asymm shorter)
  · rintro ⟨front, rest, isCut, found, failed⟩
    have taken : (front, rest) ∈ runs p s := mem_runs.mpr isCut
    obtain ⟨before, after, order⟩ := List.append_of_mem taken
    have ordered := runs_pairwise (p := p) s
    rw [order] at ordered
    refine ⟨before, (front, rest), after, order, found, fun cut earlier => ?_⟩
    have longer := (List.pairwise_append.mp ordered).2.2 cut earlier _ (List.mem_cons_self ..)
    exact failed cut.1 cut.2 (mem_runs.mp (order ▸ List.mem_append_left _ earlier)) longer

/-! ## Items -/

section Items

variable {atEnd : List α → Bool} {items : List (Item α)} {s : List α} {found : List (List α)}

theorem firstMatch_nil : firstMatch atEnd [] s = some found ↔ found = [] ∧ atEnd s = true := by
  rw [firstMatch]
  split_ifs with ended
  · simp [ended, eq_comm]
  · simp [ended]

theorem firstMatch_one :
    firstMatch atEnd (.one p :: items) s = some found ↔
      ∃ c rest, s = c :: rest ∧ p c = true ∧ firstMatch atEnd items rest = some found := by
  cases s with
  | nil => simp [firstMatch]
  | cons c rest =>
      rw [firstMatch]
      split_ifs with isP
      · simp [isP]
      · simp [isP]

theorem firstMatch_many :
    firstMatch atEnd (.many p :: items) s = some found ↔
      ∃ front rest, Cut p s front rest ∧ firstMatch atEnd items rest = some found ∧
        ∀ front' rest', Cut p s front' rest' → front.length < front'.length →
          firstMatch atEnd items rest' = none := by
  rw [firstMatch, findSome?_runs]

/-- One element or more, and as many as leave a match of the rest. -/
theorem firstMatch_plus :
    firstMatch atEnd (plus p ++ items) s = some found ↔
      ∃ front rest, front ≠ [] ∧ Cut p s front rest ∧ firstMatch atEnd items rest = some found ∧
        ∀ front' rest', Cut p s front' rest' → front.length < front'.length →
          firstMatch atEnd items rest' = none := by
  rw [plus, List.cons_append, List.singleton_append, firstMatch_one]
  constructor
  · rintro ⟨c, behind, rfl, isP, matched⟩
    obtain ⟨front, rest, ⟨rfl, run⟩, here, failed⟩ := firstMatch_many.mp matched
    refine ⟨c :: front, rest, List.cons_ne_nil _ _, ⟨rfl, List.forall_mem_cons.mpr ⟨isP, run⟩⟩,
      here, ?_⟩
    rintro front' rest' ⟨split, run'⟩ longer
    cases front' with
    | nil => exact absurd longer (Nat.not_lt_zero _)
    | cons d front' =>
        obtain ⟨rfl, remaining⟩ := List.cons.inj split
        exact failed front' rest' ⟨remaining, (List.forall_mem_cons.mp run').2⟩
          (Nat.lt_of_succ_lt_succ longer)
  · rintro ⟨front, rest, some, ⟨rfl, run⟩, here, failed⟩
    obtain ⟨c, front, rfl⟩ := List.exists_cons_of_ne_nil some
    obtain ⟨isP, others⟩ := List.forall_mem_cons.mp run
    refine ⟨c, front ++ rest, rfl, isP, firstMatch_many.mpr
      ⟨front, rest, ⟨rfl, others⟩, here, fun front' rest' isCut longer => ?_⟩⟩
    exact failed (c :: front') rest'
      ⟨congrArg (c :: ·) isCut.split, List.forall_mem_cons.mpr ⟨isP, isCut.run⟩⟩
      (Nat.succ_lt_succ longer)

theorem firstMatch_word [BEq α] [LawfulBEq α] (w : List α) :
    firstMatch atEnd (word w ++ items) s = some found ↔
      ∃ rest, s = w ++ rest ∧ firstMatch atEnd items rest = some found := by
  induction w generalizing s with
  | nil => simp [word]
  | cons c w ih =>
      have first : word (c :: w) ++ items = .one (· == c) :: (word w ++ items) := rfl
      rw [first, firstMatch_one]
      constructor
      · rintro ⟨d, behind, rfl, same, matched⟩
        obtain ⟨rest, rfl, here⟩ := ih.mp matched
        obtain rfl := beq_iff_eq.mp same
        exact ⟨rest, rfl, here⟩
      · rintro ⟨rest, rfl, here⟩
        exact ⟨c, w ++ rest, rfl, beq_self_eq_true c, ih.mpr ⟨rest, rfl, here⟩⟩

/-- In front of an element of another class all of a run is captured. -/
theorem firstMatch_group_one {q : α → Bool} (apart : ∀ c, q c = true → p c = false) :
    firstMatch atEnd (.group p :: .one q :: items) s = some found ↔
      ∃ front c rest later, found = front :: later ∧ Cut p s front (c :: rest) ∧ q c = true ∧
        firstMatch atEnd items rest = some later := by
  rw [firstMatch, findSome?_runs]
  constructor
  · rintro ⟨front, behind, isCut, matched, -⟩
    obtain ⟨later, here, rfl⟩ := Option.map_eq_some_iff.mp matched
    obtain ⟨c, rest, rfl, isQ, remaining⟩ := firstMatch_one.mp here
    exact ⟨front, c, rest, later, rfl, isCut, isQ, remaining⟩
  · rintro ⟨front, c, rest, later, rfl, isCut, isQ, remaining⟩
    have here : firstMatch atEnd (.one q :: items) (c :: rest) = some later :=
      firstMatch_one.mpr ⟨c, rest, rfl, isQ, remaining⟩
    refine ⟨front, c :: rest, isCut, by rw [here]; rfl, fun front' rest' isCut' longer => ?_⟩
    -- a longer run would reach over the element behind the shorter one
    have inside : c ∈ front' := by
      have split := isCut.split.symm.trans isCut'.split
      have shorter := List.prefix_of_prefix_length_le (List.prefix_append front (c :: rest))
        (split ▸ List.prefix_append front' rest') (Nat.le_of_lt longer)
      obtain ⟨between, rfl⟩ := shorter
      rw [List.append_assoc] at split
      have behind := List.append_cancel_left split
      cases between with
      | nil => simp at longer
      | cons d between =>
          obtain ⟨rfl, -⟩ := List.cons.inj behind
          simp
    have isP := isCut'.run c inside
    rw [apart c isQ] at isP
    cases isP

/-! ## Whether there is a match -/

theorem isSome_many :
    (firstMatch atEnd (.many p :: items) s).isSome = true ↔
      ∃ front rest, Cut p s front rest ∧ (firstMatch atEnd items rest).isSome = true := by
  rw [firstMatch, List.findSome?_isSome_iff]
  constructor
  · rintro ⟨cut, member, matched⟩
    exact ⟨cut.1, cut.2, mem_runs.mp member, matched⟩
  · rintro ⟨front, rest, isCut, matched⟩
    exact ⟨(front, rest), mem_runs.mpr isCut, matched⟩

theorem isSome_plus :
    (firstMatch atEnd (plus p ++ items) s).isSome = true ↔
      ∃ front rest, front ≠ [] ∧ Cut p s front rest ∧
        (firstMatch atEnd items rest).isSome = true := by
  constructor
  · intro matched
    obtain ⟨found, first⟩ := Option.isSome_iff_exists.mp matched
    obtain ⟨front, rest, some, isCut, here, -⟩ := firstMatch_plus.mp first
    exact ⟨front, rest, some, isCut, Option.isSome_iff_exists.mpr ⟨found, here⟩⟩
  · rintro ⟨front, rest, some, ⟨rfl, run⟩, matched⟩
    obtain ⟨c, front, rfl⟩ := List.exists_cons_of_ne_nil some
    obtain ⟨isP, others⟩ := List.forall_mem_cons.mp run
    obtain ⟨found, here⟩ := Option.isSome_iff_exists.mp
      (isSome_many.mpr ⟨front, rest, ⟨rfl, others⟩, matched⟩)
    exact Option.isSome_iff_exists.mpr
      ⟨found, firstMatch_one.mpr ⟨c, front ++ rest, rfl, isP, here⟩⟩

/-- A last run of one or more captures nothing. -/
theorem firstMatch_plus_end :
    firstMatch atEnd (plus p) s = some found ↔
      found = [] ∧ ∃ front rest, front ≠ [] ∧ Cut p s front rest ∧ atEnd rest = true := by
  have captures {found : List (List α)} (first : firstMatch atEnd (plus p) s = some found) :
      found = [] ∧ ∃ front rest, front ≠ [] ∧ Cut p s front rest ∧ atEnd rest = true := by
    rw [← List.append_nil (plus p)] at first
    obtain ⟨front, rest, some, isCut, here, -⟩ := firstMatch_plus.mp first
    obtain ⟨none, ended⟩ := firstMatch_nil.mp here
    exact ⟨none, front, rest, some, isCut, ended⟩
  constructor
  · exact captures
  · rintro ⟨rfl, front, rest, some, isCut, ended⟩
    have last : (firstMatch atEnd [] rest).isSome = true :=
      Option.isSome_iff_exists.mpr ⟨[], firstMatch_nil.mpr ⟨rfl, ended⟩⟩
    have whole : (firstMatch atEnd (plus p ++ []) s).isSome = true :=
      isSome_plus.mpr ⟨front, rest, some, isCut, last⟩
    obtain ⟨found, here⟩ := Option.isSome_iff_exists.mp whole
    rw [List.append_nil] at here
    rw [here, (captures here).1]

end Items

end Orbot.Lib.GreedyMatch
