import Mathlib.Data.List.Infix
import Orbot.Java.Text

/-! # The first occurrence of a text in another -/

namespace Orbot.Java

/-- `String.indexOf(String)`; `none` is -1. -/
def indexOfText (s part : Text) : Option ℕ := s.tails.findIdx? fun rest => part.isPrefixOf rest

variable {s part : Text}

theorem indexOfText_cons (c : Char) (s part : Text) :
    indexOfText (c :: s) part =
      if part.isPrefixOf (c :: s) then some 0 else (indexOfText s part).map (· + 1) := by
  rw [indexOfText, List.tails_cons, List.findIdx?_cons]
  rfl

theorem indexOfText_eq_none : indexOfText s part = none ↔ ¬ part <:+: s := by
  rw [indexOfText, List.findIdx?_eq_none_iff, List.infix_iff_prefix_suffix]
  constructor
  · rintro nowhere ⟨rest, isPrefix, isSuffix⟩
    have not := nowhere rest ((List.mem_tails _ _).mpr isSuffix)
    rw [List.isPrefixOf_iff_prefix.mpr isPrefix] at not
    cases not
  · intro nowhere rest member
    rw [Bool.eq_false_iff]
    exact fun isPrefix =>
      nowhere ⟨rest, List.isPrefixOf_iff_prefix.mp isPrefix, (List.mem_tails _ _).mp member⟩

/-- Where the part comes nowhere before its end, it is found there. -/
theorem indexOfText_append (rest : Text) (nowhere : ¬ part <:+: s ++ part.dropLast) :
    indexOfText (s ++ part ++ rest) part = some s.length := by
  induction s with
  | nil =>
      cases part with
      | nil => exact absurd (List.nil_infix) nowhere
      | cons c part =>
          rw [List.nil_append, List.cons_append, indexOfText_cons, ← List.cons_append,
            if_pos (List.isPrefixOf_iff_prefix.mpr (List.prefix_append _ _))]
          rfl
  | cons c s ih =>
      have later : ¬ part <:+: s ++ part.dropLast := fun inside =>
        nowhere (inside.trans (List.suffix_cons c _).isInfix)
      have notHere : ¬ part.isPrefixOf (c :: (s ++ part ++ rest)) = true := by
        intro isPrefix
        have short : part.length ≤ (c :: s ++ part.dropLast).length := by
          simp only [List.length_append, List.length_cons, List.length_dropLast]
          omega
        have whole : c :: s ++ part.dropLast <+: c :: (s ++ part ++ rest) := by
          rw [List.append_assoc, List.cons_append, List.prefix_cons_inj, List.prefix_append_right_inj]
          exact (List.dropLast_prefix part).trans (List.prefix_append _ _)
        exact nowhere (List.prefix_of_prefix_length_le
          (List.isPrefixOf_iff_prefix.mp isPrefix) whole short).isInfix
      rw [List.cons_append, List.cons_append, indexOfText_cons, if_neg notHere, ih later]
      rfl

end Orbot.Java
