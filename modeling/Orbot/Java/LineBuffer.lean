import Mathlib.Data.List.Infix
import Orbot.Java.Text

/-! # Lines from a stream that is still written to

A reader that waits for a line gets it as soon as its terminator is there. A
line feed after a carriage return belongs to the terminator even where it is
written later.
-/

namespace Orbot.Java

/-- What was written to a stream, in lines. -/
structure LineBuffer where
  ended : List Text := []
  /-- the line that has no terminator yet -/
  current : Text := []
  /-- the last character was a carriage return -/
  skipLF : Bool := false
  skips : skipLF = true → current = [] := by simp
  deriving Repr, DecidableEq

namespace LineBuffer

def empty : LineBuffer := {}

variable (b : LineBuffer)

def put (c : Char) : LineBuffer :=
  if c = '\n' then
    if b.skipLF then { b with skipLF := false, skips := nofun }
    else { ended := b.ended ++ [b.current], current := [], skipLF := false }
  else if c = '\r' then { ended := b.ended ++ [b.current], current := [], skipLF := true }
  else { b with current := b.current ++ [c], skipLF := false, skips := nofun }

def write (s : Text) : LineBuffer := s.foldl put b

/-- The lines there are when nothing more is written. -/
def all : List Text := b.ended ++ if b.current = [] then [] else [b.current]

@[simp] theorem write_nil : b.write [] = b := rfl

@[simp] theorem write_cons (c : Char) (s : Text) : b.write (c :: s) = (b.put c).write s := rfl

theorem write_append (s t : Text) : b.write (s ++ t) = (b.write s).write t := List.foldl_append

theorem put_char {c : Char} (notCr : c ≠ '\r') (notLf : c ≠ '\n') :
    b.put c = { b with current := b.current ++ [c], skipLF := false, skips := nofun } := by
  rw [put, if_neg notLf, if_neg notCr]

/-! ## Earlier lines -/

/-- Behind lines that were there before. -/
def after (lines : List Text) : LineBuffer := { b with ended := lines ++ b.ended }

theorem all_after (lines : List Text) : (b.after lines).all = lines ++ b.all :=
  List.append_assoc _ _ _

theorem put_after (lines : List Text) (c : Char) : (b.after lines).put c = (b.put c).after lines := by
  unfold put after
  split_ifs <;> simp [List.append_assoc]

theorem write_after (lines : List Text) (s : Text) :
    (b.after lines).write s = (b.write s).after lines := by
  induction s generalizing b with
  | nil => rfl
  | cons c s ih => rw [write_cons, write_cons, put_after, ih]

theorem ended_prefix_put (c : Char) : b.ended <+: (b.put c).ended := by
  unfold put
  split_ifs
  · exact List.prefix_refl _
  · exact List.prefix_append _ _
  · exact List.prefix_append _ _
  · exact List.prefix_refl _

/-- A line that has ended stays. -/
theorem ended_prefix (s : Text) : b.ended <+: (b.write s).ended := by
  induction s generalizing b with
  | nil => exact List.prefix_refl _
  | cons c s ih => exact (ended_prefix_put b c).trans (ih (b.put c))

/-! ## One line more -/

theorem write_oneLine {s : Text} (oneLine : OneLine s) (nonempty : s ≠ []) :
    b.write s = { b with current := b.current ++ s, skipLF := false, skips := nofun } := by
  induction s generalizing b with
  | nil => exact absurd rfl nonempty
  | cons c s ih =>
      obtain ⟨⟨notCr, notLf⟩, remaining⟩ := oneLine_cons.mp oneLine
      rw [write_cons, put_char b notCr notLf]
      cases s with
      | nil => rfl
      | cons d s =>
          rw [ih _ remaining (List.cons_ne_nil _ _)]
          simp [List.append_assoc]

theorem write_line {s : Text} (oneLine : OneLine s) (nonempty : s ≠ []) :
    b.write (s ++ ['\n']) = empty.after (b.ended ++ [b.current ++ s]) := by
  rw [write_append, write_oneLine b oneLine nonempty]
  simp [put, after, empty]

/-! ## The lines of a text -/

theorem put_cases (c : Char) :
    (b.skipLF = true ∧ c = '\n' ∧ b.put c = { b with skipLF := false, skips := nofun }) ∨
      ((c = '\r' ∨ c = '\n' ∧ b.skipLF = false) ∧ (b.put c).ended = b.ended ++ [b.current] ∧
        (b.put c).current = [] ∧ (b.put c).skipLF = decide (c = '\r')) ∨
      (c ≠ '\r' ∧ c ≠ '\n' ∧
        b.put c = { b with current := b.current ++ [c], skipLF := false, skips := nofun }) := by
  by_cases lf : c = '\n'
  · subst lf
    cases skip : b.skipLF with
    | true => exact .inl ⟨rfl, rfl, by simp [put, skip]⟩
    | false => exact .inr (.inl ⟨.inr ⟨rfl, rfl⟩, by simp [put, skip]⟩)
  · by_cases cr : c = '\r'
    · exact .inr (.inl ⟨.inl cr, by simp [put, cr]⟩)
    · exact .inr (.inr ⟨cr, lf, put_char b cr lf⟩)

/-- Every line is a part of what was written. -/
theorem infix_of_mem_ended {s line : Text} (member : line ∈ (b.write s).ended) :
    line ∈ b.ended ∨ line <:+: b.current ++ s := by
  induction s generalizing b with
  | nil => exact .inl member
  | cons c s ih =>
      have further := ih (b.put c) member
      rcases put_cases b c with ⟨skip, -, put⟩ | ⟨-, ended, current, -⟩ | ⟨-, -, put⟩
      · rw [put] at further
        refine further.imp_right fun inside => inside.trans ?_
        rw [b.skips skip]
        exact ⟨[c], [], by simp⟩
      · rw [ended, current, List.mem_append, List.mem_singleton] at further
        rcases further with (old | rfl) | inside
        · exact .inl old
        · exact .inr (List.prefix_append _ _).isInfix
        · exact .inr (inside.trans ⟨b.current ++ [c], [], by simp⟩)
      · rw [put] at further
        refine further.imp_right fun inside => inside.trans ⟨[], [], by simp⟩

/-- So is the line that has not ended, at the end of it. -/
theorem current_suffix (s : Text) : (b.write s).current <:+ b.current ++ s := by
  induction s generalizing b with
  | nil => exact ⟨[], by simp⟩
  | cons c s ih =>
      refine (ih (b.put c)).trans ?_
      rcases put_cases b c with ⟨skip, -, put⟩ | ⟨-, -, current, -⟩ | ⟨-, -, put⟩
      · rw [put, b.skips skip]
        exact ⟨[c], by simp⟩
      · rw [current]
        exact ⟨b.current ++ [c], by simp⟩
      · rw [put]
        exact ⟨[], by simp⟩

/-- What is left of a text once a pending line feed is skipped. -/
def rest : Text → Text
  | '\n' :: s => if b.skipLF then s else '\n' :: s
  | s => s

theorem rest_of_ne {c : Char} (notLf : c ≠ '\n') (s : Text) : b.rest (c :: s) = c :: s := by
  unfold rest
  split
  next same => exact absurd (List.cons.inj same).1 notLf
  next => rfl

theorem rest_of_not_skip {b : LineBuffer} (noSkip : b.skipLF = false) (s : Text) : b.rest s = s := by
  unfold rest
  split
  next => simp [noSkip]
  next => rfl

theorem lines_cr {line : Text} (oneLine : OneLine line) (skip : b.skipLF = true) (s : Text) :
    lines (line ++ '\r' :: s) = line :: lines (b.rest s) := by
  induction line with
  | nil =>
      unfold rest
      split
      next => simp only [List.nil_append, lines, skip, if_true]
      next notLf =>
        rw [List.nil_append, lines]
        exact fun rest same => notLf rest same
  | cons c line ih =>
      obtain ⟨⟨notCr, notLf⟩, remaining⟩ := oneLine_cons.mp oneLine
      rw [List.cons_append, lines, ih remaining]
      · exact fun same => absurd same notLf
      · exact fun _ same => absurd same notCr
      · exact fun same => absurd same notCr

/-- The lines of a stream are those that a reader of the whole text sees. -/
theorem all_write_from (oneLine : OneLine b.current) (s : Text) :
    (b.write s).all = b.ended ++ lines (b.current ++ b.rest s) := by
  induction s generalizing b with
  | nil =>
      have rest : b.rest [] = [] := rfl
      rw [rest, List.append_nil, write_nil, all]
      by_cases nothing : b.current = []
      · simp [nothing, lines]
      · rw [if_neg nothing, lines_last oneLine nothing]
  | cons c s ih =>
      rw [write_cons]
      rcases put_cases b c with ⟨skip, lf, put⟩ | ⟨ends, ended, current, skip⟩ | ⟨notCr, notLf, put⟩
      · have rest : b.rest (c :: s) = s := by
          subst lf
          simp [LineBuffer.rest, skip]
        rw [put, ih { b with skipLF := false, skips := nofun } oneLine, rest, rest_of_not_skip rfl]
      · rw [ih (b.put c) (current ▸ OneLine.nil), ended, current]
        rcases ends with cr | ⟨lf, noSkip⟩
        · rw [decide_eq_true cr] at skip
          subst cr
          rw [rest_of_ne b (by decide), lines_cr _ oneLine skip]
          simp
        · subst lf
          rw [rest_of_not_skip skip, rest_of_not_skip noSkip, lines_lf oneLine]
          simp
      · have next : OneLine (b.current ++ [c]) :=
          oneLine_append.mpr ⟨oneLine, oneLine_cons.mpr ⟨⟨notCr, notLf⟩, OneLine.nil⟩⟩
        rw [put, ih { b with current := b.current ++ [c], skipLF := false, skips := nofun } next,
          rest_of_ne b notLf, rest_of_not_skip rfl]
        simp

theorem all_write (s : Text) : (empty.write s).all = lines s := by
  rw [all_write_from empty OneLine.nil, rest_of_not_skip rfl]
  rfl

theorem infix_of_mem_lines {s line : Text} (member : line ∈ lines s) : line <:+: s := by
  rw [← all_write, all, List.mem_append] at member
  rcases member with ended | last
  · exact (infix_of_mem_ended empty ended).resolve_left List.not_mem_nil
  · split_ifs at last
    · cases last
    · rw [List.mem_singleton.mp last]
      exact (current_suffix empty s).isInfix

end LineBuffer

end Orbot.Java
