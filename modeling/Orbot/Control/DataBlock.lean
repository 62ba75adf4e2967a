import Mathlib.Data.List.Flatten
import Orbot.Control.ReplyFormat

/-! # Data blocks that are sent

`writeEscaped` cuts its text with a `StringTokenizer`, which has no empty
tokens. An empty line is sent only if a carriage return is left of it.
-/

namespace Orbot.Control

open Java (Text OneLine lines lines_lf lines_last tokens)

/-! ## Writing -/

/-- A round of the loop of `writeEscaped`. -/
def escapedLine (token : Text) : Text :=
  let line := if token.head? = some '.' then '.' :: token else token
  if line.getLast? = some '\r' then line ++ ['\n'] else line ++ crlf

def writeEscaped (s : Text) : Text :=
  (tokens s '\n').flatMap escapedLine ++ (dot ++ crlf)

/-! ## Line ends -/

/-- Every carriage return is followed by a line feed. -/
def CrBeforeLf (s : Text) : Prop :=
  ∀ i < s.length, s[i]? = some '\r' → s[i + 1]? = some '\n'

instance (s : Text) : Decidable (CrBeforeLf s) :=
  inferInstanceAs (Decidable (∀ i < s.length, s[i]? = some '\r' → s[i + 1]? = some '\n'))

/-- No line feed stands at the beginning or directly behind another one. -/
def NoBareEmptyLine (s : Text) : Prop := ∀ piece ∈ (s.splitOn '\n').dropLast, piece ≠ []

instance (s : Text) : Decidable (NoBareEmptyLine s) :=
  inferInstanceAs (Decidable (∀ piece ∈ (s.splitOn '\n').dropLast, piece ≠ []))

theorem CrBeforeLf.behind {before after : Text} (ends : CrBeforeLf (before ++ '\r' :: after)) :
    after[0]? = some '\n' := by
  have next := ends before.length (by simp) (by simp)
  rwa [List.getElem?_append_right (by omega), Nat.add_sub_cancel_left,
    List.getElem?_cons_succ] at next

theorem CrBeforeLf.tail {before rest : Text} (ends : CrBeforeLf (before ++ rest)) :
    CrBeforeLf rest := by
  intro i inside cr
  have next := ends (before.length + i) (by simpa using inside)
  rw [Nat.add_assoc, List.getElem?_append_right (by omega), List.getElem?_append_right (by omega),
    Nat.add_sub_cancel_left, Nat.add_sub_cancel_left] at next
  exact next cr

theorem CrBeforeLf.oneLine {s : Text} (ends : CrBeforeLf s) (noLf : '\n' ∉ s) : OneLine s := by
  refine ⟨fun cr => ?_, noLf⟩
  obtain ⟨before, after, rfl⟩ := List.append_of_mem cr
  have lf := List.mem_of_getElem? ends.behind
  simp [lf] at noLf

/-- The text line by line: a last line without an end, or a line that ends with
    a line feed alone or with both. -/
inductive Lined : Text → Prop where
  | last {line : Text} : OneLine line → Lined line
  | lf {line rest : Text} : OneLine line → Lined rest → Lined (line ++ '\n' :: rest)
  | both {line rest : Text} : OneLine line → Lined rest → Lined (line ++ (crlf ++ rest))

theorem CrBeforeLf.lined {s : Text} (ends : CrBeforeLf s) : Lined s := by
  induction s using Java.splitOn_induction '\n' with
  | single s noLf => exact .last (ends.oneLine noLf)
  | cons s rest noLf ih =>
      have others : CrBeforeLf rest := by
        rw [List.append_cons] at ends
        exact ends.tail
      by_cases cr : '\r' ∈ s
      · obtain ⟨line, after, rfl, first⟩ := List.eq_append_cons_of_mem cr
        have ended : after = [] := by
          rw [List.append_assoc, List.cons_append] at ends
          cases after with
          | nil => rfl
          | cons c after =>
              obtain rfl : c = '\n' := Option.some.inj ends.behind
              simp at noLf
        subst ended
        have oneLine : OneLine line := ⟨first, fun inside => noLf (by simp [inside])⟩
        have text : line ++ ['\r'] ++ '\n' :: rest = line ++ (crlf ++ rest) := by
          rw [List.append_assoc]
          rfl
        rw [text]
        exact .both oneLine (ih others)
      · exact .lf ⟨cr, noLf⟩ (ih others)

/-! ## What is sent -/

/-- A token without the carriage return at its end. -/
def chomp (token : Text) : Text :=
  if token.getLast? = some '\r' then token.dropLast else token

/-- The lines that are sent. -/
def sentLines (s : Text) : List Text := (tokens s '\n').map chomp

theorem chomp_oneLine {line : Text} (oneLine : OneLine line) : chomp line = line := by
  apply if_neg
  intro last
  exact oneLine.1 (List.mem_of_getLast? last)

theorem chomp_cr (line : Text) : chomp (line ++ ['\r']) = line := by
  simp [chomp]

theorem stuffDot_eq (line : Text) :
    stuffDot line = if line.head? = some '.' then '.' :: line else line := by
  unfold stuffDot
  split
  · rfl
  next other =>
    cases line with
    | nil => rfl
    | cons c rest =>
        have apart : c ≠ '.' := by
          rintro rfl
          exact other rest rfl
        simp [apart]

theorem escapedLine_oneLine {line : Text} (oneLine : OneLine line) :
    escapedLine line = stuffDot line ++ crlf := by
  rw [escapedLine, ← stuffDot_eq]
  apply if_neg
  intro last
  exact (stuffDot_oneLine oneLine).1 (List.mem_of_getLast? last)

theorem escapedLine_cr (line : Text) : escapedLine (line ++ ['\r']) = stuffDot line ++ crlf := by
  cases line with
  | nil => rfl
  | cons c line =>
      by_cases isDot : c = '.'
      · subst isDot
        simp [escapedLine, stuffDot, crlf, List.getLast?_cons]
      · simp [escapedLine, stuffDot_eq, isDot, crlf, List.getLast?_cons]

theorem append_crlf (line rest : Text) :
    line ++ (crlf ++ rest) = line ++ ['\r'] ++ '\n' :: rest := by
  rw [List.append_assoc]
  rfl

section Tokens

variable {line : Text} (oneLine : OneLine line) (rest : Text)
include oneLine

theorem tokens_lf :
    tokens (line ++ '\n' :: rest) '\n' =
      (if line = [] then [] else [line]) ++ tokens rest '\n' := by
  rw [Java.tokens_append]
  split_ifs with empty
  · rw [empty, Java.tokens_nil]
  · rw [Java.tokens_of_not_mem oneLine.2 empty]

theorem tokens_crlf :
    tokens (line ++ (crlf ++ rest)) '\n' = (line ++ ['\r']) :: tokens rest '\n' := by
  have noLf : '\n' ∉ line ++ ['\r'] := by simpa using oneLine.2
  rw [append_crlf, Java.tokens_append, Java.tokens_of_not_mem noLf (by simp), List.singleton_append]

theorem tokens_last : tokens line '\n' = lines line := by
  by_cases empty : line = []
  · rw [empty]
    rfl
  · rw [Java.tokens_of_not_mem oneLine.2 empty, lines_last oneLine empty]

end Tokens

/-- Behind the text the lines go on as if it had not been there. -/
theorem lines_writeEscaped {s : Text} (lined : Lined s) (after : Text) :
    lines (writeEscaped s ++ after) = (sentLines s).map stuffDot ++ dot :: lines after := by
  have closed : lines (dot ++ crlf ++ after) = dot :: lines after := by
    rw [List.append_assoc]
    exact lines_oneLine (by decide) after
  have line : ∀ {line : Text} (more : Text), OneLine line →
      lines (stuffDot line ++ crlf ++ more) = stuffDot line :: lines more := by
    intro line more oneLine
    rw [List.append_assoc]
    exact lines_oneLine (stuffDot_oneLine oneLine) more
  induction lined with
  | @last last oneLine =>
      by_cases empty : last = []
      · rw [empty]
        exact closed
      · rw [writeEscaped, sentLines, Java.tokens_of_not_mem oneLine.2 empty, List.flatMap_singleton,
          escapedLine_oneLine oneLine, List.append_assoc, line _ oneLine, closed,
          List.map_singleton, chomp_oneLine oneLine]
        rfl
  | @lf first rest oneLine _ ih =>
      rw [writeEscaped, sentLines, tokens_lf oneLine]
      by_cases empty : first = []
      · rw [if_pos empty, List.nil_append]
        exact ih
      · rw [if_neg empty, List.singleton_append, List.flatMap_cons, escapedLine_oneLine oneLine,
          List.append_assoc, List.append_assoc, line _ oneLine, ← List.append_assoc, ← writeEscaped,
          ih, List.map_cons, chomp_oneLine oneLine]
        rfl
  | @both first rest oneLine _ ih =>
      rw [writeEscaped, sentLines, tokens_crlf oneLine, List.flatMap_cons, escapedLine_cr,
        List.append_assoc, List.append_assoc, line _ oneLine, ← List.append_assoc, ← writeEscaped,
        ih, List.map_cons, chomp_cr]
      rfl

/-- Every line is followed by a newline, as `readReply` collects them. -/
def collected (lines : List Text) : Text := lines.flatMap (· ++ ['\n'])

theorem readData_writeEscaped {s : Text} (lined : Lined s) (after : Text) :
    readData (lines (writeEscaped s ++ after)) =
      some (collected (sentLines s), lines after) := by
  have noDot : dot ∉ (sentLines s).map stuffDot := by
    intro member
    obtain ⟨line, -, same⟩ := List.mem_map.mp member
    exact stuffDot_ne_dot line same
  rw [lines_writeEscaped lined, readData_spelled noDot]
  simp only [dataText, collected, List.flatMap_map, undot_stuffDot]

/-! ## When all lines are sent -/

theorem noBareEmptyLine_lf {line : Text} (noLf : '\n' ∉ line) (rest : Text) :
    NoBareEmptyLine (line ++ '\n' :: rest) ↔ line ≠ [] ∧ NoBareEmptyLine rest := by
  rw [NoBareEmptyLine, Java.splitOn_append noLf,
    List.dropLast_cons_of_ne_nil (List.splitOn_ne_nil '\n' rest), List.forall_mem_cons,
    NoBareEmptyLine]

/-- No line is sent that is not there. -/
theorem sentLines_sublist {s : Text} (lined : Lined s) : (sentLines s).Sublist (lines s) := by
  induction lined with
  | @last line oneLine =>
      rw [sentLines, tokens_last oneLine]
      by_cases empty : line = []
      · rw [empty]
        exact List.Sublist.refl _
      · rw [lines_last oneLine empty, List.map_singleton, chomp_oneLine oneLine]
  | @lf line rest oneLine _ ih =>
      rw [sentLines, tokens_lf oneLine, lines_lf oneLine]
      by_cases empty : line = []
      · rw [if_pos empty]
        exact ih.cons _
      · rw [if_neg empty, List.singleton_append, List.map_cons, chomp_oneLine oneLine]
        exact ih.cons_cons _
  | @both line rest oneLine _ ih =>
      rw [sentLines, tokens_crlf oneLine, lines_oneLine oneLine, List.map_cons, chomp_cr]
      exact ih.cons_cons _

theorem collected_cons (line : Text) (rest : List Text) :
    collected (line :: rest) = line ++ '\n' :: collected rest := by
  rw [collected, List.flatMap_cons, List.append_assoc]
  rfl

/-- Everything is collected again exactly if no empty line ends with a line feed
    alone. -/
theorem collected_sentLines_iff {s : Text} (lined : Lined s) :
    collected (sentLines s) = collected (lines s) ↔ NoBareEmptyLine s := by
  induction lined with
  | @last line oneLine =>
      have whole : NoBareEmptyLine line := by
        rw [NoBareEmptyLine, Java.splitOn_of_not_mem oneLine.2]
        exact List.forall_mem_nil _
      apply iff_of_true _ whole
      by_cases empty : line = []
      · rw [empty]
        rfl
      · rw [sentLines, tokens_last oneLine, lines_last oneLine empty, List.map_singleton,
          chomp_oneLine oneLine]
  | @lf line rest oneLine lined ih =>
      rw [noBareEmptyLine_lf oneLine.2, ← ih, sentLines, tokens_lf oneLine, lines_lf oneLine,
        collected_cons]
      by_cases empty : line = []
      · have fewer : (collected (sentLines rest)).length ≤ (collected (lines rest)).length :=
          ((sentLines_sublist lined).flatMap _).length_le
        apply iff_of_false
        · intro same
          rw [if_pos empty, List.nil_append, ← sentLines, empty, List.nil_append] at same
          have longer := congrArg List.length same
          rw [List.length_cons] at longer
          omega
        · exact fun both => both.1 empty
      · rw [if_neg empty, List.singleton_append, List.map_cons, chomp_oneLine oneLine,
          collected_cons, ← sentLines, List.append_cancel_left_eq, List.cons_inj_right]
        exact (and_iff_right empty).symm
  | @both line rest oneLine _ ih =>
      have noLf : '\n' ∉ line ++ ['\r'] := by simpa using oneLine.2
      have whole : NoBareEmptyLine (line ++ (crlf ++ rest)) ↔ NoBareEmptyLine rest := by
        rw [append_crlf, noBareEmptyLine_lf noLf]
        exact and_iff_right (by simp)
      rw [whole, ← ih, sentLines, tokens_crlf oneLine, lines_oneLine oneLine, List.map_cons,
        chomp_cr, collected_cons, collected_cons, ← sentLines, List.append_cancel_left_eq,
        List.cons_inj_right]

/-- Reading what was written ends with it, and gives all lines back exactly if no
    empty line ends with a line feed alone. -/
theorem writeEscaped_roundTrip_iff {s : Text} (ends : CrBeforeLf s) :
    (∀ after, readData (lines (writeEscaped s ++ after)) =
        some (collected (lines s), lines after)) ↔
      NoBareEmptyLine s := by
  rw [← collected_sentLines_iff ends.lined]
  constructor
  · intro all
    have read := (readData_writeEscaped ends.lined []).symm.trans (all [])
    exact (Prod.mk.inj (Option.some.inj read)).1
  · intro same after
    rw [readData_writeEscaped ends.lined, same]

/-- Empty lines, and lines that are made of dots. -/
theorem writeEscaped_roundTrip_iff_crlf :
    readData (lines (writeEscaped "a\r\n\r\n.\n..\r\n".toList)) =
      some ("a\n\n.\n..\n".toList, []) := by
  have ends : CrBeforeLf "a\r\n\r\n.\n..\r\n".toList := by decide
  have kept : NoBareEmptyLine "a\r\n\r\n.\n..\r\n".toList := by decide
  have read := (writeEscaped_roundTrip_iff ends).mpr kept []
  rw [List.append_nil] at read
  exact read

/-- The empty line in the middle is lost. -/
theorem writeEscaped_drops :
    CrBeforeLf "a\n\nb".toList ∧
      readData (lines (writeEscaped "a\n\nb".toList)) = some ("a\nb\n".toList, []) ∧
      lines "a\n\nb".toList = ["a".toList, [], "b".toList] :=
  ⟨by decide, rfl, rfl⟩

end Orbot.Control
