import Orbot.Manager.LogText
import Orbot.Service.Prefs

/-! # Error reports

With debug logging the service puts the stack trace behind a line feed. The
manager tells an error by a pattern that a line feed in the middle does not
match, so the trace makes an ordinary message of it.
-/

namespace Orbot.Manager

open Java (Text CharTables PatternClasses LineAtEnd)
open Lib.GreedyMatch
open Service (SharedPreferences)

/-- The text that `TorService.logException` broadcasts; `trace` is what
    `printStackTrace` of the exception prints, and that may be any text. -/
def logException (prefs : SharedPreferences) (msg trace : Text) : Text :=
  if prefs.useDebugLogging then msg ++ '\n' :: trace else msg

section Reports

variable {tables : CharTables} (classes : PatternClasses tables)

/-- The broadcast of the text is delivered to `onError`. -/
def ToldAsError (l : Listened) (status : Status) (log : Text) : Prop :=
  .onError log ∈ (handleLog classes l status log).calls

/-- What is told as an error without debug logging is told as one with it. -/
def ReportedAlike (msg trace : Text) : Prop :=
  ∀ off on : SharedPreferences, off.useDebugLogging = false → on.useDebugLogging = true →
    ∀ l l' status status', ToldAsError classes l status (logException off msg trace) →
      ToldAsError classes l' status' (logException on msg trace)

/-- The text is a line that has the word in the middle, and the end of it. -/
def ExceptionLine (s : Text) : Prop :=
  ∃ pre post eol, LineAtEnd classes s (pre ++ (exceptionWord ++ post)) eol ∧ pre ≠ [] ∧ post ≠ []

/-- One line without an end, or with a carriage return for its end. -/
def BareLine (s : Text) : Prop :=
  ∃ line, (∀ c ∈ line, classes.dot c = true) ∧ (s = line ∨ s = line ++ ['\r'])

variable {classes}

/-! ## The pattern -/

theorem isException_iff (s : Text) : isException classes s = true ↔ ExceptionLine classes s := by
  rw [isException, PatternClasses.find, exceptionPattern, isSome_plus]
  constructor
  · rintro ⟨pre, rest, some, ⟨rfl, dots⟩, matched⟩
    obtain ⟨found, first⟩ := Option.isSome_iff_exists.mp matched
    obtain ⟨behind, rfl, here⟩ := (firstMatch_word _).mp first
    obtain ⟨-, post, eol, nonempty, ⟨rfl, postDots⟩, ended⟩ := firstMatch_plus_end.mp here
    refine ⟨pre, post, eol, ⟨by simp only [List.append_assoc], ?_, ended⟩, some, nonempty⟩
    have wordDots : ∀ c ∈ exceptionWord, classes.dot c = true :=
      PatternClasses.dot_of_printable (by decide)
    exact List.forall_mem_append.mpr ⟨dots, List.forall_mem_append.mpr ⟨wordDots, postDots⟩⟩
  · rintro ⟨pre, post, eol, ⟨rfl, dots, ended⟩, some, nonempty⟩
    obtain ⟨preDots, others⟩ := List.forall_mem_append.mp dots
    obtain ⟨-, postDots⟩ := List.forall_mem_append.mp others
    have last : firstMatch classes.atEnd (plus classes.dot) (post ++ eol) = Option.some [] :=
      firstMatch_plus_end.mpr ⟨rfl, post, eol, nonempty, ⟨rfl, postDots⟩, ended⟩
    refine ⟨pre, exceptionWord ++ (post ++ eol), some, ⟨?_, preDots⟩, ?_⟩
    · simp only [List.append_assoc]
    · rw [(firstMatch_word exceptionWord).mpr ⟨_, rfl, last⟩]
      rfl

/-! ## The line feed -/

theorem feed_no_dot : classes.dot '\n' = false := by
  rw [PatternClasses.dot, classes.terminator_feed]
  rfl

/-- Behind a line feed at the end nothing follows, and before it a carriage return
    at most. -/
theorem atEnd_feed {front trace : Text} :
    classes.atEnd (front ++ '\n' :: trace) = true ↔ trace = [] ∧ (front = [] ∨ front = ['\r']) := by
  cases front with
  | nil =>
      cases trace with
      | nil => simp [PatternClasses.atEnd, classes.terminator_feed]
      | cons c trace => cases trace <;> simp [PatternClasses.atEnd]
  | cons c front =>
      cases front with
      | nil => cases trace <;> simp [PatternClasses.atEnd]
      | cons d front => cases front <;> simp [PatternClasses.atEnd]

theorem lineAtEnd_feed {msg trace line eol : Text} :
    LineAtEnd classes (msg ++ '\n' :: trace) line eol ↔
      (∀ c ∈ line, classes.dot c = true) ∧ trace = [] ∧
        (msg = line ∧ eol = ['\n'] ∨ msg = line ++ ['\r'] ∧ eol = ['\r', '\n']) := by
  constructor
  · rintro ⟨split, dots, ended⟩
    refine ⟨dots, ?_⟩
    obtain ⟨front, rfl, rfl⟩ : ∃ front, msg = line ++ front ∧ eol = front ++ '\n' :: trace := by
      rcases List.append_eq_append_iff.mp split with ⟨between, rfl, rest⟩ | ⟨front, before, rest⟩
      · cases between with
        | nil => exact ⟨[], by simp, rest.symm⟩
        | cons c between =>
            obtain ⟨rfl, -⟩ := List.cons.inj rest
            have isDot := dots '\n' (by simp)
            rw [feed_no_dot] at isDot
            cases isDot
      · exact ⟨front, before, rest⟩
    obtain ⟨rfl, rfl | rfl⟩ := atEnd_feed.mp ended
    · exact ⟨rfl, .inl ⟨List.append_nil _, rfl⟩⟩
    · exact ⟨rfl, .inr ⟨rfl, rfl⟩⟩
  · rintro ⟨dots, rfl, ⟨rfl, rfl⟩ | ⟨rfl, rfl⟩⟩
    · exact ⟨rfl, dots, classes.terminator_feed⟩
    · exact ⟨by simp, dots, rfl⟩

theorem BareLine.lineAtEnd {s : Text} (bare : BareLine classes s) :
    ∃ line, s = line ∧ LineAtEnd classes s line [] ∨
      s = line ++ ['\r'] ∧ LineAtEnd classes s line ['\r'] := by
  obtain ⟨line, dots, same | same⟩ := bare
  · exact ⟨line, .inl ⟨same, by rw [same, List.append_nil], dots, rfl⟩⟩
  · exact ⟨line, .inr ⟨same, same, dots, classes.terminator_return⟩⟩

/-- A trace that is not empty leaves no error. -/
theorem isException_feed_iff (msg trace : Text) :
    isException classes (msg ++ '\n' :: trace) = true ↔
      ExceptionLine classes msg ∧ trace = [] ∧ BareLine classes msg := by
  rw [isException_iff]
  constructor
  · rintro ⟨pre, post, eol, lineAtEnd, some, nonempty⟩
    obtain ⟨dots, none, ⟨same, -⟩ | ⟨same, -⟩⟩ := lineAtEnd_feed.mp lineAtEnd
    · have whole : LineAtEnd classes msg (pre ++ (exceptionWord ++ post)) [] :=
        ⟨by rw [same, List.append_nil], dots, rfl⟩
      exact ⟨⟨pre, post, [], whole, some, nonempty⟩, none, _, dots, .inl same⟩
    · have whole : LineAtEnd classes msg (pre ++ (exceptionWord ++ post)) ['\r'] :=
        ⟨same, dots, classes.terminator_return⟩
      exact ⟨⟨pre, post, ['\r'], whole, some, nonempty⟩, none, _, dots, .inr same⟩
  · rintro ⟨⟨pre, post, eol, lineAtEnd, some, nonempty⟩, rfl, bare⟩
    obtain ⟨line, ⟨same, whole⟩ | ⟨same, whole⟩⟩ := bare.lineAtEnd
    · obtain rfl := lineAtEnd.unique whole
      exact ⟨pre, post, ['\n'], lineAtEnd_feed.mpr ⟨whole.dots, rfl, .inl ⟨same, rfl⟩⟩, some,
        nonempty⟩
    · obtain rfl := lineAtEnd.unique whole
      exact ⟨pre, post, ['\r', '\n'], lineAtEnd_feed.mpr ⟨whole.dots, rfl, .inr ⟨same, rfl⟩⟩,
        some, nonempty⟩

/-! ## The two runs -/

/-- Percents are no error. -/
theorem onError_not_mem_percents {log message : Text} {percents : List LogCall}
    (read : getPercents classes log = .ok percents) : .onError message ∉ percents := by
  unfold getPercents at read
  split at read
  next result _ =>
      cases parsed : Java.parseInt tables result with
      | error e =>
          rw [parsed] at read
          cases read
      | ok n =>
          rw [parsed] at read
          obtain rfl := Except.ok.inj read
          simp
  next =>
      obtain rfl := Except.ok.inj read
      simp

theorem toldAsError_iff {l : Listened} {status : Status} {log : Text} :
    ToldAsError classes l status log ↔ ExceptionLine classes log := by
  have first : sendMessage classes log = .onError log ↔ ExceptionLine classes log := by
    rw [← isException_iff, sendMessage]
    split_ifs with isError <;> simp [isError]
  rw [ToldAsError, ← first]
  cases read : getPercents classes log with
  | error e =>
      rw [handleLog_error read, List.mem_singleton]
      exact eq_comm
  | ok percents =>
      rw [handleLog_ok read, List.mem_cons, or_iff_left (onError_not_mem_percents read)]
      exact eq_comm

variable (classes)

/-- An error stays one only if nothing is printed and its line is all there is. -/
theorem reportedAlike_iff (msg trace : Text) :
    ReportedAlike classes msg trace ↔
      (ExceptionLine classes msg → trace = [] ∧ BareLine classes msg) := by
  constructor
  · intro alike error
    have off : (SharedPreferences.of [] []).useDebugLogging = false := rfl
    have on : (SharedPreferences.of [] [("pref_enable_logging".toList, true)]).useDebugLogging =
        true := by
      decide
    have told := alike _ _ off on {} {} .starting .starting
    simp only [toldAsError_iff, logException, off, on, if_true] at told
    exact ((isException_feed_iff msg trace).mp ((isException_iff _).mpr (told error))).2
  · intro whole off on isOff isOn l l' status status' told
    simp only [toldAsError_iff, logException, isOff, isOn, if_true] at told ⊢
    exact (isException_iff _).mp ((isException_feed_iff msg trace).mpr ⟨told, whole told⟩)

/-- An error with a stack trace is told as a message. -/
theorem trace_hides_error :
    ¬ ReportedAlike PatternClasses.ascii "Unable to start Tor: java.io.IOException: x".toList
      "java.io.IOException: x\n\tat Y\n".toList := by
  intro alike
  have told := alike (.of [] []) (.of [] [("pref_enable_logging".toList, true)]) rfl (by decide)
    {} {} .starting .starting
  unfold ToldAsError at told
  revert told
  decide +kernel

end Reports

end Orbot.Manager
