import Orbot.Java.Pattern
import Orbot.Manager.Listener
import Orbot.TransProxy.Command

/-! # Log texts

A broadcast of a log text makes a message that carries the text. Handling it
tells the listener the text, as an error or as a message, and then the percents
that the text announces. The number is read without a look at its digits.
-/

namespace Orbot.Manager

open Java (Text CharTables RuntimeException PatternClasses FitsInt)
open Lib.GreedyMatch
open TransProxy (number number_isDigit decimalValue_number)

/-- The calls of the listener that a log text leads to. -/
inductive LogCall where
  | onError (message : Text)
  | onMessageReceived (message : Text)
  | onPercentsReceived (percents : Int)
  deriving Repr, DecidableEq

def exceptionWord : Text := "Exception".toList

def bootstrappedWord : Text := "Bootstrapped".toList

/-- The calls that handling a message makes, and the manager with its listener
    afterwards. -/
structure Handled where
  calls : List LogCall
  ended : Except RuntimeException Listened

section Code

variable {tables : CharTables} (classes : PatternClasses tables)

/-- `^.+Exception.+$` -/
def exceptionPattern : List (Item Char) :=
  plus classes.dot ++ (word exceptionWord ++ plus classes.dot)

/-- `^.+Bootstrapped\s(\d*)%.+$` -/
def percentsPattern : List (Item Char) :=
  plus classes.dot ++ (word bootstrappedWord ++
    .one classes.space :: .group classes.digit :: .one (· == '%') :: plus classes.dot)

def isException (message : Text) : Bool :=
  (classes.find (exceptionPattern classes) message).isSome

/-- `sendMessage`, and `sendError` for an exception. -/
def sendMessage (message : Text) : LogCall :=
  if isException classes message then .onError message else .onMessageReceived message

def getPercents (message : Text) : Except RuntimeException (List LogCall) :=
  match classes.find (percentsPattern classes) message with
  | some [result] =>
      (Java.parseInt tables result).map fun percents => [.onPercentsReceived percents]
  | _ => .ok []

/-- `handleMessage` with the log text of the message. -/
def handleLogged (l : Listened) (msg : Message) (log : Option Text) : Handled :=
  match msg.what, log with
  | .statusUpdate, some log =>
      match getPercents classes log with
      | .error e => ⟨[sendMessage classes log], .error e⟩
      | .ok percents => ⟨sendMessage classes log :: percents, .ok (l.handleMessage msg)⟩
  | _, _ => ⟨[], .ok (l.handleMessage msg)⟩

end Code

/-! ## Announcements -/

section Announcements

variable {tables : CharTables} (classes : PatternClasses tables)

/-- The parts of a text that announces percents. -/
structure Parts (s pre : Text) (space : Char) (digits tail eol : Text) : Prop where
  text : s = pre ++ (bootstrappedWord ++ space :: (digits ++ '%' :: (tail ++ eol)))
  pre_nonempty : pre ≠ []
  pre_dots : ∀ c ∈ pre, classes.dot c = true
  isSpace : classes.space space = true
  areDigits : ∀ c ∈ digits, classes.digit c = true
  tail_nonempty : tail ≠ []
  tail_dots : ∀ c ∈ tail, classes.dot c = true
  ended : classes.atEnd eol = true

/-- The word stands behind `pre`, with these digits. -/
def Announces (s pre digits : Text) : Prop :=
  ∃ space tail eol, Parts classes s pre space digits tail eol

/-- The last announcement of the text: no other has more in front of it. -/
def AnnouncesLast (s digits : Text) : Prop :=
  ∃ pre, Announces classes s pre digits ∧
    ∀ pre' digits', Announces classes s pre' digits' → pre'.length ≤ pre.length

variable {classes}

theorem percent_no_digit (c : Char) (percent : (c == '%') = true) : classes.digit c = false := by
  obtain rfl := beq_iff_eq.mp percent
  rw [classes.digit_ascii '%' (by decide)]
  decide

/-- What is matched behind the first part of the pattern. -/
theorem firstMatch_behind {rest : Text} {found : List Text} :
    firstMatch classes.atEnd (word bootstrappedWord ++
        .one classes.space :: .group classes.digit :: .one (· == '%') :: plus classes.dot) rest =
        some found ↔
      ∃ digits, found = [digits] ∧ ∃ space tail eol,
        rest = bootstrappedWord ++ space :: (digits ++ '%' :: (tail ++ eol)) ∧
          classes.space space = true ∧ (∀ c ∈ digits, classes.digit c = true) ∧ tail ≠ [] ∧
          (∀ c ∈ tail, classes.dot c = true) ∧ classes.atEnd eol = true := by
  constructor
  · intro matched
    obtain ⟨behind, rfl, here⟩ := (firstMatch_word _).mp matched
    obtain ⟨space, behind, rfl, isSpace, here⟩ := firstMatch_one.mp here
    obtain ⟨digits, percent, behind, later, rfl, ⟨rfl, areDigits⟩, isPercent, here⟩ :=
      (firstMatch_group_one percent_no_digit).mp here
    obtain ⟨rfl, tail, eol, some, ⟨rfl, dots⟩, ended⟩ := firstMatch_plus_end.mp here
    obtain rfl := beq_iff_eq.mp isPercent
    exact ⟨digits, rfl, space, tail, eol, rfl, isSpace, areDigits, some, dots, ended⟩
  · rintro ⟨digits, rfl, space, tail, eol, rfl, isSpace, areDigits, some, dots, ended⟩
    have last : firstMatch classes.atEnd (plus classes.dot) (tail ++ eol) = Option.some [] :=
      firstMatch_plus_end.mpr ⟨rfl, tail, eol, some, ⟨rfl, dots⟩, ended⟩
    have group : firstMatch classes.atEnd
        (.group classes.digit :: .one (· == '%') :: plus classes.dot)
        (digits ++ '%' :: (tail ++ eol)) = Option.some [digits] :=
      (firstMatch_group_one percent_no_digit).mpr
        ⟨digits, '%', tail ++ eol, [], rfl, ⟨rfl, areDigits⟩, beq_self_eq_true '%', last⟩
    exact (firstMatch_word _).mpr ⟨_, rfl, firstMatch_one.mpr ⟨space, _, rfl, isSpace, group⟩⟩

/-- The digits that are captured are those of the last announcement. -/
theorem find_percents_iff {s : Text} {found : List Text} :
    classes.find (percentsPattern classes) s = some found ↔
      ∃ digits, found = [digits] ∧ AnnouncesLast classes s digits := by
  rw [PatternClasses.find, percentsPattern, firstMatch_plus]
  constructor
  · rintro ⟨pre, rest, some, ⟨rfl, dots⟩, matched, failed⟩
    obtain ⟨digits, rfl, space, tail, eol, rfl, isSpace, areDigits, nonempty, tailDots, ended⟩ :=
      firstMatch_behind.mp matched
    refine ⟨digits, rfl, pre, ⟨space, tail, eol, rfl, some, dots, isSpace, areDigits, nonempty,
      tailDots, ended⟩, ?_⟩
    rintro pre' digits' ⟨space', tail', eol', parts⟩
    by_contra longer
    have none := failed pre' _ ⟨parts.text, parts.pre_dots⟩ (Nat.lt_of_not_le longer)
    have matched' := firstMatch_behind.mpr ⟨digits', rfl, space', tail', eol', rfl, parts.isSpace,
      parts.areDigits, parts.tail_nonempty, parts.tail_dots, parts.ended⟩
    rw [none] at matched'
    cases matched'
  · rintro ⟨digits, rfl, pre, ⟨space, tail, eol, parts⟩, last⟩
    refine ⟨pre, _, parts.pre_nonempty, ⟨parts.text, parts.pre_dots⟩, firstMatch_behind.mpr
      ⟨digits, rfl, space, tail, eol, rfl, parts.isSpace, parts.areDigits, parts.tail_nonempty,
        parts.tail_dots, parts.ended⟩, ?_⟩
    intro pre' rest' isCut longer
    rw [Option.eq_none_iff_forall_ne_some]
    intro found matched
    obtain ⟨digits', -, space', tail', eol', rfl, isSpace, areDigits, nonempty, tailDots, ended⟩ :=
      firstMatch_behind.mp matched
    have some : pre' ≠ [] := List.ne_nil_of_length_pos (Nat.zero_lt_of_lt longer)
    have bound := last pre' digits' ⟨space', tail', eol', isCut.split, some, isCut.run, isSpace,
      areDigits, nonempty, tailDots, ended⟩
    exact absurd longer (Nat.not_lt.mpr bound)

theorem AnnouncesLast.unique {s digits digits' : Text} (last : AnnouncesLast classes s digits)
    (last' : AnnouncesLast classes s digits') : digits = digits' := by
  have found := find_percents_iff.mpr ⟨digits, rfl, last⟩
  rw [find_percents_iff.mpr ⟨digits', rfl, last'⟩] at found
  exact (List.cons.inj (Option.some.inj found)).1.symm

/-- Where the number of the last announcement is told. -/
theorem getPercents_last {s digits : Text} (last : AnnouncesLast classes s digits) :
    getPercents classes s =
      (Java.parseInt tables digits).map fun percents => [.onPercentsReceived percents] := by
  rw [getPercents, find_percents_iff.mpr ⟨digits, rfl, last⟩]

theorem getPercents_none {s : Text} (none : ∀ digits, ¬ AnnouncesLast classes s digits) :
    getPercents classes s = .ok [] := by
  cases found : classes.find (percentsPattern classes) s with
  | none => rw [getPercents, found]
  | some captured =>
      obtain ⟨digits, -, last⟩ := find_percents_iff.mp found
      exact absurd last (none digits)

end Announcements

/-! ## Start-up texts -/

section Startup

variable {tables : CharTables} {classes : PatternClasses tables}

/-- Behind a part without `c`, `c` stands in the other part only. -/
theorem behind_of_not_mem {front rest pre behind : Text} {c : Char} (absent : c ∉ front)
    (same : front ++ rest = pre ++ c :: behind) : ∃ between, rest = between ++ c :: behind := by
  rcases List.append_eq_append_iff.mp same with ⟨between, -, rest⟩ | ⟨between, front, rest⟩
  · exact ⟨between, rest⟩
  · cases between with
    | nil => exact ⟨[], rest.symm⟩
    | cons d between =>
        obtain ⟨rfl, -⟩ := List.cons.inj rest
        exact absurd (by simp [front]) absent

def noticeWord : Text := "NOTICE: ".toList

/-- The text of Tor's that says how far it has started. -/
def startupText (n : ℕ) (tail : Text) : Text :=
  noticeWord ++ (bootstrappedWord ++ ' ' :: (number n ++ '%' :: tail))

/-- A percentage, and a tail on the same line that does not have the word again. -/
structure Startup (classes : PatternClasses tables) (n : ℕ) (tail : Text) : Prop where
  percent : n ≤ 100
  nonempty : tail ≠ []
  oneLine : ∀ c ∈ tail, classes.dot c = true
  noWord : ¬ bootstrappedWord <:+: tail

def wordRest : Text := "ootstrapped".toList

theorem bootstrappedWord_eq : bootstrappedWord = 'B' :: wordRest := rfl

theorem startup_one_B (n : ℕ) : 'B' ∉ wordRest ++ ' ' :: (number n ++ ['%']) := by
  have outside : 'B' ∉ number n := fun member => absurd (number_isDigit n _ member) (by decide)
  have before : 'B' ∉ wordRest := by decide
  simp [before, outside]

/-- Behind its B the word does not begin again. -/
theorem Startup.no_other {n : ℕ} {tail : Text} (startup : Startup classes n tail)
    (before behind : Text) :
    wordRest ++ ' ' :: (number n ++ '%' :: tail) ≠ before ++ (bootstrappedWord ++ behind) := by
  intro same
  have front : (wordRest ++ ' ' :: (number n ++ ['%'])) ++ tail =
      before ++ 'B' :: (wordRest ++ behind) := by
    rw [bootstrappedWord_eq] at same
    simpa only [List.append_assoc, List.cons_append, List.nil_append] using same
  obtain ⟨between, inTail⟩ := behind_of_not_mem (startup_one_B n) front
  refine startup.noWord ⟨between, behind, ?_⟩
  rw [inTail, bootstrappedWord_eq, List.append_assoc]
  rfl

theorem Startup.parts {n : ℕ} {tail : Text} (startup : Startup classes n tail) :
    Parts classes (startupText n tail) noticeWord ' ' (number n) tail [] := by
  constructor
  case text => rw [List.append_nil]; rfl
  case pre_nonempty => decide
  case pre_dots => exact PatternClasses.dot_of_printable (by decide)
  case isSpace => exact classes.space_blank
  case areDigits => exact fun c member => classes.digit_of_isDigit (number_isDigit n c member)
  case tail_nonempty => exact startup.nonempty
  case tail_dots => exact startup.oneLine
  case ended => rfl

/-- Its number is the last one announced. -/
theorem Startup.announcesLast {n : ℕ} {tail : Text} (startup : Startup classes n tail) :
    AnnouncesLast classes (startupText n tail) (number n) := by
  refine ⟨noticeWord, ⟨' ', tail, [], startup.parts⟩, ?_⟩
  rintro pre digits ⟨space, tail', eol, parts⟩
  rcases List.append_eq_append_iff.mp parts.text with
    ⟨between, rfl, behind⟩ | ⟨between, before, -⟩
  · cases between with
    | nil => rw [List.append_nil]
    | cons d between =>
        rw [bootstrappedWord_eq] at behind
        have rest : wordRest ++ ' ' :: (number n ++ '%' :: tail) = between ++ (bootstrappedWord ++
            space :: (digits ++ '%' :: (tail' ++ eol))) := (List.cons.inj behind).2
        exact absurd rest (startup.no_other _ _)
  · have shorter := congrArg List.length before
    rw [List.length_append] at shorter
    omega

end Startup

/-! ## Messages with a log text -/

section Handling

variable {tables : CharTables} (classes : PatternClasses tables)

/-- The text that is told as it is. -/
def LogCall.passed : LogCall → Option Text
  | .onError message | .onMessageReceived message => some message
  | .onPercentsReceived _ => none

/-- The number stands in the text behind the word, in front of a percent sign. -/
def StandsIn (s : Text) (n : Int) : Prop :=
  ∃ space digits, ∃ value : ℕ, bootstrappedWord ++ space :: (digits ++ ['%']) <:+: s ∧
    classes.space space = true ∧ (∀ c ∈ digits, classes.digit c = true) ∧
    FitsInt tables digits value ∧ n = value

/-- The message of a log broadcast, handled. -/
def handleLog (l : Listened) (status : Status) (log : Text) : Handled :=
  handleLogged classes l (onReceive .log status) (some log)

/-- No exception, and the listener is told the text once, and percents as the text
    has them. -/
structure Undisturbed (l : Listened) (status : Status) (log : Text) : Prop where
  ends : ∃ after, (handleLog classes l status log).ended = .ok after
  told : (handleLog classes l status log).calls.filterMap LogCall.passed = [log]
  once : (handleLog classes l status log).calls.countP (·.passed.isNone) ≤ 1
  stands : ∀ n, .onPercentsReceived n ∈ (handleLog classes l status log).calls →
    StandsIn classes log n
  startup : ∀ n tail, Startup classes n tail → log = startupText n tail →
    .onPercentsReceived n ∈ (handleLog classes l status log).calls

variable {classes} {l : Listened} {status : Status} {log : Text}

@[simp] theorem passed_onPercentsReceived (n : Int) :
    (LogCall.onPercentsReceived n).passed = none := rfl

@[simp] theorem passed_sendMessage (log : Text) : (sendMessage classes log).passed = some log := by
  unfold sendMessage
  split_ifs <;> rfl

theorem handleLog_ok {percents : List LogCall} (read : getPercents classes log = .ok percents) :
    handleLog classes l status log =
      ⟨sendMessage classes log :: percents, .ok (l.handleMessage (onReceive .log status))⟩ := by
  simp only [handleLog, handleLogged, onReceive, read]

theorem handleLog_error {e : Java.RuntimeException} (read : getPercents classes log = .error e) :
    handleLog classes l status log = ⟨[sendMessage classes log], .error e⟩ := by
  simp only [handleLog, handleLogged, onReceive, read]

/-- No percents are told, and none are announced. -/
theorem undisturbed_none (none : ∀ digits, ¬ AnnouncesLast classes log digits) :
    Undisturbed classes l status log := by
  have handled : handleLog classes l status log =
      ⟨[sendMessage classes log], .ok (l.handleMessage (onReceive .log status))⟩ :=
    handleLog_ok (getPercents_none none)
  constructor
  case ends => exact ⟨_, congrArg Handled.ended handled⟩
  case told => simp [handled]
  case once => simp [handled]
  case stands =>
    intro n member
    rw [handled] at member
    have same := congrArg LogCall.passed (List.mem_singleton.mp member)
    rw [passed_sendMessage] at same
    cases same
  case startup =>
    rintro n tail startup rfl
    exact absurd startup.announcesLast (none (number n))

theorem Parts.standsIn {pre digits tail eol : Text} {space : Char} {value : ℕ}
    (parts : Parts classes log pre space digits tail eol) (fits : FitsInt tables digits value) :
    StandsIn classes log value := by
  refine ⟨space, digits, value, ⟨pre, tail ++ eol, ?_⟩, parts.isSpace, parts.areDigits, fits, rfl⟩
  rw [parts.text]
  simp only [List.append_assoc, List.cons_append, List.nil_append]

/-- The number of a start-up text is the one it was written with. -/
theorem Startup.value_eq {n value : ℕ} {tail digits : Text} (startup : Startup classes n tail)
    (last : AnnouncesLast classes (startupText n tail) digits)
    (fits : FitsInt tables digits value) : value = n := by
  obtain rfl := last.unique startup.announcesLast
  have known := Java.digitsValue_of_digits tables (number_isDigit n)
  rw [fits.2.1, decimalValue_number] at known
  exact Option.some.inj known

/-- The number of the last announcement is told. -/
theorem undisturbed_last {digits : Text} {value : ℕ} (last : AnnouncesLast classes log digits)
    (fits : FitsInt tables digits value) : Undisturbed classes l status log := by
  obtain ⟨pre, ⟨space, tail, eol, parts⟩, -⟩ := id last
  have parsed : Java.parseInt tables digits = .ok value :=
    (Java.parseInt_of_class_iff parts.areDigits value).mpr ⟨value, fits, rfl⟩
  have read : getPercents classes log = .ok [.onPercentsReceived value] := by
    rw [getPercents_last last, parsed]
    rfl
  have handled : handleLog classes l status log =
      ⟨[sendMessage classes log, .onPercentsReceived value],
        .ok (l.handleMessage (onReceive .log status))⟩ :=
    handleLog_ok read
  constructor
  case ends => exact ⟨_, congrArg Handled.ended handled⟩
  case told => simp [handled]
  case once => simp [handled]
  case stands =>
    intro n member
    rw [handled] at member
    rcases List.mem_cons.mp member with same | member
    · have text := congrArg LogCall.passed same
      rw [passed_sendMessage] at text
      cases text
    · obtain rfl : n = value := LogCall.onPercentsReceived.inj (List.mem_singleton.mp member)
      exact parts.standsIn fits
  case startup =>
    rintro n tail startup rfl
    rw [handled, startup.value_eq last fits]
    simp

variable (classes l status log)

/-- The digits announced last must be a number to `Integer.parseInt`, and an
    `int`. -/
theorem undisturbed_iff :
    Undisturbed classes l status log ↔
      ∀ digits, AnnouncesLast classes log digits → ∃ value, FitsInt tables digits value := by
  constructor
  · intro undisturbed digits last
    obtain ⟨after, ended⟩ := undisturbed.ends
    obtain ⟨pre, ⟨space, tail, eol, parts⟩, -⟩ := id last
    cases parsed : Java.parseInt tables digits with
    | ok n =>
        obtain ⟨value, fits, -⟩ := (Java.parseInt_of_class_iff parts.areDigits n).mp parsed
        exact ⟨value, fits⟩
    | error e =>
        have read : getPercents classes log = .error e := by
          rw [getPercents_last last, parsed]
          rfl
        rw [handleLog_error read] at ended
        cases ended
  · intro numbers
    by_cases announced : ∃ digits, AnnouncesLast classes log digits
    · obtain ⟨digits, last⟩ := announced
      obtain ⟨value, fits⟩ := numbers digits last
      exact undisturbed_last last fits
    · exact undisturbed_none (not_exists.mp announced)

/-- A percent sign without a number ends the handling of the message. -/
theorem no_number_throws :
    (handleLog PatternClasses.ascii {} .starting "NOTICE: Bootstrapped %: x".toList).ended =
        .error .numberFormat ∧
      ¬ Undisturbed PatternClasses.ascii {} .starting "NOTICE: Bootstrapped %: x".toList := by
  have thrown : (handleLog PatternClasses.ascii {} .starting
      "NOTICE: Bootstrapped %: x".toList).ended = .error .numberFormat := by
    decide +kernel
  refine ⟨thrown, fun undisturbed => ?_⟩
  obtain ⟨after, ended⟩ := undisturbed.ends
  rw [thrown] at ended
  cases ended

end Handling

end Orbot.Manager
