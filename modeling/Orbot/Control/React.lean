import Orbot.Service.TorEventHandler

/-! # The reader loop

`TorControlConnection.react` and the thread that runs it. Which inputs make an
exception other than an IOException escape is said of the lines received alone:
a data block that breaks off, or an event whose text does not have the parts
that are taken out of it.
-/

namespace Orbot.Control

open Java (Text CharTables RuntimeException)
open Service (TorEventHandler SharedPreferences BadHop BadCall)

/-! ## The loop -/

/-- The state of the handler, and the replies handed to the waiters so far. -/
structure ReaderState (σ : Type) where
  handler : σ
  handed : List (List ReplyLine) := []

inductive Ended where
  | returned
  | threw (thrown : Thrown)
  deriving Repr, DecidableEq

/-- `status.startsWith("6")` on the first line. -/
def isEvent : List ReplyLine → Bool
  | [] => false
  | line :: _ => "6".toList.isPrefixOf line.status

def react {σ : Type} (tables : CharTables) (handler : Option (EventHandler σ))
    (input : List Text) (s : ReaderState σ) : Ended × ReaderState σ :=
  match _ : readReply input with
  | .error e => (.threw e, s)
  -- connection has been closed remotely! end the loop!
  | .ok ([], _) => (.returned, s)
  | .ok (first :: others, rest) =>
      if isEvent (first :: others) then
        match handleEvent tables handler (first :: others) s.handler with
        | (h, some e) => (.threw (.runtime e), { s with handler := h })
        | (h, none) => react tables handler rest { s with handler := h }
      else react tables handler rest { s with handed := s.handed ++ [first :: others] }
termination_by input.length
decreasing_by
  all_goals exact readReply_length (by assumption) (by simp)

section Equations

variable {σ : Type} {tables : CharTables} {handler : Option (EventHandler σ)}
  {input rest : List Text} {s : ReaderState σ}

theorem react_error {e : Thrown} (read : readReply input = .error e) :
    react tables handler input s = (.threw e, s) := by
  rw [react]
  split
  all_goals simp_all

theorem react_end (read : readReply input = .ok ([], rest)) :
    react tables handler input s = (.returned, s) := by
  rw [react]
  split
  all_goals simp_all

theorem react_reply {reply : List ReplyLine} (read : readReply input = .ok (reply, rest))
    (received : reply ≠ []) :
    react tables handler input s =
      if isEvent reply then
        match handleEvent tables handler reply s.handler with
        | (h, some e) => (.threw (.runtime e), { s with handler := h })
        | (h, none) => react tables handler rest { s with handler := h }
      else react tables handler rest { s with handed := s.handed ++ [reply] } := by
  obtain ⟨first, others, rfl⟩ := List.exists_cons_of_ne_nil received
  rw [react]
  split
  next thrown => rw [read] at thrown; cases thrown
  next empty => rw [read] at empty; cases empty
  next first' others' rest' again =>
    rw [read] at again
    cases again
    rfl

end Equations

/-- How the thread ends: the exception it records, and one that escapes it. -/
structure ThreadEnd where
  parseThreadException : Option IOException
  escaped : Option RuntimeException
  deriving Repr, DecidableEq

/-- Only an IOException is caught, and recorded. -/
def Ended.threadEnd : Ended → ThreadEnd
  | .returned => ⟨none, none⟩
  | .threw (.io ex) => ⟨some ex, none⟩
  | .threw (.runtime e) => ⟨none, some e⟩

/-- `ControlParseThread.run` -/
def ControlParseThread.run {σ : Type} (tables : CharTables) (handler : Option (EventHandler σ))
    (received : Text) (s : ReaderState σ) : ThreadEnd :=
  (react tables handler (Java.lines received) s).1.threadEnd

/-! ## Events that can be taken apart -/

/-- The arguments an event of type `tp` needs. -/
structure GoodArguments (tables : CharTables) (tp : Text) (lst : List Text) : Prop where
  circ : tp = circ → 2 ≤ lst.length ∧ ∀ status path, lst[1]? = some status →
    lst[2]? = some path → status ≠ launched → ∀ hop ∈ Java.tokens path ',', ¬ BadHop hop
  stream : tp = stream → 4 ≤ lst.length
  orconn : tp = orconn → 2 ≤ lst.length
  bw : tp = bw → ∃ read written others r w, lst = read :: written :: others ∧
    Java.parseInt tables read = .ok r ∧ Java.parseInt tables written = .ok w

/-- A type, a blank, and the arguments the type needs. -/
def GoodEvent (tables : CharTables) (line : ReplyLine) : Prop :=
  ∃ type rest, line.msg = type ++ ' ' :: rest ∧ ' ' ∉ type ∧
    GoodArguments tables (tables.toUpperCase type) (splitStr rest)

/-- An event with a line that cannot be taken apart. -/
def BadReply (tables : CharTables) (reply : List ReplyLine) : Prop :=
  isEvent reply = true ∧ ∃ line ∈ reply, ¬ GoodEvent tables line

/-- The inputs an exception escapes on. -/
inductive Fatal (tables : CharTables) : List Text → Prop where
  | cut {input : List Text} : CutInData input → Fatal tables input
  | event {block rest : List Text} {reply : List ReplyLine} : Spells block reply →
      BadReply tables reply → Fatal tables (block ++ rest)
  | later {block rest : List Text} {reply : List ReplyLine} : Spells block reply →
      Fatal tables rest → Fatal tables (block ++ rest)

/-! ## Taking events apart -/

section Arguments

variable (tables : CharTables)

/-- The call for an event goes through, and the handler does not throw on it. -/
def Handled (call : Except RuntimeException HandlerCall) : Prop :=
  ∃ c, call = .ok c ∧ ¬ BadCall c

theorem callFor_circ (rest : Text) :
    Handled (callFor tables circ rest) ↔ GoodArguments tables circ (splitStr rest) := by
  have others : circ ≠ stream ∧ circ ≠ orconn ∧ circ ≠ bw := by decide
  have shape : GoodArguments tables circ (splitStr rest) ↔ 2 ≤ (splitStr rest).length ∧
      ∀ status path, (splitStr rest)[1]? = some status → (splitStr rest)[2]? = some path →
        status ≠ launched → ∀ hop ∈ Java.tokens path ',', ¬ BadHop hop :=
    ⟨fun good => good.circ rfl, fun good => ⟨fun _ => good, fun same => absurd same others.1,
      fun same => absurd same others.2.1, fun same => absurd same others.2.2⟩⟩
  rw [shape, callFor, if_pos rfl]
  match splitStr rest with
  | [] => simp [Handled, bind, Except.bind]
  | [circID] => simp [Handled, bind, Except.bind]
  | [circID, status] => simp [Handled, bind, Except.bind, pure, Except.pure, BadCall, Java.tokens]
  | circID :: status :: path :: more =>
      have long : ¬ more.length + 1 + 1 + 1 < 3 := by omega
      by_cases fresh : status = launched
      · simp [Handled, bind, Except.bind, pure, Except.pure, BadCall, Java.tokens, fresh]
      · simp [Handled, bind, Except.bind, pure, Except.pure, BadCall, fresh, long]

theorem callFor_stream (rest : Text) :
    Handled (callFor tables stream rest) ↔ GoodArguments tables stream (splitStr rest) := by
  have others : stream ≠ circ ∧ stream ≠ orconn ∧ stream ≠ bw := by decide
  have shape : GoodArguments tables stream (splitStr rest) ↔ 4 ≤ (splitStr rest).length :=
    ⟨fun good => good.stream rfl, fun good => ⟨fun same => absurd same others.1, fun _ => good,
      fun same => absurd same others.2.1, fun same => absurd same others.2.2⟩⟩
  rw [shape, callFor, if_neg others.1, if_pos rfl]
  match splitStr rest with
  | [] | [_] | [_, _] | [_, _, _] => simp [Handled, bind, Except.bind]
  | _ :: _ :: _ :: _ :: _ => simp [Handled, bind, Except.bind, pure, Except.pure, BadCall]

theorem callFor_orconn (rest : Text) :
    Handled (callFor tables orconn rest) ↔ GoodArguments tables orconn (splitStr rest) := by
  have others : orconn ≠ circ ∧ orconn ≠ stream ∧ orconn ≠ bw := by decide
  have shape : GoodArguments tables orconn (splitStr rest) ↔ 2 ≤ (splitStr rest).length :=
    ⟨fun good => good.orconn rfl, fun good => ⟨fun same => absurd same others.1,
      fun same => absurd same others.2.1, fun _ => good, fun same => absurd same others.2.2⟩⟩
  rw [shape, callFor, if_neg others.1, if_neg others.2.1, if_pos rfl]
  match splitStr rest with
  | [] | [_] => simp [Handled, bind, Except.bind]
  | _ :: _ :: _ => simp [Handled, bind, Except.bind, pure, Except.pure, BadCall]

theorem callFor_bw (rest : Text) :
    Handled (callFor tables bw rest) ↔ GoodArguments tables bw (splitStr rest) := by
  have others : bw ≠ circ ∧ bw ≠ stream ∧ bw ≠ orconn := by decide
  have shape : GoodArguments tables bw (splitStr rest) ↔ ∃ read written others r w,
      splitStr rest = read :: written :: others ∧
        Java.parseInt tables read = .ok r ∧ Java.parseInt tables written = .ok w :=
    ⟨fun good => good.bw rfl, fun good => ⟨fun same => absurd same others.1,
      fun same => absurd same others.2.1, fun same => absurd same others.2.2, fun _ => good⟩⟩
  rw [shape, callFor, if_neg others.1, if_neg others.2.1, if_neg others.2.2, if_pos rfl]
  match splitStr rest with
  | [] => simp [Handled, bind, Except.bind]
  | [read] =>
      cases first : Java.parseInt tables read <;> simp [Handled, bind, Except.bind, first]
  | read :: written :: more =>
      cases first : Java.parseInt tables read with
      | error e => simp [Handled, bind, Except.bind, first]
      | ok r =>
          cases second : Java.parseInt tables written with
          | error e => simp [Handled, bind, Except.bind, first, second]
          | ok w => simp [Handled, bind, Except.bind, pure, Except.pure, first, second, BadCall]

theorem callFor_iff (tp rest : Text) :
    Handled (callFor tables tp rest) ↔ GoodArguments tables tp (splitStr rest) := by
  by_cases isCirc : tp = circ
  · exact isCirc ▸ callFor_circ tables rest
  by_cases isStream : tp = stream
  · exact isStream ▸ callFor_stream tables rest
  by_cases isOrconn : tp = orconn
  · exact isOrconn ▸ callFor_orconn tables rest
  by_cases isBw : tp = bw
  · exact isBw ▸ callFor_bw tables rest
  -- the remaining types take whatever follows
  have good : GoodArguments tables tp (splitStr rest) :=
    ⟨fun same => absurd same isCirc, fun same => absurd same isStream,
      fun same => absurd same isOrconn, fun same => absurd same isBw⟩
  simp only [good, iff_true, callFor, if_neg isCirc, if_neg isStream, if_neg isOrconn, if_neg isBw]
  split_ifs <;> simp [Handled, pure, Except.pure, BadCall]

theorem eventCall_of_blank {line : ReplyLine} {type rest : Text}
    (msg : line.msg = type ++ ' ' :: rest) (absent : ' ' ∉ type) :
    eventCall tables line = callFor tables (tables.toUpperCase type) rest := by
  have long : (type ++ ' ' :: rest).length = type.length + 1 + rest.length := by
    simp only [List.length_append, List.length_cons]
    omega
  have first : Java.substring (type ++ ' ' :: rest) 0 type.length = .ok type := by
    rw [Java.substring_nat _ _ (by omega), List.take_left' rfl]
  have second : Java.substringFrom (type ++ ' ' :: rest) (type.length + 1) = .ok rest := by
    have dropped : (type ++ ' ' :: rest).drop (type.length + 1) = rest := by
      rw [List.append_cons, List.drop_left' (by simp)]
    have := Java.substringFrom_nat (type ++ ' ' :: rest) (type.length + 1) (by omega)
    rwa [dropped] at this
  rw [eventCall, msg, Java.indexOf_append absent]
  simp only [first, second, bind, Except.bind]

theorem eventCall_iff (line : ReplyLine) :
    Handled (eventCall tables line) ↔ GoodEvent tables line := by
  rcases Java.indexOf_cases line.msg ' ' with ⟨absent, missing⟩ | ⟨type, rest, msg, absent, _⟩
  · have bad : ¬ GoodEvent tables line := by
      rintro ⟨type, rest, msg, _⟩
      exact absent (by simp [msg])
    have thrown : eventCall tables line = .error .stringIndexOutOfBounds := by
      rw [eventCall, missing]
      rfl
    simp [bad, thrown, Handled]
  · rw [eventCall_of_blank tables msg absent, callFor_iff]
    constructor
    · exact fun good => ⟨type, rest, msg, absent, good⟩
    · rintro ⟨type', rest', msg', absent', good⟩
      rw [msg] at msg'
      obtain ⟨rfl, rfl⟩ := Java.append_cons_inj absent absent' msg'
      exact good

end Arguments

/-! ## What escapes -/

section Escapes

variable (tables : CharTables) (prefs : SharedPreferences)

/-- An exception other than an IOException ends the loop. -/
def Ended.Escapes : Ended → Prop
  | .threw (.runtime _) => True
  | _ => False

theorem Ended.escaped_eq_none_iff (ended : Ended) : ended.threadEnd.escaped = none ↔
    ¬ ended.Escapes := by
  match ended with
  | .returned | .threw (.io _) | .threw (.runtime _) => simp [Ended.threadEnd, Ended.Escapes]

theorem handleEvents_throws_iff (events : List ReplyLine) (h : TorEventHandler) :
    (∃ e, (handleEvents tables (TorEventHandler.handler prefs) events h).2 = some e) ↔
      ∃ line ∈ events, ¬ GoodEvent tables line := by
  induction events generalizing h with
  | nil => simp [handleEvents]
  | cons line events ih =>
      rw [List.exists_mem_cons_iff, ← eventCall_iff]
      cases event : eventCall tables line with
      | error e => simp [handleEvents, event, Handled]
      | ok call =>
          have throws := Service.handler_throws_iff prefs h call
          rcases invoked : TorEventHandler.handler prefs h call with ⟨h', thrown⟩
          rw [invoked] at throws
          cases thrown with
          | some e =>
              have bad : BadCall call := throws.mp ⟨e, rfl⟩
              simp [handleEvents, event, invoked, Handled, bad]
          | none =>
              have good : ¬ BadCall call := by simpa using mt throws.mpr
              simp [handleEvents, event, invoked, Handled, good, ih]

/-- A reply that is spelled out: a bad event ends the loop, behind any other
    reply the loop goes on, and hands over what is no event. -/
theorem react_spells {block : List Text} {reply : List ReplyLine} (spells : Spells block reply)
    (rest : List Text) (s : ReaderState TorEventHandler) :
    let loop := react tables (some (TorEventHandler.handler prefs))
    (BadReply tables reply → (loop (block ++ rest) s).1.Escapes) ∧
      (¬ BadReply tables reply → ∃ h, loop (block ++ rest) s =
        loop rest ⟨h, s.handed ++ [reply].filter (!isEvent ·)⟩) := by
  intro loop
  have read : readReply (block ++ rest) = .ok (reply, rest) := by
    rw [readReply, spells.readLines, List.nil_append]
  have step : loop (block ++ rest) s = _ := react_reply read spells.nonempty.2
  rw [step, BadReply]
  cases kind : isEvent reply with
  | false =>
      simp only [Bool.false_eq_true, false_and, false_implies, not_false_iff, if_false, true_and,
        forall_const]
      exact ⟨s.handler, by simp [loop, kind]⟩
  | true =>
      have throws := handleEvents_throws_iff tables prefs reply s.handler
      rcases handled : handleEvents tables (TorEventHandler.handler prefs) reply s.handler with
        ⟨h, thrown⟩
      rw [handled] at throws
      simp only [true_and, if_true, handleEvent, handled, ← throws]
      cases thrown with
      | some e => simp [Ended.Escapes]
      | none => exact ⟨by simp, fun _ => ⟨h, by simp [loop, kind]⟩⟩

theorem Fatal.escapes {input : List Text} (fatal : Fatal tables input)
    (s : ReaderState TorEventHandler) :
    (react tables (some (TorEventHandler.handler prefs)) input s).1.Escapes := by
  induction fatal generalizing s with
  | cut broken => rw [react_error (broken.readLines [])]; trivial
  | event spells bad => exact (react_spells tables prefs spells _ s).1 bad
  | @later block rest reply spells _ ih =>
      obtain ⟨ends, goesOn⟩ := react_spells tables prefs spells rest s
      by_cases bad : BadReply tables reply
      · exact ends bad
      · obtain ⟨h, same⟩ := goesOn bad
        rw [same]
        exact ih _

theorem fatal_of_escapes (input : List Text) (s : ReaderState TorEventHandler)
    (escapes : (react tables (some (TorEventHandler.handler prefs)) input s).1.Escapes) :
    Fatal tables input := by
  by_cases ended : input = []
  · subst ended
    have read : readReply [] = .ok ([], []) := by rw [readReply, readLines, if_pos rfl]
    rw [react_end read] at escapes
    exact escapes.elim
  · rcases readLines_cases [] input (.inr ended) with
      ⟨block, reply, rest, split, spells⟩ | broken | ⟨e, thrown⟩
    · have shorter : rest.length < input.length := by
        have some := List.length_pos_iff.mpr spells.nonempty.1
        rw [split, List.length_append]
        omega
      rw [split] at escapes ⊢
      by_cases bad : BadReply tables reply
      · exact .event spells bad
      · obtain ⟨h, same⟩ := (react_spells tables prefs spells rest s).2 bad
        rw [same] at escapes
        exact .later spells (fatal_of_escapes rest _ escapes)
    · exact .cut broken
    · rw [react_error thrown] at escapes
      exact escapes.elim
termination_by input.length

end Escapes

/-- The reader thread lets no exception escape exactly when the characters
    received do not break off inside a data block of a reply and carry no event
    that cannot be taken apart. -/
theorem reader_survives_iff (tables : CharTables) (prefs : SharedPreferences) (received : Text)
    (s : ReaderState TorEventHandler) :
    (ControlParseThread.run tables (some (TorEventHandler.handler prefs)) received s).escaped =
        none ↔
      ¬ Fatal tables (Java.lines received) := by
  rw [ControlParseThread.run, Ended.escaped_eq_none_iff]
  exact not_congr ⟨fatal_of_escapes tables prefs _ s, fun fatal => fatal.escapes tables prefs s⟩

/-- The connection is closed inside a data block. -/
theorem reader_dies :
    (ControlParseThread.run .ascii (some (TorEventHandler.handler (.of [] [])))
      "250+a\n".toList { handler := { mCurrentStatus := .on } }).escaped =
        some .nullPointer := by
  have broken : CutInData (Java.lines "250+a\n".toList) :=
    @CutInData.here "250".toList "a".toList [] rfl (by simp)
  rw [ControlParseThread.run, react_error (broken.readLines [])]
  rfl

end Orbot.Control
