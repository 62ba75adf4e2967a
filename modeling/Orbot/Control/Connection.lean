import Orbot.Control.React
import Orbot.Lib.Transition

/-! # Requests, replies and the reader

The threads around one `TorControlConnection`: callers of
`sendAndWaitForResponse` and `shutdownTor`, the reader, and the server at the
other end. A call holds the connection's monitor from its start to its end, and
a critical section on the list of waiters is one step. A command is named by
its position among the commands sent; so is its waiter. The reader is launched
once.
-/

namespace Orbot.Control

open Java (Text)
open Lib

/-! ## State -/

/-- A command that reached the server. `waits` is false where no waiter was
    queued: by `shutdownTor`, and when the write threw. -/
structure Sent where
  text : Text
  waits : Bool
  deriving Repr, DecidableEq

/-- A reply on its way, with the command it answers; events answer none. -/
structure Message where
  lines : List ReplyLine
  answers : Option Nat
  deriving Repr, DecidableEq

inductive Stage where
  /-- the exception and the thread were checked -/
  | checked
  /-- in `getResponse`, on the waiter of this command -/
  | waiting (command : Nat)
  deriving Repr, DecidableEq

/-- A call of `sendAndWaitForResponse` that holds the monitor. -/
structure Call where
  thread : Nat
  stage : Stage
  deriving Repr, DecidableEq

inductive Reader where
  | notStarted
  | reading
  | holding (message : Message)
  /-- with the reply it held, if any -/
  | ended (held : Option Message)
  deriving Repr, DecidableEq

/-- A reply handed over by `react`, and the waiter that was removed for it. -/
structure Handed where
  message : Message
  waiter : Option Nat
  deriving Repr, DecidableEq

/-- A call that returned, or threw a TorControlError, on a reply. -/
structure Finished where
  thread : Nat
  command : Nat
  reply : Message
  result : Except IOException (List ReplyLine)

/-- A call that found the exception of the reader, and threw it. -/
structure Refused where
  thread : Nat
  exception : IOException
  deriving Repr, DecidableEq

structure Conn where
  monitor : Option Call := none
  reader : Reader := .notStarted
  parseThreadException : Option IOException := none
  sent : List Sent := []
  waiters : List Nat := []
  response : Nat → Option Message := fun _ => none
  /-- commands the server has answered -/
  answered : Nat := 0
  inbound : List Message := []
  handed : List Handed := []
  finished : List Finished := []
  refused : List Refused := []

/-- What `sendAndWaitForResponse` makes of a reply. -/
def callResult (lst : List ReplyLine) : Except IOException (List ReplyLine) :=
  match lst.find? fun c => !("2".toList.isPrefixOf c.status) with
  | some c => .error (.torControlError ("Error reply: ".toList ++ c.msg))
  | none => .ok lst

/-! ## Steps -/

inductive Action where
  | launchThread
  /-- a thread calls `sendAndWaitForResponse` -/
  | enter (thread : Nat)
  | send (text : Text)
  /-- the write throws; the command may have reached the server -/
  | sendFails (reached : Option Text)
  | wake
  | interrupt
  | shutdownTor (signal : Text)
  /-- the server answers the next command -/
  | answer (lines : List ReplyLine)
  | event (lines : List ReplyLine)
  | read
  | dispatch
  | readerEnds (how : Ended)

/-- `checkThread` -/
def Reader.check : Reader → Reader
  | .notStarted => .reading
  | reader => reader

def step (s : Conn) : Action → Option Conn
  | .launchThread =>
      if s.monitor = none ∧ s.reader = .notStarted then some { s with reader := .reading } else none
  | .enter thread =>
      if s.monitor = none then
        match s.parseThreadException with
        | some ex => some { s with refused := s.refused ++ [⟨thread, ex⟩] }
        | none =>
            some { s with monitor := some ⟨thread, .checked⟩, reader := s.reader.check }
      else none
  | .send text =>
      match s.monitor with
      | some ⟨thread, .checked⟩ =>
          some { s with
            monitor := some ⟨thread, .waiting s.sent.length⟩
            sent := s.sent ++ [⟨text, true⟩]
            waiters := s.waiters ++ [s.sent.length] }
      | _ => none
  | .sendFails reached =>
      match s.monitor with
      | some ⟨_, .checked⟩ =>
          some { s with
            monitor := none
            sent := s.sent ++ (reached.map (⟨·, false⟩)).toList }
      | _ => none
  | .wake =>
      match s.monitor with
      | some ⟨thread, .waiting command⟩ =>
          match s.response command with
          | some reply =>
              some { s with
                monitor := none
                finished := s.finished ++ [⟨thread, command, reply, callResult reply.lines⟩] }
          | none => none
      | _ => none
  | .interrupt =>
      match s.monitor with
      -- the waiter stays in the queue
      | some ⟨_, .waiting _⟩ => some { s with monitor := none }
      | _ => none
  | .shutdownTor signal =>
      some { s with sent := s.sent ++ [⟨"SIGNAL ".toList ++ signal ++ "\r\n".toList, false⟩] }
  | .answer lines =>
      if s.answered < s.sent.length ∧ lines ≠ [] ∧ isEvent lines = false then
        some { s with
          inbound := s.inbound ++ [⟨lines, some s.answered⟩]
          answered := s.answered + 1 }
      else none
  | .event lines =>
      if isEvent lines then some { s with inbound := s.inbound ++ [⟨lines, none⟩] } else none
  | .read =>
      match s.reader, s.inbound with
      | .reading, message :: rest => some { s with reader := .holding message, inbound := rest }
      | _, _ => none
  | .dispatch =>
      match s.reader with
      | .holding message =>
          if isEvent message.lines then some { s with reader := .reading }
          else
            match s.waiters with
            | [] =>
                some { s with reader := .reading, handed := s.handed ++ [⟨message, none⟩] }
            | w :: waiters =>
                some { s with
                  reader := .reading
                  waiters := waiters
                  response := fun k => if k = w then some message else s.response k
                  handed := s.handed ++ [⟨message, some w⟩] }
      | _ => none
  | .readerEnds how =>
      match s.reader, how with
      | .reading, how =>
          some { s with
            reader := .ended none
            parseThreadException := how.threadEnd.parseThreadException }
      -- out of `handleEvent`
      | .holding message, .threw (.runtime _) =>
          if isEvent message.lines then some { s with reader := .ended (some message) } else none
      | _, _ => none

/-! ## The steps as rules -/

/-- One rule for each way a step can go. -/
inductive Moves (s : Conn) : Action → Conn → Prop where
  | launchThread : s.monitor = none → s.reader = .notStarted →
      Moves s .launchThread { s with reader := .reading }
  | refused {thread : Nat} {ex : IOException} : s.monitor = none →
      s.parseThreadException = some ex →
      Moves s (.enter thread) { s with refused := s.refused ++ [⟨thread, ex⟩] }
  | enter {thread : Nat} : s.monitor = none → s.parseThreadException = none →
      Moves s (.enter thread)
        { s with monitor := some ⟨thread, .checked⟩, reader := s.reader.check }
  | send {thread : Nat} {text : Text} : s.monitor = some ⟨thread, .checked⟩ →
      Moves s (.send text)
        { s with
          monitor := some ⟨thread, .waiting s.sent.length⟩
          sent := s.sent ++ [⟨text, true⟩]
          waiters := s.waiters ++ [s.sent.length] }
  | lost {thread : Nat} : s.monitor = some ⟨thread, .checked⟩ →
      Moves s (.sendFails none) { s with monitor := none }
  | half {thread : Nat} {text : Text} : s.monitor = some ⟨thread, .checked⟩ →
      Moves s (.sendFails (some text))
        { s with monitor := none, sent := s.sent ++ [⟨text, false⟩] }
  | wake {thread command : Nat} {reply : Message} :
      s.monitor = some ⟨thread, .waiting command⟩ → s.response command = some reply →
      Moves s .wake
        { s with
          monitor := none
          finished := s.finished ++ [⟨thread, command, reply, callResult reply.lines⟩] }
  | interrupt {thread command : Nat} : s.monitor = some ⟨thread, .waiting command⟩ →
      Moves s .interrupt { s with monitor := none }
  | shutdownTor {signal : Text} :
      Moves s (.shutdownTor signal)
        { s with sent := s.sent ++ [⟨"SIGNAL ".toList ++ signal ++ "\r\n".toList, false⟩] }
  | answer {lines : List ReplyLine} : s.answered < s.sent.length → isEvent lines = false →
      Moves s (.answer lines)
        { s with inbound := s.inbound ++ [⟨lines, some s.answered⟩], answered := s.answered + 1 }
  | event {lines : List ReplyLine} : isEvent lines = true →
      Moves s (.event lines) { s with inbound := s.inbound ++ [⟨lines, none⟩] }
  | read {message : Message} {rest : List Message} : s.reader = .reading →
      s.inbound = message :: rest →
      Moves s .read { s with reader := .holding message, inbound := rest }
  | handled {message : Message} : s.reader = .holding message → isEvent message.lines = true →
      Moves s .dispatch { s with reader := .reading }
  | dropped {message : Message} : s.reader = .holding message →
      isEvent message.lines = false → s.waiters = [] →
      Moves s .dispatch { s with reader := .reading, handed := s.handed ++ [⟨message, none⟩] }
  | handed {message : Message} {w : Nat} {waiters : List Nat} : s.reader = .holding message →
      isEvent message.lines = false → s.waiters = w :: waiters →
      Moves s .dispatch
        { s with
          reader := .reading
          waiters := waiters
          response := fun k => if k = w then some message else s.response k
          handed := s.handed ++ [⟨message, some w⟩] }
  | ends {how : Ended} : s.reader = .reading →
      Moves s (.readerEnds how)
        { s with
          reader := .ended none
          parseThreadException := how.threadEnd.parseThreadException }
  | dies {message : Message} {e : Java.RuntimeException} : s.reader = .holding message →
      isEvent message.lines = true →
      Moves s (.readerEnds (.threw (.runtime e))) { s with reader := .ended (some message) }

theorem moves_of_step {s s' : Conn} {a : Action} (taken : step s a = some s') : Moves s a s' := by
  cases a with
  | launchThread =>
      simp only [step, Option.ite_none_right_eq_some, Option.some.injEq] at taken
      obtain ⟨⟨free, fresh⟩, rfl⟩ := taken
      exact .launchThread free fresh
  | enter thread =>
      simp only [step, Option.ite_none_right_eq_some] at taken
      obtain ⟨free, taken⟩ := taken
      split at taken
      · cases taken
        exact .refused free ‹_›
      · cases taken
        exact .enter free ‹_›
  | send text =>
      simp only [step] at taken
      split at taken
      · cases taken
        exact .send ‹_›
      · cases taken
  | sendFails reached =>
      simp only [step] at taken
      split at taken
      · cases taken
        cases reached with
        | none => simpa using Moves.lost ‹_›
        | some text => exact .half ‹_›
      · cases taken
  | wake =>
      simp only [step] at taken
      split at taken
      · split at taken
        · cases taken
          exact .wake ‹_› ‹_›
        · cases taken
      · cases taken
  | interrupt =>
      simp only [step] at taken
      split at taken
      · cases taken
        exact .interrupt ‹_›
      · cases taken
  | shutdownTor signal =>
      cases taken
      exact .shutdownTor
  | answer lines =>
      simp only [step, Option.ite_none_right_eq_some, Option.some.injEq] at taken
      obtain ⟨⟨unanswered, _, kind⟩, rfl⟩ := taken
      exact .answer unanswered kind
  | event lines =>
      simp only [step, Option.ite_none_right_eq_some, Option.some.injEq] at taken
      obtain ⟨kind, rfl⟩ := taken
      exact .event kind
  | read =>
      simp only [step] at taken
      split at taken
      · cases taken
        exact .read ‹_› ‹_›
      · cases taken
  | dispatch =>
      simp only [step] at taken
      split at taken
      · split_ifs at taken with kind
        · cases taken
          exact .handled ‹_› kind
        · have kind := Bool.not_eq_true _ ▸ kind
          split at taken
          · cases taken
            exact .dropped ‹_› kind ‹_›
          · cases taken
            exact .handed ‹_› kind ‹_›
      · cases taken
  | readerEnds how =>
      simp only [step] at taken
      split at taken
      · cases taken
        exact .ends ‹_›
      · split_ifs at taken with kind
        cases taken
        exact .dies ‹_› kind
      · cases taken

/-- What the server has sent and `react` has not dealt with. -/
def Conn.inFlight (s : Conn) : List Message :=
  (match s.reader with
    | .holding message => [message]
    | .ended held => held.toList
    | _ => []) ++ s.inbound

/-- The reply to the command was handed over by `react`. -/
def Conn.handedOver (s : Conn) (command : Nat) : Bool :=
  s.handed.any (·.message.answers = some command)

end Orbot.Control
