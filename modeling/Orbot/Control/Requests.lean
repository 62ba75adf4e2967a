import Mathlib.Data.List.Basic
import Orbot.Control.Connection

/-! # Replies in step with requests

A reply is given to the oldest waiter, whichever command it answers. It is the
right one as long as the queue is the unanswered part of the commands sent. A
command that queues no waiter keeps this up if no request follows it before its
reply has come.
-/

namespace Orbot.Control

open Java (Text)
open Lib.Transition

/-! ## What is in flight -/

section InFlight

variable {s : Conn} {message : Message}

theorem inFlight_reading (reading : s.reader = .reading) : s.inFlight = s.inbound := by
  simp [Conn.inFlight, reading]

theorem inFlight_holding (holding : s.reader = .holding message) :
    s.inFlight = message :: s.inbound := by
  simp [Conn.inFlight, holding]

theorem inFlight_check : ({ s with reader := s.reader.check } : Conn).inFlight = s.inFlight := by
  cases reader : s.reader <;> simp [Conn.inFlight, Reader.check, reader]

theorem inFlight_arrives :
    ({ s with inbound := s.inbound ++ [message] } : Conn).inFlight = s.inFlight ++ [message] := by
  simp [Conn.inFlight]

end InFlight

/-! ## The invariant -/

/-- The commands are answered and the replies handed over in the order sent,
    and the waiters are those of the next commands in that order. -/
structure InStep (s : Conn) : Prop where
  handed_le : s.handed.length ≤ s.answered
  answered_le : s.answered ≤ s.sent.length
  kinds : ∀ m ∈ s.inFlight, isEvent m.lines = m.answers.isNone
  handed_eq : s.handed.map (·.message.answers) = (List.range s.handed.length).map some
  inFlight_eq : s.inFlight.filterMap Message.answers =
    List.range' s.handed.length (s.answered - s.handed.length)
  waiters_eq : s.waiters = List.range' s.handed.length s.waiters.length
  waiters_le : s.handed.length + s.waiters.length ≤ s.sent.length
  waits_iff : ∀ k c, s.handed.length ≤ k → s.sent[k]? = some c →
    (c.waits = true ↔ k < s.handed.length + s.waiters.length)
  own : ∀ h ∈ s.handed, ∀ k c, h.message.answers = some k → s.sent[k]? = some c →
    h.waiter = if c.waits then some k else none
  response_iff : ∀ w m, s.response w = some m ↔ ∃ h ∈ s.handed, h.message = m ∧ h.waiter = some w
  finished : ∀ f ∈ s.finished,
    f.reply.answers = some f.command ∧ f.result = callResult f.reply.lines

namespace InStep

theorem initial : InStep {} := by
  constructor <;> simp [Conn.inFlight]

section Facts

variable {s : Conn} (inv : InStep s)
include inv

theorem handedOver_iff (k : Nat) : s.handedOver k = true ↔ k < s.handed.length := by
  have mem : some k ∈ s.handed.map (·.message.answers) ↔ k < s.handed.length := by
    simp [inv.handed_eq]
  simpa [Conn.handedOver] using mem

theorem handed_le_sent : s.handed.length ≤ s.sent.length :=
  inv.handed_le.trans inv.answered_le

/-- The command a reply was handed over for. -/
theorem exists_command {h : Handed} (mem : h ∈ s.handed) :
    ∃ k c, h.message.answers = some k ∧ k < s.handed.length ∧ s.sent[k]? = some c := by
  have listed : h.message.answers ∈ (List.range s.handed.length).map some :=
    inv.handed_eq ▸ List.mem_map_of_mem mem
  obtain ⟨k, small, same⟩ := List.mem_map.mp listed
  have small := List.mem_range.mp small
  exact ⟨k, _, same.symm, small, List.getElem?_eq_getElem (small.trans_le inv.handed_le_sent)⟩

theorem lt_of_answers {h : Handed} {k : Nat} (mem : h ∈ s.handed)
    (answers : h.message.answers = some k) : k < s.handed.length := by
  obtain ⟨k', _, answers', small, _⟩ := inv.exists_command mem
  rw [answers] at answers'
  cases answers'
  exact small

/-- A waiter that was removed for a reply is that of the command answered, which
    is one that waits. -/
theorem waiter_own {h : Handed} {w : Nat} (mem : h ∈ s.handed) (waiter : h.waiter = some w) :
    h.message.answers = some w ∧ w < s.handed.length ∧
      ∃ c, s.sent[w]? = some c ∧ c.waits = true := by
  obtain ⟨k, c, answers, small, sent⟩ := inv.exists_command mem
  have own := inv.own h mem k c answers sent
  cases waits : c.waits with
  | false => simp [waiter, waits] at own
  | true =>
      obtain rfl : w = k := by simpa [waiter, waits] using own
      exact ⟨answers, small, c, sent, waits⟩

theorem answers_of_response {w : Nat} {m : Message} (given : s.response w = some m) :
    m.answers = some w ∧ ∃ c, s.sent[w]? = some c ∧ c.waits = true := by
  obtain ⟨h, mem, rfl, waiter⟩ := (inv.response_iff w m).mp given
  obtain ⟨answers, _, sent⟩ := inv.waiter_own mem waiter
  exact ⟨answers, sent⟩

/-- The reply that is dispatched next answers the oldest unanswered command. -/
theorem next_reply {message : Message} (holding : s.reader = .holding message)
    (kind : isEvent message.lines = false) :
    message.answers = some s.handed.length ∧ s.handed.length < s.answered ∧
      s.inbound.filterMap Message.answers =
        List.range' (s.handed.length + 1) (s.answered - (s.handed.length + 1)) := by
  have isReply := inv.kinds message (by simp [inFlight_holding holding])
  obtain ⟨k, answers⟩ : ∃ k, message.answers = some k := by
    rw [kind] at isReply
    exact Option.isSome_iff_exists.mp (by simpa using isReply.symm)
  have pending := inv.inFlight_eq
  rw [inFlight_holding holding, List.filterMap_cons_some answers] at pending
  obtain ⟨n, left⟩ : ∃ n, s.answered - s.handed.length = n + 1 := by
    apply Nat.exists_eq_succ_of_ne_zero
    intro none
    simp [none] at pending
  rw [left, List.range'_succ, List.cons.injEq] at pending
  obtain ⟨rfl, later⟩ := pending
  refine ⟨answers, by omega, ?_⟩
  rw [later]
  congr 1
  omega

/-- While every unanswered command has its waiter, the queue reaches up to the
    last command sent. -/
theorem all_queued (clear : ∀ k c, s.sent[k]? = some c → c.waits = false →
    s.handedOver k = true) : s.handed.length + s.waiters.length = s.sent.length := by
  refine Nat.le_antisymm inv.waiters_le (Nat.le_of_not_lt fun gap => ?_)
  obtain ⟨c, sent⟩ : ∃ c, s.sent[s.handed.length + s.waiters.length]? = some c :=
    ⟨_, List.getElem?_eq_getElem gap⟩
  have queued := inv.waits_iff _ c (Nat.le_add_right _ _) sent
  have silent : c.waits = false := by simpa using queued
  have before := (inv.handedOver_iff _).mp (clear _ c sent silent)
  omega

/-- A command is written. If it waits, its waiter has to come right behind those
    of all commands before it. -/
theorem written (c : Sent)
    (full : c.waits = true → s.handed.length + s.waiters.length = s.sent.length) :
    InStep { s with
      sent := s.sent ++ [c]
      waiters := s.waiters ++ if c.waits then [s.sent.length] else [] } where
  handed_le := inv.handed_le
  answered_le := by
    have := inv.answered_le
    simp only [List.length_append, List.length_singleton]
    omega
  kinds := inv.kinds
  handed_eq := inv.handed_eq
  inFlight_eq := inv.inFlight_eq
  waiters_eq := by
    cases waits : c.waits with
    | false => simpa using inv.waiters_eq
    | true =>
        simp only [if_true, List.length_append, List.length_singleton, List.range'_concat,
          Nat.one_mul, full waits]
        rw [← inv.waiters_eq]
  waiters_le := by
    have := inv.waiters_le
    cases waits : c.waits with
    | false =>
        simp only [Bool.false_eq_true, if_false, List.append_nil, List.length_append,
          List.length_singleton]
        omega
    | true =>
        have := full waits
        simp only [if_true, List.length_append, List.length_singleton]
        omega
  waits_iff := by
    intro k c' old sent
    have room := inv.waiters_le
    rcases Nat.lt_trichotomy k s.sent.length with before | rfl | after
    · rw [List.getElem?_append_left before] at sent
      rw [inv.waits_iff k c' old sent]
      cases waits : c.waits with
      | false => simp
      | true =>
          have := full waits
          simp only [if_true, List.length_append, List.length_singleton]
          omega
    · obtain rfl : c = c' := by simpa using sent
      cases waits : c.waits with
      | false => simpa using room
      | true =>
          have := full waits
          simp only [if_true, List.length_append, List.length_singleton, true_iff]
          omega
    · rw [List.getElem?_eq_none (by simp; omega)] at sent
      cases sent
  own := by
    intro h mem k c' answers sent
    have small := (inv.lt_of_answers mem answers).trans_le inv.handed_le_sent
    rw [List.getElem?_append_left small] at sent
    exact inv.own h mem k c' answers sent
  response_iff := inv.response_iff
  finished := inv.finished

theorem written_silently (text : Text) :
    InStep { s with sent := s.sent ++ [⟨text, false⟩] } := by
  simpa using inv.written ⟨text, false⟩ nofun

/-- What arrives is an event, or the answer to the next command. -/
theorem arrives {message : Message} {answered : Nat}
    (kind : isEvent message.lines = message.answers.isNone) (bound : answered ≤ s.sent.length)
    (next : message.answers.toList = List.range' s.answered (answered - s.answered))
    (more : s.answered ≤ answered) :
    InStep { s with inbound := s.inbound ++ [message], answered := answered } where
  handed_le := inv.handed_le.trans more
  answered_le := bound
  kinds := by
    intro m mem
    have mem : m ∈ s.inFlight ++ [message] := by simpa [Conn.inFlight] using mem
    rcases List.mem_append.mp mem with old | new
    · exact inv.kinds m old
    · obtain rfl := List.mem_singleton.mp new
      exact kind
  handed_eq := inv.handed_eq
  inFlight_eq := by
    have split : answered - s.handed.length =
        (s.answered - s.handed.length) + (answered - s.answered) := by
      have := inv.handed_le
      omega
    have start : s.handed.length + (s.answered - s.handed.length) = s.answered := by
      have := inv.handed_le
      omega
    have arrived :
        Conn.inFlight { s with inbound := s.inbound ++ [message], answered := answered } =
          s.inFlight ++ [message] := inFlight_arrives
    rw [arrived, List.filterMap_append, inv.inFlight_eq, split, ← List.range'_append_1, start,
      ← next]
    cases answers : message.answers <;> simp [answers]
  waiters_eq := inv.waiters_eq
  waiters_le := inv.waiters_le
  waits_iff := inv.waits_iff
  own := inv.own
  response_iff := inv.response_iff
  finished := inv.finished

/-- The reply goes to the oldest waiter, if there is one. -/
theorem hands {message : Message} (holding : s.reader = .holding message)
    (kind : isEvent message.lines = false) :
    InStep { s with
      reader := .reading
      waiters := s.waiters.tail
      response := fun k => if s.waiters.head? = some k then some message else s.response k
      handed := s.handed ++ [⟨message, s.waiters.head?⟩] } := by
  obtain ⟨answers, unanswered, later⟩ := inv.next_reply holding kind
  have head : s.waiters.head? = if s.waiters.length = 0 then none else some s.handed.length := by
    conv_lhs => rw [inv.waiters_eq]
    exact List.head?_range'
  refine
    { handed_le := ?handed_le, answered_le := inv.answered_le, kinds := ?kinds,
      handed_eq := ?handed_eq, inFlight_eq := ?inFlight_eq, waiters_eq := ?waiters_eq,
      waiters_le := ?waiters_le, waits_iff := ?waits_iff, own := ?own,
      response_iff := ?response_iff, finished := inv.finished }
  case handed_le =>
    simp only [List.length_append, List.length_singleton]
    omega
  case kinds =>
    intro m mem
    have mem : m ∈ s.inbound := by simpa [Conn.inFlight] using mem
    exact inv.kinds m (by simp [inFlight_holding holding, mem])
  case handed_eq => simp [inv.handed_eq, List.range_succ, answers]
  case inFlight_eq => simpa [Conn.inFlight] using later
  case waiters_eq =>
    simp only [List.length_append, List.length_singleton, List.length_tail]
    conv_lhs => rw [inv.waiters_eq]
    exact List.tail_range'
  case waiters_le =>
    have := inv.waiters_le
    have := inv.answered_le
    simp only [List.length_append, List.length_singleton, List.length_tail]
    omega
  case waits_iff =>
    intro k c old sent
    simp only [List.length_append, List.length_singleton, List.length_tail] at old ⊢
    rw [inv.waits_iff k c (by omega) sent]
    omega
  case own =>
    intro h mem k c answered sent
    rcases List.mem_append.mp mem with old | new
    · exact inv.own h old k c answered sent
    · obtain rfl := List.mem_singleton.mp new
      obtain rfl : s.handed.length = k := by simpa [answers] using answered
      have waits := inv.waits_iff _ c le_rfl sent
      by_cases empty : s.waiters.length = 0
      · have silent : c.waits = false := by simpa [empty] using waits
        simp only [head, if_pos empty, silent, Bool.false_eq_true, if_false]
      · have waits := waits.mpr (by omega)
        simp only [head, if_neg empty, waits, if_true]
  case response_iff =>
    intro w m
    simp only [List.mem_append, List.mem_singleton, or_and_right, exists_or, exists_eq_left]
    by_cases first : s.waiters.head? = some w
    · -- no earlier reply went to this waiter
      have fresh : ∀ h ∈ s.handed, h.waiter ≠ some w := by
        intro h mem waiter
        have small := (inv.waiter_own mem waiter).2.1
        rw [head] at first
        split_ifs at first
        simp only [Option.some.injEq] at first
        omega
      have none : ¬ ∃ h ∈ s.handed, h.message = m ∧ h.waiter = some w :=
        fun ⟨h, mem, _, waiter⟩ => fresh h mem waiter
      simp only [first, if_true, none, false_or, and_true, Option.some.injEq]
    · simp only [first, if_false, and_false, or_false]
      exact inv.response_iff w m

end Facts

end InStep

/-- No request is written while a command without a waiter is unanswered. -/
def Clear (s : Conn) : Action → Prop
  | .send _ => ∀ k (written : k < s.sent.length), s.sent[k].waits = false → s.handedOver k = true
  | _ => True

instance (s : Conn) : (a : Action) → Decidable (Clear s a)
  | .send _ => inferInstanceAs (Decidable
      (∀ k (written : k < s.sent.length), s.sent[k].waits = false → s.handedOver k = true))
  | .launchThread | .enter _ | .sendFails _ | .wake | .interrupt | .shutdownTor _ | .answer _
  | .event _ | .read | .dispatch | .readerEnds _ => .isTrue trivial

/-- Taking up the monitor, and moving what is in flight between the stream and
    the reader. -/
theorem InStep.frame {s s' : Conn} (inv : InStep s)
    (frame : s' = { s with
      monitor := s'.monitor
      reader := s'.reader
      parseThreadException := s'.parseThreadException
      inbound := s'.inbound
      refused := s'.refused })
    (same : s'.inFlight = s.inFlight) : InStep s' := by
  rw [frame] at same ⊢
  exact { inv with
    kinds := by rw [same]; exact inv.kinds
    inFlight_eq := by rw [same]; exact inv.inFlight_eq }

theorem InStep.step {s s' : Conn} {a : Action} (inv : InStep s) (clear : Clear s a)
    (taken : step s a = some s') : InStep s' := by
  cases moves_of_step taken with
  | launchThread _ fresh => exact inv.frame rfl (by simp [Conn.inFlight, fresh])
  | refused => exact inv.frame rfl rfl
  | enter => exact inv.frame rfl inFlight_check
  | lost => exact inv.frame rfl rfl
  | interrupt => exact inv.frame rfl rfl
  | send holds =>
      have full : s.handed.length + s.waiters.length = s.sent.length := by
        apply inv.all_queued
        intro k c sent silent
        obtain ⟨written, rfl⟩ := List.getElem?_eq_some_iff.mp sent
        exact clear k written silent
      exact (inv.written ⟨_, true⟩ fun _ => full).frame rfl rfl
  | half => exact (inv.written_silently _).frame rfl rfl
  | shutdownTor => exact inv.written_silently _
  | wake _ given =>
      refine { inv with finished := fun f mem => ?_ }
      rcases List.mem_append.mp mem with old | new
      · exact inv.finished f old
      · obtain rfl := List.mem_singleton.mp new
        exact ⟨(inv.answers_of_response given).1, rfl⟩
  | answer unanswered kind => exact inv.arrives (by simp [kind]) unanswered (by simp) (by omega)
  | event kind => exact inv.arrives (by simp [kind]) inv.answered_le (by simp) le_rfl
  | read reading inbound =>
      exact inv.frame rfl (by rw [inFlight_reading reading, inbound, inFlight_holding rfl])
  | @handled message holding kind =>
      have flight := inFlight_holding holding
      have event : message.answers = none := by
        have := inv.kinds message (by simp [flight])
        simpa [kind] using this.symm
      refine { inv with kinds := fun m mem => inv.kinds m ?_, inFlight_eq := ?_ }
      · rw [inFlight_reading rfl] at mem
        rw [flight]
        exact List.mem_cons_of_mem _ mem
      · rw [inFlight_reading rfl, ← inv.inFlight_eq, flight, List.filterMap_cons_none event]
  | dropped holding kind none => simpa [none] using inv.hands holding kind
  | handed holding kind queue => simpa [queue, eq_comm] using inv.hands holding kind
  | ends reading => exact inv.frame rfl (inFlight_reading reading).symm
  | dies holding => exact inv.frame rfl (inFlight_holding holding).symm

theorem inStep_of_reaches {s : Conn} (reached : Reaches step Clear {} s) : InStep s :=
  reached.invariant .initial fun _ _ _ inv clear taken => inv.step clear taken

/-! ## Every request gets its own reply -/

/-- No write fails, and `shutdownTor` is not called. -/
def Ordinary : Conn → Action → Prop
  | _, .sendFails _ | _, .shutdownTor _ => False
  | _, _ => True

instance (s : Conn) : (a : Action) → Decidable (Ordinary s a)
  | .sendFails _ | .shutdownTor _ => .isFalse id
  | .launchThread | .enter _ | .send _ | .wake | .interrupt | .answer _ | .event _ | .read
  | .dispatch | .readerEnds _ => .isTrue trivial

def AllWait (s : Conn) : Prop := ∀ c ∈ s.sent, c.waits = true

theorem all_wait {s : Conn} (reached : Reaches step Ordinary {} s) : AllWait s := by
  apply reached.invariant (by simp [AllWait])
  intro s a s' waits ordinary taken
  cases moves_of_step taken with
  | send =>
      intro c mem
      rcases List.mem_append.mp mem with old | new
      · exact waits c old
      · obtain rfl := List.mem_singleton.mp new
        rfl
  | lost | half | shutdownTor => exact ordinary.elim
  | _ => exact waits

/-- The waiters are those of the commands whose reply was not handed over, the
    calls that ended did so on the reply to their own command, and each reply
    the server sent is on its way or was given to its own waiter. -/
structure OwnReplies (s : Conn) : Prop where
  waiters_eq : s.waiters = (List.range s.sent.length).filter (!s.handedOver ·)
  finished : ∀ f ∈ s.finished,
    f.reply.answers = some f.command ∧ f.result = callResult f.reply.lines
  handed : ∀ h ∈ s.handed, ∃ k, h.message.answers = some k ∧ h.waiter = some k ∧
    s.response k = some h.message
  answered_eq : s.handed.filterMap (·.message.answers) ++ s.inFlight.filterMap Message.answers =
    List.range s.answered

theorem filter_range_le (n m : Nat) (le : n ≤ m) (p : Nat → Bool)
    (split : ∀ k, p k = true ↔ n ≤ k) :
    (List.range m).filter p = List.range' n (m - n) := by
  obtain ⟨d, rfl⟩ := Nat.exists_eq_add_of_le le
  rw [List.range_eq_range', ← List.range'_append_1, List.filter_append, Nat.add_sub_cancel_left,
    List.filter_eq_nil_iff.mpr, List.filter_eq_self.mpr, List.nil_append, Nat.zero_add]
  · intro k mem
    exact (split k).mpr (by simp at mem; omega)
  · intro k mem
    rw [split]
    simp at mem
    omega

theorem own_replies {s : Conn} (reached : Reaches step Ordinary {} s) : OwnReplies s := by
  have clear : ∀ s a, Reaches step Ordinary {} s → Ordinary s a → Clear s a := by
    intro s a reached _
    cases a with
    | send =>
        intro k written silent
        simp [all_wait reached _ (List.getElem_mem written)] at silent
    | _ => trivial
  have inv : InStep s := inStep_of_reaches (reached.imp clear)
  have full : s.handed.length + s.waiters.length = s.sent.length := by
    apply inv.all_queued
    intro k c sent silent
    simp [all_wait reached c (List.mem_of_getElem? sent)] at silent
  refine
    { waiters_eq := ?queue, finished := inv.finished, handed := ?given, answered_eq := ?order }
  case queue =>
    have filtered := filter_range_le s.handed.length s.sent.length inv.handed_le_sent
      (!s.handedOver ·) fun k => by
        rw [Bool.not_eq_true', ← Bool.not_eq_true, inv.handedOver_iff, Nat.not_lt]
    rw [filtered, inv.waiters_eq, ← full, Nat.add_sub_cancel_left]
  case given =>
    intro h mem
    obtain ⟨k, c, answers, _, sent⟩ := inv.exists_command mem
    have waiter := inv.own h mem k c answers sent
    rw [if_pos (all_wait reached c (List.mem_of_getElem? sent))] at waiter
    exact ⟨k, answers, waiter, (inv.response_iff k _).mpr ⟨h, mem, rfl, waiter⟩⟩
  case order =>
    have handed : s.handed.filterMap (·.message.answers) = List.range s.handed.length := by
      have := congrArg (List.filterMap id) inv.handed_eq
      simpa [List.filterMap_map, Function.comp_def] using this
    obtain ⟨d, answered⟩ := Nat.exists_eq_add_of_le inv.handed_le
    rw [handed, inv.inFlight_eq, List.range_eq_range', List.range_eq_range', answered,
      Nat.add_sub_cancel_left, ← List.range'_append_1, Nat.zero_add]

/-- Two callers, the first of which gives up while it waits; an event comes in
    between. -/
theorem own_replies_interrupted : ∃ s, Reaches step Ordinary {} s ∧ OwnReplies s ∧
    s.handed.map (·.waiter) = [some 0, some 1] ∧
    s.finished.map (fun f => (f.thread, f.command)) = [(2, 1)] := by
  let done : List ReplyLine := [⟨"250".toList, "OK".toList, none⟩]
  let event : List ReplyLine := [⟨"650".toList, "BW 1 2".toList, none⟩]
  have reached : Reaches step Ordinary {} _ := reaches_of_run
    [.enter 1, .send "SAVECONF\r\n".toList, .event event, .interrupt, .enter 2,
      .send "GETINFO version\r\n".toList, .answer done, .answer done, .read, .dispatch, .read,
      .dispatch, .read, .dispatch, .wake] rfl
  exact ⟨_, reached, own_replies reached, rfl, rfl⟩

/-! ## The reply to a shutdown signal -/

/-- No waiter was given the reply to a command that queued none. -/
def ShutdownReplyKept (s : Conn) : Prop :=
  ∀ w m k c, s.response w = some m → m.answers = some k → s.sent[k]? = some c → c.waits = true

/-- In a run in which no request is written while a shutdown signal, or a
    command whose write threw, is unanswered, no waiter is given its reply. -/
theorem shutdown_reply_kept {s : Conn} (reached : Reaches step Clear {} s) :
    ShutdownReplyKept s := by
  intro w m k c given answers sent
  obtain ⟨own, c', sent', waits⟩ := (inStep_of_reaches reached).answers_of_response given
  obtain rfl : k = w := by simpa [answers] using own
  obtain rfl : c = c' := by simpa [sent] using sent'
  exact waits

/-- A request before the shutdown signal and one after its reply. -/
theorem shutdown_reply_kept_between : ∃ s, Reaches step Clear {} s ∧ ShutdownReplyKept s ∧
    s.handed.map (·.waiter) = [some 0, none, some 2] := by
  let done : List ReplyLine := [⟨"250".toList, "OK".toList, none⟩]
  have reached : Reaches step Clear {} _ := reaches_of_run
    [.enter 1, .send "SAVECONF\r\n".toList, .shutdownTor "HALT".toList, .answer done, .answer done,
      .read, .dispatch, .wake, .read, .dispatch, .enter 2, .send "GETINFO version\r\n".toList,
      .answer done, .read, .dispatch] rfl
  exact ⟨_, reached, shutdown_reply_kept reached, rfl⟩

/-- A request is written before the reply to the signal has come, and is given
    that reply. -/
theorem shutdown_reply_taken : ∃ s, Reachable step {} s ∧ ¬ ShutdownReplyKept s := by
  let done : List ReplyLine := [⟨"250".toList, "OK".toList, none⟩]
  have reached : Reachable step {} _ := reachable_of_run
    [.shutdownTor "HALT".toList, .answer done, .enter 1, .send "GETINFO version\r\n".toList,
      .read, .dispatch] rfl
  refine ⟨_, reached, fun kept => ?_⟩
  have waits := kept 1 ⟨done, some 0⟩ 0 ⟨"SIGNAL HALT\r\n".toList, false⟩ rfl rfl rfl
  cases waits

end Orbot.Control
