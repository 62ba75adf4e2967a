import Orbot.Control.Connection

/-! # The end of the reader

Nothing wakes a caller once the reader has ended: the exception recorded for
later calls is the only trace the end leaves, and only an IOException leaves it.
-/

namespace Orbot.Control

open Lib.Transition

/-- Once the reader has ended, no caller waits on a queued waiter without a
    response, and every call throws. -/
def NoneStranded (s : Conn) : Prop :=
  ∀ held, s.reader = .ended held →
    (∀ thread k, s.monitor = some ⟨thread, .waiting k⟩ → k ∈ s.waiters → s.response k ≠ none) ∧
    ∀ thread s', step s (.enter thread) = some s' →
      ∃ ex, s' = { s with refused := s.refused ++ [⟨thread, ex⟩] }

/-- A call that is under way has its response already. -/
def Conn.Answered (s : Conn) : Prop :=
  match s.monitor with
  | none => True
  | some ⟨_, .checked⟩ => False
  | some ⟨_, .waiting k⟩ => s.response k ≠ none

def Ended.byIOException : Ended → Bool
  | .threw (.io _) => true
  | .returned | .threw (.runtime _) => false

/-- If the reader ends, it ends by an IOException while no call is without its
    response. -/
def Releases (s : Conn) : Action → Prop
  | .readerEnds how => how.byIOException = true ∧ s.Answered
  | _ => True

instance (s : Conn) : Decidable s.Answered :=
  match h : s.monitor with
  | none => .isTrue (by simp [Conn.Answered, h])
  | some ⟨_, .checked⟩ => .isFalse (by simp [Conn.Answered, h])
  | some ⟨_, .waiting k⟩ => decidable_of_iff (s.response k ≠ none) (by simp [Conn.Answered, h])

instance (s : Conn) : (a : Action) → Decidable (Releases s a)
  | .readerEnds how => inferInstanceAs (Decidable (how.byIOException = true ∧ s.Answered))
  | .launchThread | .enter _ | .send _ | .sendFails _ | .wake | .interrupt | .shutdownTor _
  | .answer _ | .event _ | .read | .dispatch => .isTrue trivial

/-! ## A recorded end -/

structure Settled (s : Conn) : Prop where
  ended : ∃ held, s.reader = .ended held
  recorded : ∃ ex, s.parseThreadException = some ex
  answered : s.Answered

namespace Settled

variable {s s' : Conn} {a : Action}

theorem noneStranded (settled : Settled s) : NoneStranded s := by
  obtain ⟨ex, recorded⟩ := settled.recorded
  refine fun held ended => ⟨fun thread k waiting _ => ?_, fun thread s' taken => ?_⟩
  · simpa [Conn.Answered, waiting] using settled.answered
  · cases moves_of_step taken with
    | refused _ found => exact ⟨_, rfl⟩
    | enter _ missing => simp [recorded] at missing

/-- No step leaves a recorded end again. -/
theorem step (settled : Settled s) (taken : step s a = some s') : Settled s' := by
  obtain ⟨held, ended⟩ := settled.ended
  cases moves_of_step taken with
  | launchThread _ reader | read reader | handled reader | dropped reader | handed reader
  | ends reader | dies reader => simp [ended] at reader
  | enter _ missing =>
      obtain ⟨ex, recorded⟩ := settled.recorded
      simp [recorded] at missing
  | send checked => simpa [Conn.Answered, checked] using settled.answered
  | lost | half | wake | interrupt => exact ⟨⟨held, ended⟩, settled.recorded, trivial⟩
  | refused | shutdownTor | answer | event =>
      exact ⟨⟨held, ended⟩, settled.recorded, settled.answered⟩

theorem of_ends {how : Ended} (releases : Releases s (.readerEnds how))
    (taken : Control.step s (.readerEnds how) = some s') : Settled s' := by
  obtain ⟨io, answered⟩ := releases
  match how, io with
  | .threw (.io ex), _ =>
      cases moves_of_step taken with
      | ends => exact ⟨⟨_, rfl⟩, ⟨ex, rfl⟩, answered⟩

end Settled

/-- Only `readerEnds` ends the reader. -/
theorem ends_of_step {s s' : Conn} {a : Action} {held : Option Message}
    (taken : step s a = some s') (ended : s'.reader = .ended held) :
    (∃ before, s.reader = .ended before) ∨ ∃ how, a = .readerEnds how := by
  cases moves_of_step taken with
  | launchThread | read | handled | dropped | handed => cases ended
  | ends | dies => exact .inr ⟨_, rfl⟩
  | enter =>
      cases reader : s.reader with
      | ended before => exact .inl ⟨_, rfl⟩
      | notStarted | reading | holding => simp [Reader.check, reader] at ended
  | refused | send | lost | half | wake | interrupt | shutdownTor | answer | event =>
      exact .inl ⟨_, ended⟩

theorem settled_of_reaches {s : Conn} (reached : Reaches step Releases {} s) :
    ∀ held, s.reader = .ended held → Settled s := by
  induction reached with
  | here => exact fun held ended => nomatch ended
  | next _ releases taken ih =>
      intro held ended
      rcases ends_of_step taken ended with ⟨before, endedBefore⟩ | ⟨how, rfl⟩
      · exact (ih before endedBefore).step taken
      · exact .of_ends releases taken

/-- In a run in which the reader ends, if it ends, by an IOException while no
    call is without its response, nobody is stranded. -/
theorem requests_released {s : Conn} (reached : Reaches step Releases {} s) : NoneStranded s :=
  fun held ended => (settled_of_reaches reached held ended).noneStranded held ended

/-- The reply arrives, then the stream breaks; the call returns and a later one
    throws. -/
theorem requests_released_broken : ∃ s, Reaches step Releases {} s ∧ NoneStranded s ∧
    s.finished.map (·.thread) = [1] ∧ s.refused.map (·.thread) = [2] := by
  let done : List ReplyLine := [⟨"250".toList, "OK".toList, none⟩]
  have reached : Reaches step Releases {} _ := reaches_of_run
    [.enter 1, .send "SAVECONF\r\n".toList, .answer done, .read, .dispatch,
      .readerEnds (.threw (.io .connection)), .wake, .enter 2] rfl
  exact ⟨_, reached, requests_released reached, rfl, rfl⟩

/-- The stream ends while a caller waits. -/
theorem request_stranded : ∃ s, Reachable step {} s ∧ ¬ NoneStranded s := by
  have reached : Reachable step {} _ := reachable_of_run
    [.enter 1, .send "SAVECONF\r\n".toList, .readerEnds .returned] rfl
  exact ⟨_, reached, fun released => (released none rfl).1 1 0 rfl (by decide) rfl⟩

/-! ## Nothing less is enough -/

/-- A caller waits on a waiter that is queued until it has its response, and the
    exception is recorded at the end only. -/
structure Queued (s : Conn) : Prop where
  response_lt : ∀ k, s.response k ≠ none → k < s.sent.length
  waiters_lt : ∀ k ∈ s.waiters, k < s.sent.length
  waiting : ∀ thread k, s.monitor = some ⟨thread, .waiting k⟩ → s.response k = none →
    k ∈ s.waiters
  recorded : s.parseThreadException ≠ none → ∃ held, s.reader = .ended held

namespace Queued

theorem initial : Queued {} := by
  constructor <;> simp

theorem written {s : Conn} (inv : Queued s) (c : Sent) :
    Queued { s with sent := s.sent ++ [c] } where
  response_lt k given := by
    have := inv.response_lt k given
    simp only [List.length_append]
    omega
  waiters_lt k mem := by
    have := inv.waiters_lt k mem
    simp only [List.length_append]
    omega
  waiting := inv.waiting
  recorded := inv.recorded

theorem step {s s' : Conn} {a : Action} (inv : Queued s) (taken : step s a = some s') :
    Queued s' := by
  cases moves_of_step taken with
  | launchThread _ fresh =>
      exact { inv with recorded := fun some => by simpa [fresh] using inv.recorded some }
  | refused | answer | event => exact { inv with }
  | enter _ missing =>
      exact { inv with waiting := nofun, recorded := fun some => absurd missing some }
  | send =>
      refine
        { inv.written _ with
          waiters_lt := fun k mem => ?_
          waiting := fun thread k holds _ => ?_ }
      · rcases List.mem_append.mp mem with old | new
        · exact (inv.written _).waiters_lt k old
        · simp [List.mem_singleton.mp new]
      · cases holds
        simp
  | lost | wake | interrupt => exact { inv with waiting := nofun }
  | half => exact { inv.written _ with waiting := nofun }
  | shutdownTor => exact inv.written _
  | read reading | handled reading | dropped reading =>
      exact { inv with recorded := fun some => by simpa [reading] using inv.recorded some }
  | @handed message w waiters holding _ queue =>
      refine
        { response_lt := fun k given => ?_
          waiters_lt := fun k mem => inv.waiters_lt k (by simp [queue, mem])
          waiting := fun thread k holds missing => ?_
          recorded := fun some => by simpa [holding] using inv.recorded some }
      · by_cases first : k = w
        · exact inv.waiters_lt k (by simp [queue, first])
        · exact inv.response_lt k (by simpa [first] using given)
      · have other : k ≠ w := by
          rintro rfl
          simp at missing
        have mem := inv.waiting thread k holds (by simpa [other] using missing)
        simpa [queue, other] using mem
  | ends | dies => exact { inv with recorded := fun _ => ⟨_, rfl⟩ }

theorem of_reaches {s : Conn} (reached : Reachable Control.step {} s) : Queued s :=
  reached.invariant .initial fun _ _ _ inv _ taken => inv.step taken

end Queued

section Stranded

variable {s : Conn} {held : Option Message} {thread k : Nat}

/-- The next caller is not told. -/
theorem stranded_of_free (ended : s.reader = .ended held) (free : s.monitor = none)
    (missing : s.parseThreadException = none) : ¬ NoneStranded s := by
  intro released
  have taken : step s (.enter 0) =
      some { s with monitor := some ⟨0, .checked⟩, reader := s.reader.check } := by
    simp [step, free, missing]
  obtain ⟨ex, same⟩ := (released held ended).2 0 _ taken
  simpa [free] using congrArg Conn.monitor same

/-- The caller that waits is not woken. -/
theorem stranded_of_waiting (queued : Queued s) (ended : s.reader = .ended held)
    (waiting : s.monitor = some ⟨thread, .waiting k⟩) (missing : s.response k = none) :
    ¬ NoneStranded s :=
  fun released => (released held ended).1 thread k waiting (queued.waiting thread k waiting missing)
    missing

/-- The caller that has checked goes on to wait. -/
theorem stranded_of_checked (queued : Queued s) (ended : s.reader = .ended held)
    (checked : s.monitor = some ⟨thread, .checked⟩) :
    ∃ later, Reachable step s later ∧ ¬ NoneStranded later := by
  have taken : step s (.send []) = some { s with
      monitor := some ⟨thread, .waiting s.sent.length⟩
      sent := s.sent ++ [⟨[], true⟩]
      waiters := s.waiters ++ [s.sent.length] } := by
    simp [step, checked]
  have missing : s.response s.sent.length = none := by
    by_contra given
    exact Nat.lt_irrefl _ (queued.response_lt _ given)
  exact ⟨_, Reaches.here.next trivial taken,
    stranded_of_waiting (queued.step taken) ended rfl missing⟩

end Stranded

theorem after_end {s s' : Conn} {how : Ended} (queued : Queued s)
    (taken : step s (.readerEnds how) = some s') :
    (∃ held, s'.reader = .ended held) ∧ s'.monitor = s.monitor ∧ s'.response = s.response ∧
      (how.byIOException = false → s'.parseThreadException = none) := by
  cases moves_of_step taken with
  | ends =>
      refine ⟨⟨_, rfl⟩, rfl, rfl, fun other => ?_⟩
      match how, other with
      | .returned, _ | .threw (.runtime _), _ => rfl
  | dies holding =>
      refine ⟨⟨_, rfl⟩, rfl, rfl, fun _ => ?_⟩
      by_contra recorded
      obtain ⟨held, ended⟩ := queued.recorded recorded
      simp [holding] at ended

/-- However a run led to the end of the reader, nobody is ever stranded after it
    exactly when it was an IOException and no call was without its response. -/
theorem released_iff {s s' : Conn} {how : Ended} (reached : Reachable step {} s)
    (taken : step s (.readerEnds how) = some s') :
    (∀ later, Reachable step s' later → NoneStranded later) ↔ Releases s (.readerEnds how) := by
  have queued := Queued.of_reaches reached
  obtain ⟨⟨held, ended⟩, monitor, response, unrecorded⟩ := after_end queued taken
  constructor
  · intro always
    have answered : s.Answered := by
      unfold Conn.Answered
      split
      next => trivial
      next thread checked =>
        obtain ⟨later, after, stranded⟩ :=
          stranded_of_checked (queued.step taken) ended (monitor.trans checked)
        exact stranded (always later after)
      next thread k waiting =>
        intro missing
        exact stranded_of_waiting (queued.step taken) ended (monitor.trans waiting)
          (response ▸ missing) (always s' .here)
    refine ⟨?_, answered⟩
    by_contra other
    have unrecorded := unrecorded (Bool.eq_false_iff.mpr other)
    unfold Conn.Answered at answered
    split at answered
    next free => exact stranded_of_free ended (monitor.trans free) unrecorded (always s' .here)
    next => exact answered
    next thread k waiting =>
      -- the caller gives up, and the next one is not told
      have gives : step s' .interrupt = some { s' with monitor := none } := by
        simp [step, monitor.trans waiting]
      exact stranded_of_free (s := { s' with monitor := none }) ended rfl unrecorded
        (always _ (Reaches.here.next trivial gives))
  · intro releases later after
    have settled : Settled later := after.invariant (Settled.of_ends releases taken)
      fun _ _ _ settled _ taken => settled.step taken
    exact settled.noneStranded

end Orbot.Control
