import Mathlib.Data.List.Chain
import Orbot.Manager.OrbotManager

/-! # What the listener is told

`onStatusChanged` is called where a message changes the status and where Tor is
stopped. The two calls that set the status to STARTING tell the listener
nothing, and the message that says the same later is no change any more.
-/

namespace Orbot.Manager

open Java (Text)
open Lib.Transition

/-- A manager whose listener was set from the beginning. -/
structure Listened where
  manager : OrbotManager := {}
  /-- whether the lateinit property of this name is set -/
  localBroadcastManager : Bool := false
  /-- the statuses passed to `onStatusChanged`, oldest first -/
  notified : List Status := []
  deriving Repr, DecidableEq

def uninitialized : Text := "lateinit property localBroadcastManager has not been initialized".toList

namespace Listened

def startTor (l : Listened) : Except Text Listened := do
  return { l with manager := ← Manager.startTor l.manager, localBroadcastManager := true }

/-- A receiver can be unregistered only after one was registered. -/
def stopTor (l : Listened) : Except Text Listened := do
  let manager ← Manager.stopTor l.manager
  if l.localBroadcastManager then
    return { l with manager, notified := l.notified ++ [.off] }
  else throw uninitialized

def reconnectTor (l : Listened) : Except Text Listened :=
  if l.manager.torStatus ≠ .off then do startTor (← stopTor l)
  else .error "Tor isn't running".toList

def updateStatus (l : Listened) (status : Status) : Listened :=
  { l with notified := l.notified ++ [status] }

def handleMessage (l : Listened) (msg : Message) : Listened :=
  let handled := { l with manager := Manager.handleMessage l.manager msg }
  match msg.what with
  | .statusUpdate =>
      if l.manager.torStatus ≠ msg.status then updateStatus handled msg.status else handled
  | .messageTrafficCount => handled

/-- A call that throws leaves everything as it was. -/
def after (l : Listened) : Except Text Listened → Listened
  | .ok l' => l'
  | .error _ => l

end Listened

/-- The steps of the manager, with what the listener is told in them. -/
def listenedStep (l : Listened) : ManagerAction → Option Listened
  | .startTor => some (l.after l.startTor)
  | .stopTor => some (l.after l.stopTor)
  | .reconnectTor => some (l.after l.reconnectTor)
  | .broadcast action status => some { l with manager := deliver l.manager action status }
  | .handleMessage =>
      match l.manager.queue with
      | [] => none
      | msg :: queue => some ({ l with manager := { l.manager with queue } }.handleMessage msg)

/-- The listener knows the status, and was told only of changes. -/
structure UpToDate (l : Listened) : Prop where
  status : l.notified.getLast?.getD .off = l.manager.torStatus
  changes : l.notified.IsChain (· ≠ ·)

/-- The call does not get as far as a start: in OFF nothing is stopped before one,
    and in another status nothing is started. -/
def StartsNothing (l : Listened) : ManagerAction → Prop
  | .startTor => l.manager.torStatus ≠ .off
  | .reconnectTor => l.manager.torStatus = .off
  | .stopTor | .broadcast _ _ | .handleMessage => True

instance (l : Listened) : (a : ManagerAction) → Decidable (StartsNothing l a)
  | .startTor => inferInstanceAs (Decidable (_ ≠ _))
  | .reconnectTor => inferInstanceAs (Decidable (_ = _))
  | .stopTor | .broadcast _ _ | .handleMessage => .isTrue trivial

/-! ## The manager under the listener -/

/-- Before the first registration Tor is off, and no message can come. -/
def Ready (l : Listened) : Prop :=
  l.localBroadcastManager = false →
    l.manager.torStatus = .off ∧ l.manager.receivers = [] ∧ l.manager.queue = []

theorem Listened.startTor_eq (l : Listened) : l.startTor = if l.manager.torStatus = .off then
    .ok { l with
      manager := { registerReceivers l.manager with
        sent := l.manager.sent ++ [.actionStart], torStatus := .starting }
      localBroadcastManager := true }
    else .error "Tor is already running".toList := by
  unfold startTor Manager.startTor
  split_ifs <;> rfl

namespace Ready

variable {l l' : Listened}

theorem of_initialized (initialized : l.localBroadcastManager = true) : Ready l :=
  fun not => absurd (initialized.symm.trans not) (by decide)

theorem initialized (ready : Ready l) (on : l.manager.torStatus ≠ .off) :
    l.localBroadcastManager = true := by
  by_contra not
  exact on (ready (eq_false_of_ne_true not)).1

/-- Wherever Tor can be stopped, the receiver was registered. -/
theorem stopTor_eq (ready : Ready l) : l.stopTor = if l.manager.torStatus ≠ .off then
    .ok { l with
      manager := { l.manager with
        receivers := []
        sent := l.manager.sent ++ [.actionStatus, .stopService]
        torStatus := .off }
      notified := l.notified ++ [.off] }
    else .error "Tor isn't running".toList := by
  unfold Listened.stopTor Manager.stopTor
  by_cases on : l.manager.torStatus ≠ .off
  · simp only [if_pos on, ready.initialized on, if_true]
    rfl
  · simp only [if_neg on]
    rfl

theorem step (ready : Ready l) {a : ManagerAction} (taken : listenedStep l a = some l') :
    Ready l' := by
  cases a with
  | startTor =>
      rw [← Option.some.inj taken, Listened.startTor_eq]
      split_ifs
      · exact of_initialized rfl
      · exact ready
  | stopTor =>
      rw [← Option.some.inj taken, ready.stopTor_eq]
      split_ifs with on
      · exact of_initialized (ready.initialized on)
      · exact ready
  | reconnectTor =>
      rw [← Option.some.inj taken, Listened.reconnectTor]
      split_ifs with on
      · rw [ready.stopTor_eq, if_pos on]
        exact of_initialized rfl
      · exact ready
  | broadcast action status =>
      rw [← Option.some.inj taken]
      intro not
      obtain ⟨off, none, empty⟩ := ready not
      exact ⟨off, none, by simp [deliver, none, empty]⟩
  | handleMessage =>
      simp only [listenedStep] at taken
      split at taken
      next => cases taken
      next msg queue head =>
        have initialized : l.localBroadcastManager = true := by
          by_contra not
          have empty := (ready (eq_false_of_ne_true not)).2.2
          cases empty.symm.trans head
        rw [← Option.some.inj taken]
        apply of_initialized
        unfold Listened.handleMessage
        split
        · split_ifs <;> exact initialized
        · exact initialized

end Ready

theorem handleMessage_manager (l : Listened) (msg : Message) :
    (l.handleMessage msg).manager = handleMessage l.manager msg := by
  obtain ⟨what, status⟩ := msg
  cases what with
  | messageTrafficCount => rfl
  | statusUpdate =>
      unfold Listened.handleMessage
      split_ifs <;> rfl

/-- The manager does what it does without a listener. -/
theorem listenedStep_manager {l : Listened} (ready : Ready l) (a : ManagerAction) :
    (listenedStep l a).map Listened.manager = managerStep l.manager a := by
  cases a with
  | startTor =>
      rw [listenedStep, managerStep, Listened.startTor_eq, startTor]
      split_ifs <;> rfl
  | stopTor =>
      rw [listenedStep, managerStep, ready.stopTor_eq, stopTor]
      split_ifs <;> rfl
  | reconnectTor =>
      rw [listenedStep, managerStep, Listened.reconnectTor, reconnectTor, ready.stopTor_eq, stopTor]
      split_ifs <;> rfl
  | broadcast action status => rfl
  | handleMessage =>
      simp only [listenedStep, managerStep]
      cases l.manager.queue with
      | nil => rfl
      | cons msg queue => exact congrArg some (handleMessage_manager _ msg)

/-- No call fails for want of a registration, and the manager is one that can be
    reached without a listener. -/
theorem reachable_manager {l : Listened} (reached : Reachable listenedStep {} l) :
    Ready l ∧ Reachable managerStep {} l.manager := by
  induction reached with
  | here => exact ⟨fun _ => ⟨rfl, rfl, rfl⟩, .here⟩
  | @next l l' a _ _ taken ih =>
      have moved := listenedStep_manager ih.1 a
      rw [taken] at moved
      exact ⟨ih.1.step taken, ih.2.next trivial moved.symm⟩

/-! ## Calls and messages -/

namespace UpToDate

variable {l : Listened}

/-- Telling of a status other than the present one. -/
theorem told (upToDate : UpToDate l) {status : Status} (changed : l.manager.torStatus ≠ status)
    {l' : Listened} (set : l'.manager.torStatus = status)
    (notified : l'.notified = l.notified ++ [status]) : UpToDate l' := by
  constructor
  case status => rw [notified, List.getLast?_concat, Option.getD_some, set]
  case changes =>
    rw [notified]
    apply List.isChain_append.mpr
    refine ⟨upToDate.changes, List.isChain_singleton status, ?_⟩
    intro last isLast next isNext
    have known : last = l.manager.torStatus := by
      rw [← upToDate.status, Option.mem_def.mp isLast, Option.getD_some]
    obtain rfl : status = next := Option.some.inj isNext
    exact known ▸ changed

/-- A step that changes no status and tells nothing. -/
theorem unchanged (upToDate : UpToDate l) {l' : Listened}
    (status : l'.manager.torStatus = l.manager.torStatus) (notified : l'.notified = l.notified) :
    UpToDate l' :=
  ⟨by rw [notified, status]; exact upToDate.status, by rw [notified]; exact upToDate.changes⟩

theorem stopTor (upToDate : UpToDate l) : UpToDate (l.after l.stopTor) := by
  by_cases on : l.manager.torStatus ≠ .off
  · cases registered : l.localBroadcastManager with
    | true =>
        have stopped : l.stopTor = .ok { l with
            manager := { l.manager with
              receivers := []
              sent := l.manager.sent ++ [.actionStatus, .stopService]
              torStatus := .off }
            notified := l.notified ++ [.off] } := by
          rw [(Ready.of_initialized registered).stopTor_eq, if_pos on]
        rw [stopped]
        exact upToDate.told on rfl rfl
    | false =>
        have thrown : l.stopTor = .error uninitialized := by
          simp only [Listened.stopTor, Manager.stopTor, if_pos on, registered]
          rfl
        rw [thrown]
        exact upToDate
  · have thrown : l.stopTor = .error "Tor isn't running".toList := by
      simp only [Listened.stopTor, Manager.stopTor, if_neg on]
      rfl
    rw [thrown]
    exact upToDate

theorem handleMessage (upToDate : UpToDate l) (msg : Message) :
    UpToDate (l.handleMessage msg) := by
  obtain ⟨what, status⟩ := msg
  cases what with
  | messageTrafficCount => exact upToDate
  | statusUpdate =>
      by_cases changed : l.manager.torStatus ≠ status
      · simp only [Listened.handleMessage, if_pos changed]
        exact upToDate.told changed rfl rfl
      · have same : l.manager.torStatus = status := not_not.mp changed
        simp only [Listened.handleMessage, if_neg changed]
        exact upToDate.unchanged same.symm rfl

/-- Every step but a start keeps the listener up to date. -/
theorem step (upToDate : UpToDate l) {a : ManagerAction} (nothing : StartsNothing l a)
    {l' : Listened} (taken : listenedStep l a = some l') : UpToDate l' := by
  cases a with
  | startTor =>
      rw [← Option.some.inj taken, Listened.startTor_eq, if_neg nothing]
      exact upToDate
  | stopTor => exact Option.some.inj taken ▸ upToDate.stopTor
  | reconnectTor =>
      have off : ¬ l.manager.torStatus ≠ .off := not_not.mpr nothing
      rw [← Option.some.inj taken, Listened.reconnectTor, if_neg off]
      exact upToDate
  | broadcast action status => exact Option.some.inj taken ▸ upToDate.unchanged rfl rfl
  | handleMessage =>
      simp only [listenedStep] at taken
      split at taken
      next => cases taken
      next msg queue _ =>
        have rest : UpToDate { l with manager := { l.manager with queue } } :=
          upToDate.unchanged rfl rfl
        exact Option.some.inj taken ▸ rest.handleMessage msg

/-- What a start does: from OFF nothing is told, but the status changes. -/
theorem not_startTor (upToDate : UpToDate l) (off : l.manager.torStatus = .off) :
    ¬ UpToDate (l.after l.startTor) := by
  intro kept
  rw [Listened.startTor_eq, if_pos off] at kept
  have known : l.notified.getLast?.getD .off = .off := upToDate.status.trans off
  cases known.symm.trans kept.status

/-- Stopping turns the status OFF, and so the start that follows is not told. -/
theorem not_reconnectTor (upToDate : UpToDate l) (ready : Ready l)
    (on : l.manager.torStatus ≠ .off) : ¬ UpToDate (l.after l.reconnectTor) := by
  have stopped := upToDate.stopTor
  rw [ready.stopTor_eq, if_pos on] at stopped
  rw [Listened.reconnectTor, if_pos on, ready.stopTor_eq, if_pos on]
  exact stopped.not_startTor rfl

/-- In a run a step keeps the listener up to date exactly if it starts nothing. -/
theorem step_iff (upToDate : UpToDate l) (ready : Ready l) {a : ManagerAction} {l' : Listened}
    (taken : listenedStep l a = some l') : UpToDate l' ↔ StartsNothing l a := by
  refine ⟨fun kept => ?_, fun nothing => upToDate.step nothing taken⟩
  cases a with
  | startTor => exact fun off => upToDate.not_startTor off (Option.some.inj taken ▸ kept)
  | reconnectTor =>
      by_contra on
      exact upToDate.not_reconnectTor ready on (Option.some.inj taken ▸ kept)
  | stopTor | broadcast | handleMessage => trivial

end UpToDate

/-- From the beginning, and from every later state in which the listener is up to
    date: as long as no call starts Tor it stays so, whatever is broadcast. -/
theorem listener_upToDate {l₀ l : Listened} (upToDate : UpToDate l₀)
    (reached : Reaches listenedStep StartsNothing l₀ l) : UpToDate l :=
  reached.invariant upToDate fun _ _ _ kept nothing taken => kept.step nothing taken

/-- A manager that started Tor, and was told that it is on. -/
def turnedOn : Listened where
  manager := { torStatus := .on, receivers := [.status, .bandwidth, .log], sent := [.actionStart] }
  localBroadcastManager := true
  notified := [.on]

/-- Tor is started and turns on, and from then on the listener is up to date:
    while messages come in, and after Tor is stopped. -/
theorem listener_upToDate_stopped :
    ∃ on off, Reachable listenedStep {} on ∧ on.manager.sent = [.actionStart] ∧ UpToDate on ∧
      Reaches listenedStep StartsNothing on off ∧ off.notified = [.on, .stopping, .off] ∧
      UpToDate off := by
  have started : Reachable listenedStep {} turnedOn := reachable_of_run
    [.startTor, .broadcast .status .starting, .handleMessage, .broadcast .status .on,
      .handleMessage] rfl
  have on : UpToDate turnedOn := ⟨rfl, List.isChain_singleton _⟩
  have reached : Reaches listenedStep StartsNothing turnedOn _ := reaches_of_run
    [.startTor, .broadcast .log .on, .handleMessage, .broadcast .status .stopping, .handleMessage,
      .stopTor, .stopTor] rfl
  exact ⟨_, _, started, rfl, on, reached, rfl, listener_upToDate on reached⟩

/-- After a start the listener was not told anything, and when Tor is stopped,
    started and stopped again it is told OFF twice. -/
theorem listener_outOfDate :
    (∃ l, Reachable listenedStep {} l ∧ l.manager.torStatus = .starting ∧ l.notified = [] ∧
      ¬ UpToDate l) ∧
    ∃ l, Reachable listenedStep {} l ∧ l.notified = [.off, .off] := by
  have started : Reachable listenedStep {} _ := reachable_of_run [.startTor] rfl
  have again : Reachable listenedStep {} _ :=
    reachable_of_run [.startTor, .stopTor, .startTor, .stopTor] rfl
  refine ⟨⟨_, started, rfl, rfl, ?_⟩, _, again, rfl⟩
  intro upToDate
  cases upToDate.status

end Orbot.Manager
