import Mathlib.Data.List.Basic
import Orbot.Lib.Transition
import Orbot.TorServiceConstants

/-! # OrbotManager

The manager's status is written by its own calls and by the messages it has
queued for itself, each made from a local broadcast when that was received.
What is logged and told to the listener is left out.
-/

namespace Orbot.Manager

open Java (Text)
open Lib.Transition

/-! ## The manager -/

/-- The three actions `mLocalBroadcastReceiver` is registered for. -/
inductive LocalAction where
  | status
  | bandwidth
  | log
  deriving Repr, DecidableEq

/-- `what` of a message. -/
inductive What where
  | statusUpdate
  | messageTrafficCount
  deriving Repr, DecidableEq

structure Message where
  what : What
  status : Status
  deriving Repr, DecidableEq

inductive ServiceCall where
  | actionStart
  | actionStatus
  | stopService
  deriving Repr, DecidableEq

structure OrbotManager where
  torStatus : Status := .off
  /-- the registrations of `mLocalBroadcastReceiver` -/
  receivers : List LocalAction := []
  /-- the messages `messageHandler` has yet to handle -/
  queue : List Message := []
  /-- what the service was asked for -/
  sent : List ServiceCall := []
  deriving Repr, DecidableEq

/-! ## Calls -/

/-- The message of an IllegalStateException; the manager is then left as it was. -/
abbrev Outcome := Except Text OrbotManager

def registerReceivers (m : OrbotManager) : OrbotManager :=
  { m with receivers := m.receivers ++ [.status, .bandwidth, .log] }

def startTor (m : OrbotManager) : Outcome :=
  if m.torStatus = .off then
    .ok { registerReceivers m with sent := m.sent ++ [.actionStart], torStatus := .starting }
  else .error "Tor is already running".toList

def stopTor (m : OrbotManager) : Outcome :=
  if m.torStatus ≠ .off then
    .ok { m with
      receivers := []
      sent := m.sent ++ [.actionStatus, .stopService]
      torStatus := .off }
  else .error "Tor isn't running".toList

def reconnectTor (m : OrbotManager) : Outcome :=
  if m.torStatus ≠ .off then do startTor (← stopTor m)
  else .error "Tor isn't running".toList

/-! ## Broadcasts and messages -/

/-- The message sent for a broadcast. -/
def onReceive (action : LocalAction) (status : Status) : Message :=
  match action with
  | .log => ⟨.statusUpdate, status⟩
  | .bandwidth => ⟨.messageTrafficCount, status⟩
  | .status => ⟨.statusUpdate, status⟩

/-- A broadcast is received once for every registration for its action. -/
def deliver (m : OrbotManager) (action : LocalAction) (status : Status) : OrbotManager :=
  { m with queue := m.queue ++ .replicate (m.receivers.count action) (onReceive action status) }

/-- Counting the traffic does not touch the status. -/
def handleMessage (m : OrbotManager) (msg : Message) : OrbotManager :=
  match msg.what with
  | .statusUpdate => { m with torStatus := msg.status }
  | .messageTrafficCount => m

/-! ## Steps -/

/-- The service, or an earlier one that is still stopping, may broadcast at any
    time, with any status. -/
inductive ManagerAction where
  | startTor
  | stopTor
  | reconnectTor
  | broadcast (action : LocalAction) (status : Status)
  | handleMessage
  deriving Repr, DecidableEq

/-- The manager after a call. -/
def after (m : OrbotManager) : Outcome → OrbotManager
  | .ok m' => m'
  | .error _ => m

def managerStep (m : OrbotManager) : ManagerAction → Option OrbotManager
  | .startTor => some (after m (startTor m))
  | .stopTor => some (after m (stopTor m))
  | .reconnectTor => some (after m (reconnectTor m))
  | .broadcast action status => some (deliver m action status)
  | .handleMessage =>
      match m.queue with
      | [] => none
      | msg :: queue => some (handleMessage { m with queue } msg)

/-- The status is different from OFF if and only if the receiver is registered,
    and that at most once for each action. -/
structure Together (m : OrbotManager) : Prop where
  registered : m.torStatus ≠ .off ↔ m.receivers ≠ []
  once : ∀ action, m.receivers.count action ≤ 1

/-- A message says OFF exactly if the receiver is no longer registered. -/
def Message.Fits (m : OrbotManager) (msg : Message) : Prop :=
  msg.what = .statusUpdate → (msg.status = .off ↔ m.receivers = [])

/-- The message that is handled fits. -/
def HandlesFitting (m : OrbotManager) : ManagerAction → Prop
  | .handleMessage => ∀ msg ∈ m.queue.head?, msg.Fits m
  | _ => True

instance (m : OrbotManager) (msg : Message) : Decidable (msg.Fits m) :=
  inferInstanceAs (Decidable (_ → _))

instance (m : OrbotManager) : (a : ManagerAction) → Decidable (HandlesFitting m a)
  | .handleMessage => inferInstanceAs (Decidable (∀ msg ∈ m.queue.head?, msg.Fits m))
  | .startTor | .stopTor | .reconnectTor | .broadcast _ _ => .isTrue trivial

/-! ## Calls keep status and subscription together -/

/-- With Tor on there is a registration for each action, with Tor off none. -/
structure Subscribed (m : OrbotManager) : Prop where
  receivers : m.receivers = if m.torStatus = .off then [] else [.status, .bandwidth, .log]

namespace Subscribed

variable {m m' : OrbotManager}

theorem together (subscribed : Subscribed m) : Together m := by
  obtain ⟨receivers⟩ := subscribed
  split_ifs at receivers with off
  · exact ⟨by simp [off, receivers], by simp [receivers]⟩
  · refine ⟨by simp [off, receivers], fun action => ?_⟩
    rw [receivers]
    cases action <;> decide

theorem startTor (subscribed : Subscribed m) (started : startTor m = .ok m') : Subscribed m' := by
  obtain ⟨receivers⟩ := subscribed
  unfold Manager.startTor at started
  split_ifs at started with off
  rw [if_pos off] at receivers
  rw [← Except.ok.inj started]
  exact ⟨by simp [registerReceivers, receivers]⟩

theorem stopTor (stopped : stopTor m = .ok m') : Subscribed m' := by
  unfold Manager.stopTor at stopped
  split_ifs at stopped
  rw [← Except.ok.inj stopped]
  exact ⟨rfl⟩

theorem reconnectTor (again : reconnectTor m = .ok m') : Subscribed m' := by
  unfold Manager.reconnectTor at again
  split_ifs at again
  cases stopped : Manager.stopTor m with
  | ok m₁ =>
      rw [stopped] at again
      exact (stopTor stopped).startTor again
  | error message =>
      rw [stopped] at again
      cases again

theorem after (subscribed : Subscribed m) {outcome : Outcome}
    (ok : ∀ m', outcome = .ok m' → Subscribed m') : Subscribed (after m outcome) := by
  cases outcome with
  | ok m' => exact ok m' rfl
  | error message => exact subscribed

theorem handleMessage (subscribed : Subscribed m) {msg : Message} (fits : msg.Fits m) :
    Subscribed (handleMessage m msg) := by
  obtain ⟨what, status⟩ := msg
  cases what with
  | messageTrafficCount => exact subscribed
  | statusUpdate =>
      have same : status = .off ↔ m.torStatus = .off := by
        apply (fits rfl).trans
        have together := subscribed.together.registered
        exact (not_iff_not.mp together).symm
      refine ⟨subscribed.receivers.trans ?_⟩
      simp only [Manager.handleMessage, same]

theorem step (subscribed : Subscribed m) {a : ManagerAction} (fitting : HandlesFitting m a)
    (taken : managerStep m a = some m') : Subscribed m' := by
  cases a with
  | startTor =>
      rw [← Option.some.inj taken]
      exact subscribed.after fun _ started => subscribed.startTor started
  | stopTor =>
      rw [← Option.some.inj taken]
      exact subscribed.after fun _ stopped => stopTor stopped
  | reconnectTor =>
      rw [← Option.some.inj taken]
      exact subscribed.after fun _ again => reconnectTor again
  | broadcast action status =>
      rw [← Option.some.inj taken]
      exact ⟨subscribed.receivers⟩
  | handleMessage =>
      simp only [managerStep] at taken
      split at taken
      next => cases taken
      next msg queue head =>
        have fits : msg.Fits m := fitting msg (by rw [head]; rfl)
        have rest : Subscribed { m with queue } := ⟨subscribed.receivers⟩
        exact Option.some.inj taken ▸ rest.handleMessage fits

end Subscribed

/-- In a run in which every message that is handled says OFF exactly if the
    receiver is no longer registered, status and subscription move together. -/
theorem status_and_subscription {m : OrbotManager}
    (reached : Reaches managerStep HandlesFitting {} m) : Together m :=
  (reached.invariant ⟨rfl⟩ fun _ _ _ subscribed fitting taken =>
    Subscribed.step subscribed fitting taken).together

/-- Tor is started and turned on, and then stopped. -/
theorem status_and_subscription_stopped : ∃ m, Reaches managerStep HandlesFitting {} m ∧
    Together m ∧ m.sent = [.actionStart, .actionStatus, .stopService] := by
  have reached : Reaches managerStep HandlesFitting {} _ := reaches_of_run
    [.startTor, .broadcast .status .starting, .handleMessage, .broadcast .log .on, .handleMessage,
      .stopTor] rfl
  exact ⟨_, reached, status_and_subscription reached, rfl⟩

/-- The reply to ACTION_START still says OFF. -/
theorem status_without_subscription : ∃ m, Reachable managerStep {} m ∧ ¬ Together m := by
  have reached : Reachable managerStep {} _ := reachable_of_run
    [.startTor, .broadcast .status .off, .handleMessage] rfl
  exact ⟨_, reached, fun together => together.registered.mpr (by decide) rfl⟩

/-- Nothing less is enough: a message that does not fit parts them at once. -/
theorem together_handleMessage_iff {m : OrbotManager} (together : Together m) (msg : Message) :
    Together (handleMessage m msg) ↔ msg.Fits m := by
  obtain ⟨what, status⟩ := msg
  cases what with
  | messageTrafficCount => exact ⟨fun _ => nofun, fun _ => together⟩
  | statusUpdate =>
      constructor
      · intro kept _
        exact not_iff_not.mp kept.registered
      · intro fits
        exact ⟨not_iff_not.mpr (fits rfl), together.once⟩

end Orbot.Manager
