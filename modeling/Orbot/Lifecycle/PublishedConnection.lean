import Orbot.Lifecycle.TorService

/-! # The published connection

`conn` is set as soon as the socket is connected. What fails after that leaves
it set, and the next run takes it for a connection it need not make.
-/

namespace Orbot.Lifecycle

open Lib.Transition

/-- AUTHENTICATE succeeded, and the event handler has its events. -/
structure Published (conn : TorControlConnection) : Prop where
  authenticated : conn.authenticated = true
  eventHandler : conn.eventHandler = true
  events : conn.events = true

def ConnPublished (s : TorService) : Prop := ∀ conn, s.conn = some conn → Published conn

/-- Setting up does not stop between the connection and its events. -/
def Setup.completes : Setup → Bool
  | .noCookie | .getInfoFails | .ready _ => true
  | .cookieUnreadable | .authenticateFails | .setEventsFails => false

/-- If it makes a connection, it sets it up. -/
def ControlOutcome.SetsUp (control : ControlOutcome) (maxTries : Nat) (s : TorService) : Prop :=
  s.conn = none → control.established maxTries ≠ none → control.setup.completes

/-- A run that makes a connection sets it up. -/
def SetsUp (s : TorService) : Event → Prop
  | .findExistingTorDaemon control => control.SetsUp 3 s
  | .actionStart outcome =>
      Launches s outcome → outcome.launch = .exited 0 → outcome.control.SetsUp 100 s
  | _ => True

instance (control : ControlOutcome) (maxTries : Nat) (s : TorService) :
    Decidable (control.SetsUp maxTries s) :=
  inferInstanceAs (Decidable (_ → _ → _))

instance (s : TorService) : (e : Event) → Decidable (SetsUp s e)
  | .findExistingTorDaemon control => inferInstanceAs (Decidable (control.SetsUp 3 s))
  | .actionStart outcome => inferInstanceAs (Decidable (Launches s outcome → _ → _))
  | .stopTorAsync _ | .closeShell | .circuitBuilt | .torExits _ => .isTrue trivial

/-! ## One run -/

/-- The loop leaves a connection on which nothing was done yet. -/
theorem not_published_of_established {control : ControlOutcome} {maxTries : Nat}
    {conn : TorControlConnection} (made : control.established maxTries = some conn) :
    conn.authenticated = false ∧ conn.events = false := by
  obtain ⟨attempt, _, connected⟩ := List.exists_of_findSome?_eq_some made
  cases attempt with
  | noPort | refused => cases connected
  | connected tor =>
      cases connected
      exact ⟨rfl, rfl⟩

theorem Published.after {conn conn' : TorControlConnection} (published : Published conn)
    {setup : Setup} (left : setup.after conn = some conn') : Published conn' := by
  cases setup with
  | noCookie => cases left
  | cookieUnreadable | authenticateFails => cases left; exact published
  | setEventsFails => cases left; exact ⟨rfl, rfl, published.events⟩
  | getInfoFails | ready => cases left; exact ⟨rfl, rfl, rfl⟩

/-- On a new connection everything there is to do was done exactly if nothing
    failed before the events were set. -/
theorem published_after_iff {conn : TorControlConnection} (fresh : conn.authenticated = false)
    (unset : conn.events = false) (setup : Setup) :
    (∀ conn', setup.after conn = some conn' → Published conn') ↔ setup.completes := by
  cases setup with
  | noCookie => exact ⟨fun _ => rfl, fun _ => nofun⟩
  | cookieUnreadable | authenticateFails =>
      refine ⟨fun published => ?_, nofun⟩
      cases fresh.symm.trans (published conn rfl).authenticated
  | setEventsFails =>
      refine ⟨fun published => ?_, nofun⟩
      cases unset.symm.trans (published _ rfl).events
  | getInfoFails | ready =>
      refine ⟨fun _ => rfl, fun _ conn' left => ?_⟩
      cases left
      exact ⟨rfl, rfl, rfl⟩

/-- What `initControlConnection` leaves is published exactly if it sets up what it
    connects. -/
theorem control_published_iff {s : TorService} (published : ConnPublished s)
    (control : ControlOutcome) (maxTries : Nat) :
    (∀ conn, (s.conn.or (control.established maxTries)).bind control.setup.after = some conn →
      Published conn) ↔ control.SetsUp maxTries s := by
  unfold ControlOutcome.SetsUp
  cases before : s.conn with
  | some conn =>
      refine ⟨fun _ => nofun, fun _ conn' left => ?_⟩
      exact (published conn before).after left
  | none =>
      cases made : control.established maxTries with
      | none => exact ⟨fun _ _ => nofun, fun _ => nofun⟩
      | some conn =>
          obtain ⟨fresh, unset⟩ := not_published_of_established made
          apply (published_after_iff fresh unset control.setup).trans
          exact ⟨fun completes _ _ => completes, fun setsUp => setsUp rfl nofun⟩

/-- After a run the connection is published exactly if the run sets up what it
    connects. -/
theorem connPublished_afterEvent_iff {s : TorService} (published : ConnPublished s) (e : Event) :
    ConnPublished (afterEvent s e) ↔ SetsUp s e := by
  unfold ConnPublished
  cases e with
  | findExistingTorDaemon control =>
      obtain ⟨_, _, _, result⟩ := findExistingTorDaemon_eq control s
      simp only [afterEvent, result]
      exact control_published_iff published control 3
  | actionStart outcome =>
      by_cases launches : Launches s outcome
      · simp only [afterEvent, (startTor_of launches).1, SetsUp, launches, true_imp_iff]
        by_cases zero : outcome.launch = .exited 0
        · simp only [zero, if_true, true_imp_iff]
          exact control_published_iff published outcome.control 100
        · simp only [zero, if_false]
          exact ⟨fun _ => nofun, fun _ => published⟩
      · simp only [afterEvent, (startTor_of_not launches).1]
        exact ⟨fun _ launches' => absurd launches' launches, fun _ => published⟩
  | stopTorAsync halted =>
      refine ⟨fun _ => trivial, fun _ => ?_⟩
      simp only [afterEvent, stopTorAsync, killAllDaemons_eq]
      exact nofun
  | closeShell | torExits => exact ⟨fun _ => trivial, fun _ => published⟩
  | circuitBuilt =>
      refine ⟨fun _ => trivial, fun _ conn left => published conn ?_⟩
      simp only [afterEvent, circuitBuilt] at left
      split_ifs at left <;> exact left

/-! ## All runs -/

/-- As long as every run that makes a connection sets it up, what is published is
    an authenticated connection with its events. -/
theorem conn_published {s : TorService} (reached : Reaches eventStep SetsUp {} s) :
    ConnPublished s := by
  have initial : ConnPublished {} := nofun
  apply reached.invariant initial
  intro s e s' published setsUp taken
  rw [← Option.some.inj taken]
  exact (connPublished_afterEvent_iff published e).mpr setsUp

/-- The first attempt connects. -/
def ControlOutcome.reaching (tor : Option Nat) (setup : Setup) : ControlOutcome where
  attempts _ := .connected tor
  setup := setup

/-- A start on which everything succeeds but for the control connection. -/
def StartOutcome.starting (control : ControlOutcome) : StartOutcome where
  configWritten := true
  verify := .exited 0
  launch := .exited 0
  comesUp := true
  control := control

/-- No daemon is found; Tor is started, and its connection is there. -/
theorem conn_published_start : ∃ s, Reaches eventStep SetsUp {} s ∧ ConnPublished s ∧
    s.conn.isSome := by
  have reached : Reaches eventStep SetsUp {} _ := reaches_of_run
    [.findExistingTorDaemon ⟨fun _ => .refused, .noCookie⟩,
      .actionStart (.starting (.reaching (some 0) (.ready 4711)))] rfl
  exact ⟨_, reached, conn_published reached, rfl⟩

/-- AUTHENTICATE is rejected. -/
theorem conn_not_published : ∃ s, Reachable eventStep {} s ∧ ¬ ConnPublished s := by
  have reached : Reachable eventStep {} _ := reachable_of_run
    [.actionStart (.starting (.reaching (some 0) .authenticateFails))] rfl
  refine ⟨_, reached, fun published => ?_⟩
  cases (published _ rfl).authenticated

end Orbot.Lifecycle
