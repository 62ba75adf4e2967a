import Orbot.Lifecycle.PublishedConnection

/-! # A single Tor

Whether a start is ignored depends on the status alone. Between the launch and
the first built circuit it is STARTING, and in this status nothing is ignored.
-/

namespace Orbot.Lifecycle

open Lib.Transition

/-- The launch command was never run while a launched Tor was running. -/
def SingleTor (s : TorService) : Prop := ∀ running ∈ s.launches, running = []

/-- No start that gets as far as the launch command comes while the status is
    STARTING and a launched Tor runs; and a stop finds the shell closed, or a
    connection to every launched Tor that runs over which HALT can be written. -/
def StartsAlone (s : TorService) : Event → Prop
  | .actionStart outcome => s.mCurrentStatus = .starting → ReachesLaunch s outcome → s.running = []
  | .stopTorAsync halted => s.shellClosed = true ∨
      ∀ tor ∈ s.running, halted = true ∧ s.conn.any (·.tor = some tor) = true
  | .findExistingTorDaemon _ | .closeShell | .circuitBuilt | .torExits _ => True

instance (s : TorService) : (e : Event) → Decidable (StartsAlone s e)
  | .actionStart _ => inferInstanceAs (Decidable (_ → _ → _))
  | .stopTorAsync _ => inferInstanceAs (Decidable (_ ∨ ∀ tor ∈ s.running, _ ∧ _))
  | .findExistingTorDaemon _ | .closeShell | .circuitBuilt | .torExits _ => .isTrue trivial

/-! ## The status while a Tor runs -/

/-- As long as the shell is open, a launched Tor is starting or on. -/
def Started (s : TorService) : Prop :=
  s.shellClosed = false → s.running ≠ [] → s.mCurrentStatus = .starting ∨ s.mCurrentStatus = .on

theorem Started.afterEvent {s : TorService} (started : Started s) {e : Event}
    (alone : StartsAlone s e) : Started (afterEvent s e) := by
  cases e with
  | findExistingTorDaemon control =>
      obtain ⟨_, _, status, result⟩ := findExistingTorDaemon_eq control s
      simp only [Lifecycle.afterEvent, result]
      intro opened running
      rcases status with rfl | rfl
      · exact started opened running
      · exact .inr rfl
  | actionStart outcome =>
      by_cases ignores : IgnoresStart s
      · rw [Lifecycle.afterEvent, startTor_of_ignores ignores]
        exact started
      · exact fun _ _ => .inl (startTor_mCurrentStatus ignores)
  | stopTorAsync halted =>
      intro opened running
      simp only [Lifecycle.afterEvent, stopTorAsync, killAllDaemons_eq, sendCallbackStatus]
        at opened running
      rcases alone with closed | told
      · cases closed.symm.trans opened
      · -- every Tor that runs is told to halt
        refine absurd (List.filter_eq_nil_iff.mpr fun tor member => ?_) running
        obtain ⟨halts, connected⟩ := told tor member
        simp [halts, connected]
  | closeShell =>
      intro opened
      cases opened
  | circuitBuilt =>
      simp only [Lifecycle.afterEvent, circuitBuilt]
      split_ifs
      · exact fun _ _ => .inr rfl
      · exact started
  | torExits tor =>
      intro opened running
      refine started opened fun none => running ?_
      simp [Lifecycle.afterEvent, torExits, none]

/-- A second Tor can be launched in STARTING only. -/
theorem Started.starting_of_launches {s : TorService} (started : Started s)
    {outcome : StartOutcome} (launches : Launches s outcome) (running : s.running ≠ []) :
    s.mCurrentStatus = .starting := by
  rcases started launches.2.1 running with starting | on
  · exact starting
  · exact absurd (.inr on) launches.1

/-! ## One run -/

/-- A start keeps to a single Tor exactly if it meets the condition. -/
theorem singleTor_actionStart_iff {s : TorService} (single : SingleTor s) (started : Started s)
    (outcome : StartOutcome) :
    SingleTor (afterEvent s (.actionStart outcome)) ↔ StartsAlone s (.actionStart outcome) := by
  unfold SingleTor
  by_cases launches : Launches s outcome
  · simp only [afterEvent, (startTor_of launches).2.2, List.forall_mem_append,
      List.forall_mem_singleton]
    constructor
    · exact fun alone _ _ => alone.2
    · intro alone
      refine ⟨single, ?_⟩
      by_contra running
      exact running (alone (started.starting_of_launches launches running) launches.2)
  · simp only [afterEvent, (startTor_of_not launches).2.2]
    refine iff_of_true single fun starting reaches => ?_
    have ignored : IgnoresStart s := by
      by_contra ignores
      exact launches ⟨ignores, reaches⟩
    simp [IgnoresStart, starting] at ignored

/-- Nothing but a start runs the launch command. -/
theorem singleTor_afterEvent {s : TorService} (single : SingleTor s) (started : Started s)
    {e : Event} (alone : StartsAlone s e) : SingleTor (afterEvent s e) := by
  cases e with
  | actionStart outcome => exact (singleTor_actionStart_iff single started outcome).mpr alone
  | findExistingTorDaemon control =>
      obtain ⟨_, _, _, result⟩ := findExistingTorDaemon_eq control s
      simp only [afterEvent, result]
      exact single
  | stopTorAsync halted =>
      simp only [afterEvent, stopTorAsync, killAllDaemons_eq]
      exact single
  | closeShell | torExits => exact single
  | circuitBuilt =>
      simp only [afterEvent, circuitBuilt]
      split_ifs <;> exact single

/-! ## All runs -/

/-- If no start comes between the launch of a Tor and its first built circuit, as
    long as that Tor runs, and no stop leaves a Tor behind with the shell open, no
    second Tor is ever launched. -/
theorem single_tor {s : TorService} (reached : Reaches eventStep StartsAlone {} s) :
    SingleTor s := by
  let Inv (s : TorService) : Prop := SingleTor s ∧ Started s
  have initial : Inv {} := ⟨nofun, fun _ running => absurd rfl running⟩
  have kept : Inv s := reached.invariant initial fun s e s' kept alone taken => by
    rw [← Option.some.inj taken]
    exact ⟨singleTor_afterEvent kept.1 kept.2 alone, kept.2.afterEvent alone⟩
  exact kept.1

/-- A start whose first attempt connects to the Tor it launched. -/
def StartOutcome.first : StartOutcome := .starting (.reaching (some 0) (.ready 4711))

/-- Once Tor is on, a second start is ignored; Tor is stopped then, and another one
    is launched. -/
theorem single_tor_on : ∃ s, Reaches eventStep StartsAlone {} s ∧ SingleTor s ∧
    s.launches.length = 2 ∧ s.running = [1] := by
  have reached : Reaches eventStep StartsAlone {} _ := reaches_of_run
    [.actionStart .first, .circuitBuilt, .actionStart .first, .stopTorAsync true,
      .actionStart .first] rfl
  exact ⟨_, reached, single_tor reached, rfl, rfl⟩

/-- The second start comes before the first built circuit. -/
theorem second_tor : ∃ s, Reachable eventStep {} s ∧ ¬ SingleTor s := by
  have reached : Reachable eventStep {} _ := reachable_of_run
    [.actionStart .first, .actionStart .first] rfl
  exact ⟨_, reached, fun single => nomatch single [0] (.tail _ (.head _))⟩

end Orbot.Lifecycle
