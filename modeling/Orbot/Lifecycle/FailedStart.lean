import Orbot.Lifecycle.TorService

/-! # A start that fails

`startTor` broadcasts STARTING before anything can fail. What can fail ends as
an exception that is caught at its end, or as a result of `runTorShellCmd` that
is not looked at, and neither changes the status.
-/

namespace Orbot.Lifecycle

/-- The service together with the statuses it has broadcast, oldest first. -/
structure Broadcasting where
  service : TorService := {}
  broadcasts : List Status := []
  deriving Repr, DecidableEq

namespace Broadcasting

def sendCallbackStatus (currentStatus : Status) (b : Broadcasting) : Broadcasting :=
  { service := Lifecycle.sendCallbackStatus currentStatus b.service
    broadcasts := b.broadcasts ++ [currentStatus] }

/-- `runTorShellCmd` broadcasts nothing. -/
def startTor (outcome : StartOutcome) (b : Broadcasting) : Broadcasting :=
  if b.service.mCurrentStatus = .stopping then b
  else if b.service.mCurrentStatus = .on then b
  else
    let b := b.sendCallbackStatus .starting
    { b with service := (runTorShellCmd outcome b.service).2 }

theorem startTor_service (outcome : StartOutcome) (b : Broadcasting) :
    (b.startTor outcome).service = Lifecycle.startTor outcome b.service := by
  unfold startTor Lifecycle.startTor
  split_ifs <;> rfl

end Broadcasting

/-! ## Bringing Tor up -/

/-- Every step of `runTorShellCmd` succeeds, up to the process id that Tor
    answers on the connection. -/
structure ComesUp (s : TorService) (outcome : StartOutcome) : Prop where
  reaches : ReachesLaunch s outcome
  launched : outcome.launch = .exited 0
  connects : (s.conn.or (outcome.control.established 100)).isSome = true
  ready : ∃ torProcId, outcome.control.setup = .ready torProcId ∧ torProcId ≠ -1

theorem initControlConnection_result {maxTries : Nat} {control : ControlOutcome} {s : TorService}
    {torProcId : Int} (started : torProcId ≠ -1) :
    (initControlConnection maxTries control s).1 = some torProcId ↔
      (s.conn.or (control.established maxTries)).isSome = true ∧
        control.setup = .ready torProcId := by
  rw [initControlConnection, connect_eq, ← ControlOutcome.established]
  cases s.conn.or (control.established maxTries) with
  | none => simp [started.symm]
  | some conn => cases control.setup <;> simp [started.symm]

theorem runTorShellCmd_result_of_not {s : TorService} {outcome : StartOutcome}
    (reaches : ¬ ReachesLaunch s outcome) : (runTorShellCmd outcome s).1 = none := by
  unfold runTorShellCmd
  cases written : outcome.configWritten with
  | false => rfl
  | true =>
      cases closed : s.shellClosed with
      | true => rw [exec_closed closed]; rfl
      | false =>
          cases verify : outcome.verify with
          | brokenBusybox => rw [exec_brokenBusybox closed]; rfl
          | timedOut => rw [exec_timedOut closed]; rfl
          | exited exitCode =>
              have other : exitCode ≠ 0 := by
                rintro rfl
                exact reaches ⟨closed, written, verify⟩
              rw [exec_exited closed]
              simp only [other, ne_eq, not_false_eq_true, if_true, Bool.not_true,
                Bool.false_eq_true, if_false]

/-- Past the launch command it is the exit code and the process id that count. -/
theorem runTorShellCmd_result_of {s : TorService} {outcome : StartOutcome}
    (reaches : ReachesLaunch s outcome) :
    (runTorShellCmd outcome s).1 = some true ↔ outcome.launch = .exited 0 ∧
      ∃ torProcId, torProcId ≠ -1 ∧
        (initControlConnection 100 outcome.control (launchTor outcome.up s)).1 =
          some torProcId := by
  obtain ⟨closed, written, verified⟩ := reaches
  have launched : (launchTor outcome.up s).shellClosed = false := closed
  unfold runTorShellCmd
  rw [written, verified, exec_exited closed]
  simp only [Bool.not_true, Bool.false_eq_true, ne_eq, not_true, if_false, execLaunch_open closed]
  cases launch : outcome.launch with
  | brokenBusybox => simp [exec_brokenBusybox launched]
  | timedOut => simp [exec_timedOut launched]
  | exited exitCode =>
      rw [exec_exited launched]
      by_cases zero : exitCode = 0
      · subst zero
        simp only [not_true, if_false, true_and]
        cases result : initControlConnection 100 outcome.control (launchTor outcome.up s) with
        | mk torProcId s' =>
            cases torProcId with
            | none => simp
            | some torProcId =>
                by_cases failed : torProcId = -1
                · simp [failed]
                · simp [failed]
      · simp [zero]

theorem runTorShellCmd_result {s : TorService} {outcome : StartOutcome} :
    (runTorShellCmd outcome s).1 = some true ↔ ComesUp s outcome := by
  by_cases reaches : ReachesLaunch s outcome
  · rw [runTorShellCmd_result_of reaches]
    constructor
    · rintro ⟨launched, torProcId, started, result⟩
      obtain ⟨connects, ready⟩ := (initControlConnection_result started).mp result
      exact ⟨reaches, launched, connects, torProcId, ready, started⟩
    · rintro ⟨-, launched, connects, torProcId, ready, started⟩
      exact ⟨launched, torProcId, started,
        (initControlConnection_result started).mpr ⟨connects, ready⟩⟩
  · rw [runTorShellCmd_result_of_not reaches]
    exact iff_of_false (by simp) fun up => reaches up.reaches

/-! ## The status afterwards -/

/-- The status is OFF, and the last broadcast says so. -/
structure BackOff (b : Broadcasting) : Prop where
  status : b.service.mCurrentStatus = .off
  broadcast : b.broadcasts.getLast? = some .off

/-- However it ends, a start from OFF ends with STARTING. -/
theorem startTor_starting (outcome : StartOutcome) {b : Broadcasting}
    (off : b.service.mCurrentStatus = .off) :
    (b.startTor outcome).service.mCurrentStatus = .starting ∧
      (b.startTor outcome).broadcasts = b.broadcasts ++ [.starting] := by
  have ignores : ¬ IgnoresStart b.service := by simp [IgnoresStart, off]
  constructor
  · rw [Broadcasting.startTor_service, startTor_mCurrentStatus ignores]
  · simp only [Broadcasting.startTor, off, reduceCtorEq, if_false]
    rfl

/-- No start from OFF that fails gets back to OFF: only one that brings up Tor,
    and so has nothing to undo, does what is asked. -/
theorem startTor_backOff_iff (outcome : StartOutcome) (b : Broadcasting)
    (off : b.service.mCurrentStatus = .off) :
    ((runTorShellCmd outcome (sendCallbackStatus .starting b.service)).1 ≠ some true →
        BackOff (b.startTor outcome)) ↔
      ComesUp b.service outcome := by
  have same : ComesUp (sendCallbackStatus .starting b.service) outcome ↔
      ComesUp b.service outcome :=
    ⟨fun ⟨reaches, launched, connects, ready⟩ => ⟨reaches, launched, connects, ready⟩,
      fun ⟨reaches, launched, connects, ready⟩ => ⟨reaches, launched, connects, ready⟩⟩
  rw [Ne, runTorShellCmd_result, same]
  constructor
  · intro back
    by_contra down
    cases (startTor_starting outcome off).1.symm.trans (back down).status
  · exact absurd

/-- Tor does not accept the configuration. -/
def rejectedConfig : StartOutcome where
  configWritten := true
  verify := .exited 1
  launch := .exited 0
  comesUp := false
  control := ⟨fun _ => .refused, .ready 4711⟩

/-- Its exception leaves the service at STARTING. -/
theorem startTor_backOff_rejectedConfig :
    ¬ ((runTorShellCmd rejectedConfig (sendCallbackStatus .starting {})).1 ≠ some true →
      BackOff (Broadcasting.startTor rejectedConfig {})) :=
  mt (startTor_backOff_iff rejectedConfig {} rfl).mp fun up => absurd up.reaches.2.2 (by decide)

/-- The launch command exits with 1, and its result is dropped. -/
theorem startTor_stays_starting :
    ∃ outcome : StartOutcome, outcome.launch = .exited 1 ∧
      (runTorShellCmd outcome (sendCallbackStatus .starting {})).1 = some false ∧
      (Broadcasting.startTor outcome {}).service.mCurrentStatus = .starting ∧
      (Broadcasting.startTor outcome {}).broadcasts = [.starting] ∧
      ¬ BackOff (Broadcasting.startTor outcome {}) := by
  refine ⟨{ rejectedConfig with verify := .exited 0, launch := .exited 1 }, rfl, rfl, rfl, rfl, ?_⟩
  intro back
  cases back.status

end Orbot.Lifecycle
