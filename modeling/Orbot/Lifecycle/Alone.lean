import Orbot.Lifecycle.Shutdown

/-! # One thread alone

A thread that is not interrupted does what the function it runs does: what is
said about runs one after the other is said about the same code as what is said
about threads.
-/

namespace Orbot.Lifecycle

open Lib.Transition

/-! ## The control connection -/

/-- `initControlConnection` from here on, without another thread in between. -/
inductive ControlRuns : TorService → ControlPc → Option Int → TorService → Prop where
  | returns {s s' : TorService} {pc : ControlPc} {result : Option Int} (input : Input) :
      controlStep s pc input = some (s', .inr result) → ControlRuns s pc result s'
  | next {s s' s'' : TorService} {pc pc' : ControlPc} {result : Option Int} (input : Input) :
      controlStep s pc input = some (s', .inl pc') → ControlRuns s' pc' result s'' →
        ControlRuns s pc result s''

namespace ControlRuns

variable {s s' : TorService} {result : Option Int}

/-- The loop, by induction on the rounds that are left. -/
theorem connect {attempts : List Attempt}
    (behind : ControlRuns (Lifecycle.connect attempts s) .connected result s') :
    ControlRuns s (.loop attempts.length) result s' := by
  induction attempts generalizing s with
  | nil =>
      have leaves : controlStep s (.loop 0) .goes = some (s, .inl .connected) := by
        simp [controlStep]
      exact .next .goes leaves behind
  | cons attempt rest ih =>
      cases conn : s.conn with
      | some conn' =>
          have leaves : controlStep s (.loop (rest.length + 1)) .goes =
              some (s, .inl .connected) := by
            simp [controlStep, conn]
          simp only [Lifecycle.connect, conn, Option.isSome_some, if_true] at behind
          exact .next .goes leaves behind
      | none =>
          have enters : controlStep s (.loop (rest.length + 1)) .goes =
              some (s, .inl (.attempt rest.length)) := by
            simp [controlStep, conn]
          simp only [Lifecycle.connect, conn, Option.isSome_none, Bool.false_eq_true, if_false]
            at behind
          cases attempt with
          | noPort => exact .next .goes enters (.next (.attempt .noPort) rfl (ih behind))
          | refused => exact .next .goes enters (.next (.attempt .refused) rfl (ih behind))
          | connected tor => exact .next .goes enters (.next (.attempt (.connected tor)) rfl behind)

/-- What follows the loop if there is a connection. -/
theorem setUp {conn : TorControlConnection} (there : s.conn = some conn) (setup : Setup) :
    ControlRuns s .cookie
      (match setup with
        | .noCookie => some (-1)
        | .cookieUnreadable | .authenticateFails | .setEventsFails | .getInfoFails => none
        | .ready torProcId => some torProcId)
      { s with conn := setup.after conn } := by
  have authenticates : controlStep s .authenticate .goes =
      some ({ s with conn := some conn.authenticate }, .inl .addEventHandler) := by
    simp [controlStep, there]
  have same : { s with conn := some conn } = s := by rw [← there]
  cases setup with
  | noCookie => exact .returns .fails rfl
  | cookieUnreadable | authenticateFails =>
      simp only [Setup.after, same]
      exact .next .goes rfl (.returns .fails rfl)
  | setEventsFails =>
      exact .next .goes rfl (.next .goes authenticates (.next .goes rfl (.returns .fails rfl)))
  | getInfoFails =>
      exact .next .goes rfl (.next .goes authenticates
        (.next .goes rfl (.next .goes rfl (.returns .fails rfl))))
  | ready torProcId =>
      exact .next .goes rfl (.next .goes authenticates
        (.next .goes rfl (.next .goes rfl (.returns (.torProcId torProcId) rfl))))

theorem initControlConnection (maxTries : Nat) (control : ControlOutcome) (s : TorService) :
    ControlRuns s (.loop maxTries) (Lifecycle.initControlConnection maxTries control s).1
      (Lifecycle.initControlConnection maxTries control s).2 := by
  have rounds : ((List.range maxTries).map control.attempts).length = maxTries := by simp
  conv => arg 2; rw [← rounds]
  apply connect
  unfold Lifecycle.initControlConnection
  generalize Lifecycle.connect ((List.range maxTries).map control.attempts) s = s'
  cases conn : s'.conn with
  | none =>
      simp only [conn]
      exact .returns .goes (by simp [controlStep, conn])
  | some conn' =>
      simp only [conn]
      have enters : controlStep s' .connected .goes = some (s', .inl .cookie) := by
        simp [controlStep, conn]
      have same : { s' with conn := some conn' } = s' := by rw [← conn]
      have setUp := setUp conn control.setup
      cases setup : control.setup with
      | noCookie | setEventsFails | getInfoFails | ready =>
          rw [setup] at setUp
          exact .next .goes enters setUp
      | cookieUnreadable | authenticateFails =>
          rw [setup, Setup.after, same] at setUp
          exact .next .goes enters setUp

end ControlRuns

/-! ## A router -/

/-- The router `i` is here, with the service like this. -/
def solo (s : Threads) (i : Nat) (service : TorService) (pc : RouterPc) : Threads :=
  { s with service, routers := s.routers.set i pc }

/-- The process id is stored unless there was an exception. -/
def returned (result : Option Int) (service : TorService) : TorService :=
  match result with
  | none => service
  | some mLastProcessId => { service with mLastProcessId }

/-- The exit code of the launch command. -/
def StartOutcome.exitCode (outcome : StartOutcome) : Int :=
  match outcome.launch with
  | .exited exitCode => exitCode
  | .brokenBusybox | .timedOut => if outcome.comesUp then 0 else 1

theorem up_iff_exitCode (outcome : StartOutcome) : decide (outcome.exitCode = 0) = outcome.up := by
  unfold StartOutcome.exitCode StartOutcome.up
  cases outcome.launch <;> cases outcome.comesUp <;> rfl

section Router

variable {s : Threads} {i : Nat} (inside : i < s.routers.length)
  {service service' : TorService} {pc pc' : RouterPc}
include inside

theorem solo_step (input : Input) (moved : routerStep (solo s i service pc) i pc input =
    some (solo s i service' pc, pc')) :
    step (solo s i service pc) (.router i input) = some (solo s i service' pc') := by
  rw [step_router (List.getElem?_set_self inside) moved]
  simp only [solo, List.set_set]

theorem solo_goes (input : Input) {later : Threads}
    (moved : routerStep (solo s i service pc) i pc input = some (solo s i service' pc, pc'))
    (after : Reachable step (solo s i service' pc') later) :
    Reachable step (solo s i service pc) later :=
  (Reaches.here.next trivial (solo_step inside input moved)).trans after

/-- `initControlConnection` in a router. -/
theorem solo_control {pc : ControlPc} {result : Option Int}
    (runs : ControlRuns service pc result service') :
    Reachable step (solo s i service (.control pc))
      (solo s i (returned result service') .done) := by
  induction runs with
  | @returns service service' pc result input returned =>
      refine solo_goes inside input ?_ .here
      simp only [routerStep, solo, returned]
      cases result <;> rfl
  | next input moved _ ih =>
      refine solo_goes inside input ?_ ih
      simp only [routerStep, solo, moved]

/-- The shell runs the command of the router. -/
theorem solo_runCommand (idle : s.commands = []) (service : TorService) (pc : RouterPc)
    (exitCode : Int) : step { solo s i service pc with commands := [i] } (.runCommand exitCode) =
      some (solo s i (launchTor (exitCode = 0) service) (pc.exits exitCode)) := by
  have : Inhabited RouterPc := ⟨.done⟩
  simp only [step, solo, idle, List.modify_eq_set, List.getElem?_set_self inside, Option.getD_some,
    List.set_set]

/-- The launch command, and what the router is told of it. -/
theorem solo_launch (idle : s.commands = []) (outcome : StartOutcome) :
    Reachable step (solo s i service .launch) (solo s i (execLaunch outcome service).2
      (match (execLaunch outcome service).1 with
        | none => .done
        | some exitCode => .launched exitCode)) := by
  cases closed : service.shellClosed with
  | true =>
      have same : execLaunch outcome service = (none, service) := if_pos closed
      rw [same]
      exact solo_goes inside .goes (if_pos closed) .here
  | false =>
      have launched : (launchTor outcome.up service).shellClosed = false := closed
      have takes : step (solo s i service .launch) (.router i .goes) =
          some { solo s i service .waitForLaunch with commands := [i] } := by
        have moved : routerStep (solo s i service .launch) i .launch .goes = some
            ({ solo s i service .launch with commands := s.commands ++ [i] }, .waitForLaunch) := by
          simp [routerStep, solo, closed]
        rw [step_router (List.getElem?_set_self inside) moved, idle]
        simp only [solo, List.set_set, List.nil_append]
      have taken : Reachable step (solo s i service .launch)
          { solo s i service .waitForLaunch with commands := [i] } :=
        Reaches.here.next trivial takes
      have ran (service : TorService) (pc : RouterPc) :=
        up_iff_exitCode outcome ▸ solo_runCommand inside idle service pc outcome.exitCode
      rw [execLaunch_open closed]
      cases launch : outcome.launch with
      | exited exitCode =>
          have code : outcome.exitCode = exitCode := by simp [StartOutcome.exitCode, launch]
          rw [exec_exited launched]
          exact taken.next trivial (code ▸ ran service .waitForLaunch)
      | brokenBusybox =>
          rw [exec_brokenBusybox launched]
          exact (taken.next trivial (ran service .waitForLaunch)).trans
            (solo_goes inside .fails rfl .here)
      | timedOut =>
          rw [exec_timedOut launched]
          have gives : step { solo s i service .waitForLaunch with commands := [i] }
              (.router i (.exec .timedOut)) =
              some { solo s i { service with shellClosed := true } .done with
                commands := [i] } := by
            have there : ({ solo s i service .waitForLaunch with commands := [i] } :
                Threads).routers[i]? = some .waitForLaunch := List.getElem?_set_self inside
            rw [step_router there rfl]
            simp only [solo, List.set_set]
          exact (taken.next trivial gives).next trivial
            (ran { service with shellClosed := true } .done)

/-- What follows the launch command. -/
theorem solo_launched (exitCode : Int) (control : ControlOutcome) :
    Reachable step (solo s i service (.launched exitCode)) (solo s i
      (if exitCode ≠ 0 then (some false, service)
        else
          match initControlConnection 100 control service with
          | (none, s) => (none, s)
          | (some torProcId, s) =>
              (if torProcId = -1 then none else some true,
                { s with mLastProcessId := torProcId })).2 .done) := by
  have exits : routerStep (solo s i service (.launched exitCode)) i (.launched exitCode) .goes =
      some (solo s i service (.launched exitCode),
        if exitCode = 0 then .control (.loop 100) else .done) := rfl
  apply solo_goes inside _ exits
  by_cases zero : exitCode = 0
  · have connects := solo_control (s := s) inside
      (ControlRuns.initControlConnection 100 control service)
    simp only [zero, ne_eq, not_true, if_false, if_true]
    cases result : initControlConnection 100 control service with
    | mk torProcId service' =>
        rw [result] at connects
        cases torProcId <;> exact connects
  · simp only [zero, ne_eq, not_false_eq_true, if_true, if_false]
    exact .here

theorem solo_runTorShellCmd (idle : s.commands = []) (outcome : StartOutcome) :
    Reachable step (solo s i service .updateConfig)
      (solo s i (runTorShellCmd outcome service).2 .done) := by
  unfold runTorShellCmd
  cases written : outcome.configWritten with
  | false => exact solo_goes inside .fails rfl .here
  | true =>
      apply solo_goes inside .goes rfl
      have verifies : routerStep (solo s i service .verify) i .verify (.exec outcome.verify) =
          some (solo s i (exec outcome.verify service).2 .verify,
            if (exec outcome.verify service).1 = some 0 then .launch else .done) := rfl
      apply solo_goes inside _ verifies
      cases verified : exec outcome.verify service with
      | mk exitCode service₁ =>
          cases exitCode with
          | none => exact .here
          | some exitCode =>
              by_cases zero : exitCode = 0
              · subst zero
                apply (solo_launch inside idle outcome).trans
                simp only [Bool.not_true, Bool.false_eq_true, ne_eq, not_true, if_false]
                cases launched : execLaunch outcome service₁ with
                | mk exitCode service₂ =>
                    cases exitCode with
                    | none => exact .here
                    | some exitCode => exact solo_launched inside exitCode outcome.control
              · simp only [Bool.not_true, Bool.false_eq_true, if_false, Option.some.injEq, zero,
                  ne_eq, not_false_eq_true, if_true]
                exact .here

/-- ACTION_START, once the configuration is there. -/
theorem solo_startTor (idle : s.commands = []) (outcome : StartOutcome) :
    Reachable step (solo s i service .checkStopping)
      (solo s i (startTor outcome service) .done) := by
  have checks : routerStep (solo s i service .checkStopping) i .checkStopping .goes =
      some (solo s i service .checkStopping,
        if service.mCurrentStatus = .stopping then .done else .checkOn) := rfl
  have checksOn : routerStep (solo s i service .checkOn) i .checkOn .goes =
      some (solo s i service .checkOn,
        if service.mCurrentStatus = .on then .done else .setStarting) := rfl
  unfold startTor
  apply solo_goes inside _ checks
  split_ifs with stopping on
  · exact .here
  · apply solo_goes inside _ checksOn
    rw [if_pos on]
    exact .here
  · apply solo_goes inside _ checksOn
    rw [if_neg on]
    exact solo_goes inside .goes rfl (solo_runTorShellCmd inside idle outcome)

end Router

/-! ## The worker and the stop -/

section Worker

variable {s : Threads}

theorem worker_goes (input : Input) {service service' : TorService} {pc pc' : WorkerPc}
    {later : Threads} (moved : workerStep { s with service, worker := pc } pc input =
      some ({ s with service := service', worker := pc }, pc'))
    (after : Reachable step { s with service := service', worker := pc' } later) :
    Reachable step { s with service, worker := pc } later := by
  have taken : step { s with service, worker := pc } (.worker input) =
      some { s with service := service', worker := pc' } := by
    simp only [step, moved, Option.map_some]
  exact (Reaches.here.next trivial taken).trans after

/-- `initControlConnection` in the worker. -/
theorem worker_control {service service' : TorService} {pc : ControlPc} {result : Option Int}
    (runs : ControlRuns service pc result service') :
    Reachable step { s with service, worker := .control pc }
      { s with
        service := returned result service'
        worker := if result = none ∨ result = some (-1) then .done else .checkConn } := by
  induction runs with
  | @returns service service' pc result input returned =>
      refine worker_goes input ?_ .here
      simp only [workerStep, returned]
      cases result with
      | none => simp [Lifecycle.returned]
      | some torProcId => simp [Lifecycle.returned]
  | next input moved _ ih =>
      refine worker_goes input ?_ ih
      simp only [workerStep, moved]

theorem worker_findExistingTorDaemon (control : ControlOutcome) (service : TorService) :
    Reachable step { s with service, worker := .control (.loop 3) }
      { s with service := (findExistingTorDaemon control service).2, worker := .done } := by
  have connects := worker_control (s := s)
    (ControlRuns.initControlConnection 3 control service)
  unfold findExistingTorDaemon
  cases result : initControlConnection 3 control service with
  | mk torProcId service' =>
      rw [result] at connects
      cases torProcId with
      | none => exact connects
      | some torProcId =>
          simp only [returned, reduceCtorEq, Option.some.injEq, false_or] at connects
          by_cases missing : torProcId = -1
          · rw [if_pos missing] at connects
            simpa only [missing, ne_eq, not_true, false_and, if_false] using connects
          · rw [if_neg missing] at connects
            refine connects.trans (worker_goes .goes rfl ?_)
            simp only [missing, ne_eq, not_false_eq_true, true_and]
            split_ifs with found
            · exact worker_goes .goes rfl .here
            · exact .here

end Worker

/-- The thread that stops Tor. -/
theorem stop_stopTorAsync {s : Threads} (called : s.stop = .setStopping) (halted : Bool) :
    Reachable step s { s with service := stopTorAsync halted s.service, stop := .done } := by
  have stopping : step s (.stop halted) = some { s with
      service := sendCallbackStatus .stopping s.service
      stop := .killAllDaemons } := by
    simp only [step, called]
    rfl
  exact ((Reaches.here.next trivial stopping).next (a := .stop halted) trivial rfl).next
    (a := .stop halted) trivial rfl

end Orbot.Lifecycle
