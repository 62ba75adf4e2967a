import Mathlib.Data.List.Basic
import Orbot.Lib.Transition
import Orbot.TorServiceConstants

/-! # Starting and stopping Tor

The runs of `TorService` that start Tor, look for one that is there, and stop it.
What the shell, the control port and Tor answer is an argument of each run.
-/

namespace Orbot.Lifecycle

open Lib.Transition

/-! ## The service -/

structure TorControlConnection where
  /-- which of the Tors launched by the service, `none` for another Tor -/
  tor : Option Nat
  authenticated : Bool := false
  eventHandler : Bool := false
  events : Bool := false
  deriving Repr, DecidableEq

structure TorService where
  mCurrentStatus : Status := .off
  conn : Option TorControlConnection := none
  mLastProcessId : Int := -1
  /-- `mShell` takes no more commands -/
  shellClosed : Bool := false
  /-- the launched Tors that run and were not told to halt, by their launch -/
  running : List Nat := []
  /-- for each run of the launch command, the Tors that were running then -/
  launches : List (List Nat) := []
  deriving Repr, DecidableEq

def sendCallbackStatus (currentStatus : Status) (s : TorService) : TorService :=
  { s with mCurrentStatus := currentStatus }

/-- The first built circuit turns the status on. -/
def circuitBuilt (s : TorService) : TorService :=
  if s.mCurrentStatus = .starting then sendCallbackStatus .on s else s

/-- A Tor ends by itself. -/
def torExits (tor : Nat) (s : TorService) : TorService :=
  { s with running := s.running.filter (· ≠ tor) }

/-! ## The control connection -/

/-- One round of the connection loop. -/
inductive Attempt where
  /-- no control port is known yet -/
  | noPort
  | refused
  | connected (tor : Option Nat)
  deriving Repr, DecidableEq

/-- How far setting up a connection gets. -/
inductive Setup where
  | noCookie
  | cookieUnreadable
  | authenticateFails
  | setEventsFails
  | getInfoFails
  | ready (torProcId : Int)
  deriving Repr, DecidableEq

structure ControlOutcome where
  attempts : Nat → Attempt
  setup : Setup

/-- The loop runs while there is no connection. -/
def connect : List Attempt → TorService → TorService
  | [], s => s
  | attempt :: rest, s =>
      if s.conn.isSome then s
      else
        match attempt with
        | .noPort => connect rest s
        | .refused => connect rest { s with conn := none }
        | .connected tor => { s with conn := some { tor } }

def TorControlConnection.authenticate (conn : TorControlConnection) : TorControlConnection :=
  { conn with authenticated := true }

def TorControlConnection.setEventHandler (conn : TorControlConnection) : TorControlConnection :=
  { conn with eventHandler := true }

def TorControlConnection.setEvents (conn : TorControlConnection) : TorControlConnection :=
  { conn with events := true }

/-- The process id, or `none` for an exception. -/
def initControlConnection (maxTries : Nat) (control : ControlOutcome) (s : TorService) :
    Option Int × TorService :=
  let s := connect ((List.range maxTries).map control.attempts) s
  match s.conn with
  | none => (some (-1), s)
  | some conn =>
      match control.setup with
      | .noCookie => (some (-1), { s with conn := none })
      | .cookieUnreadable | .authenticateFails => (none, s)
      | .setEventsFails => (none, { s with conn := some conn.authenticate.setEventHandler })
      | .getInfoFails => (none, { s with conn := some conn.authenticate.setEventHandler.setEvents })
      | .ready torProcId =>
          (some torProcId, { s with conn := some conn.authenticate.setEventHandler.setEvents })

def findExistingTorDaemon (control : ControlOutcome) (s : TorService) : Bool × TorService :=
  match initControlConnection 3 control s with
  | (none, s) => (false, s)
  | (some torProcId, s) =>
      let s := { s with mLastProcessId := torProcId }
      if torProcId ≠ -1 ∧ s.conn.isSome then (true, sendCallbackStatus .on s) else (false, s)

/-! ## Starting -/

/-- How waiting for a shell command ends. -/
inductive Exec where
  | exited (exitCode : Int)
  | brokenBusybox
  /-- the shell is closed -/
  | timedOut
  deriving Repr, DecidableEq

/-- The exit code, or `none` for an exception. -/
def exec (outcome : Exec) (s : TorService) : Option Int × TorService :=
  if s.shellClosed then (none, s)
  else
    match outcome with
    | .exited exitCode => (some exitCode, s)
    | .brokenBusybox => (none, s)
    | .timedOut => (none, { s with shellClosed := true })

structure StartOutcome where
  /-- `updateTorConfigFile` does not throw -/
  configWritten : Bool
  verify : Exec
  launch : Exec
  /-- a Tor comes up although waiting for its command throws -/
  comesUp : Bool
  control : ControlOutcome

/-- A Tor whose command exits with 0 has gone into the background. -/
def StartOutcome.up (outcome : StartOutcome) : Bool :=
  match outcome.launch with
  | .exited exitCode => exitCode = 0
  | .brokenBusybox | .timedOut => outcome.comesUp

/-- The effect of the launch command. -/
def launchTor (up : Bool) (s : TorService) : TorService :=
  { s with
    running := if up then s.running ++ [s.launches.length] else s.running
    launches := s.launches ++ [s.running] }

/-- The second `exec` of `runTorShellCmd`. -/
def execLaunch (outcome : StartOutcome) (s : TorService) : Option Int × TorService :=
  if s.shellClosed then (none, s) else exec outcome.launch (launchTor outcome.up s)

/-- The result, or `none` for an exception. -/
def runTorShellCmd (outcome : StartOutcome) (s : TorService) : Option Bool × TorService :=
  if !outcome.configWritten then (none, s)
  else
    match exec outcome.verify s with
    | (none, s) => (none, s)
    | (some exitCode, s) =>
        if exitCode ≠ 0 then (none, s)
        else
          match execLaunch outcome s with
          | (none, s) => (none, s)
          | (some exitCode, s) =>
              if exitCode ≠ 0 then (some false, s)
              else
                match initControlConnection 100 outcome.control s with
                | (none, s) => (none, s)
                | (some torProcId, s) =>
                    (if torProcId = -1 then none else some true,
                      { s with mLastProcessId := torProcId })

/-- An exception ends the start with the status as it is. -/
def startTor (outcome : StartOutcome) (s : TorService) : TorService :=
  if s.mCurrentStatus = .stopping then s
  else if s.mCurrentStatus = .on then s
  else (runTorShellCmd outcome (sendCallbackStatus .starting s)).2

/-! ## Stopping -/

/-- `halted`: HALT could be written to the connection. -/
def killAllDaemons (halted : Bool) (s : TorService) : TorService :=
  match s.conn with
  | none => s
  | some conn =>
      { s with
        running := if halted then s.running.filter (some · ≠ conn.tor) else s.running
        conn := none }

def stopTorAsync (halted : Bool) (s : TorService) : TorService :=
  sendCallbackStatus .off (killAllDaemons halted (sendCallbackStatus .stopping s))

/-! ## One run after the other -/

inductive Event where
  | findExistingTorDaemon (control : ControlOutcome)
  | actionStart (outcome : StartOutcome)
  | stopTorAsync (halted : Bool)
  /-- `mShell.close()`, at the end of `onDestroy` -/
  | closeShell
  | circuitBuilt
  | torExits (tor : Nat)

def afterEvent (s : TorService) : Event → TorService
  | .findExistingTorDaemon control => (findExistingTorDaemon control s).2
  | .actionStart outcome => startTor outcome s
  | .stopTorAsync halted => stopTorAsync halted s
  | .closeShell => { s with shellClosed := true }
  | .circuitBuilt => circuitBuilt s
  | .torExits tor => torExits tor s

def eventStep (s : TorService) (e : Event) : Option TorService := some (afterEvent s e)

/-! ## What connecting does -/

def Attempt.connection : Attempt → Option TorControlConnection
  | .noPort | .refused => none
  | .connected tor => some { tor }

/-- The connection the loop makes if there is none. -/
def ControlOutcome.established (control : ControlOutcome) (maxTries : Nat) :
    Option TorControlConnection :=
  ((List.range maxTries).map control.attempts).findSome? Attempt.connection

/-- The connection that is left behind. -/
def Setup.after (setup : Setup) (conn : TorControlConnection) : Option TorControlConnection :=
  match setup with
  | .noCookie => none
  | .cookieUnreadable | .authenticateFails => some conn
  | .setEventsFails => some conn.authenticate.setEventHandler
  | .getInfoFails | .ready _ => some conn.authenticate.setEventHandler.setEvents

theorem connect_eq (attempts : List Attempt) (s : TorService) :
    connect attempts s = { s with conn := s.conn.or (attempts.findSome? Attempt.connection) } := by
  induction attempts generalizing s with
  | nil => simp [connect]
  | cons attempt rest ih =>
      cases conn : s.conn with
      | some conn' => cases attempt <;> simp [connect, conn] <;> simp [← conn]
      | none =>
          cases attempt with
          | noPort | refused =>
              simp only [connect, conn, Option.isSome_none, Bool.false_eq_true, if_false, ih]
              rfl
          | connected tor =>
              simp only [connect, conn, Option.isSome_none, Bool.false_eq_true, if_false]
              rfl

/-- Setting up a connection changes the connection only. -/
theorem initControlConnection_eq (maxTries : Nat) (control : ControlOutcome) (s : TorService) :
    (initControlConnection maxTries control s).2 =
      { s with conn := (s.conn.or (control.established maxTries)).bind control.setup.after } := by
  rw [initControlConnection, connect_eq, ← ControlOutcome.established]
  cases s.conn.or (control.established maxTries) with
  | none => rfl
  | some conn => cases control.setup <;> rfl

/-- Looking for a Tor can only turn the status on besides. -/
theorem findExistingTorDaemon_eq (control : ControlOutcome) (s : TorService) :
    ∃ mCurrentStatus mLastProcessId,
      (mCurrentStatus = s.mCurrentStatus ∨ mCurrentStatus = .on) ∧
      (findExistingTorDaemon control s).2 = { s with
        mCurrentStatus
        conn := (s.conn.or (control.established 3)).bind control.setup.after
        mLastProcessId } := by
  have init := initControlConnection_eq 3 control s
  unfold findExistingTorDaemon
  cases result : initControlConnection 3 control s with
  | mk torProcId s' =>
      rw [result] at init
      obtain rfl : s' = _ := init
      cases torProcId with
      | none => exact ⟨_, _, .inl rfl, rfl⟩
      | some torProcId =>
          simp only
          split_ifs
          · exact ⟨_, _, .inr rfl, rfl⟩
          · exact ⟨_, _, .inl rfl, rfl⟩

/-! ## What a stop does -/

theorem killAllDaemons_eq (halted : Bool) (s : TorService) :
    killAllDaemons halted s = { s with
      running := s.running.filter fun tor => !(halted && s.conn.any (·.tor = some tor))
      conn := none } := by
  obtain ⟨mCurrentStatus, conn, mLastProcessId, shellClosed, running, launches⟩ := s
  cases conn with
  | none => simp [killAllDaemons]
  | some c => cases halted <;> simp [killAllDaemons, eq_comm]

/-! ## What a start does -/

/-- `runTorShellCmd` gets as far as the launch command. -/
def ReachesLaunch (s : TorService) (outcome : StartOutcome) : Prop :=
  s.shellClosed = false ∧ outcome.configWritten = true ∧ outcome.verify = .exited 0

def IgnoresStart (s : TorService) : Prop := s.mCurrentStatus = .stopping ∨ s.mCurrentStatus = .on

/-- An ACTION_START with this outcome runs the launch command. -/
def Launches (s : TorService) (outcome : StartOutcome) : Prop :=
  ¬ IgnoresStart s ∧ ReachesLaunch s outcome

instance (s : TorService) (outcome : StartOutcome) : Decidable (ReachesLaunch s outcome) :=
  inferInstanceAs (Decidable (_ ∧ _))

instance (s : TorService) : Decidable (IgnoresStart s) := inferInstanceAs (Decidable (_ ∨ _))

instance (s : TorService) (outcome : StartOutcome) : Decidable (Launches s outcome) :=
  inferInstanceAs (Decidable (_ ∧ _))

theorem exec_closed {s : TorService} (closed : s.shellClosed = true) (outcome : Exec) :
    exec outcome s = (none, s) :=
  if_pos closed

section Open

variable {s : TorService} (opened : s.shellClosed = false)
include opened

theorem exec_exited (exitCode : Int) : exec (.exited exitCode) s = (some exitCode, s) := by
  rw [exec, opened]
  rfl

theorem exec_brokenBusybox : exec .brokenBusybox s = (none, s) := by
  rw [exec, opened]
  rfl

theorem exec_timedOut : exec .timedOut s = (none, { s with shellClosed := true }) := by
  rw [exec, opened]
  rfl

theorem execLaunch_open (outcome : StartOutcome) :
    execLaunch outcome s = exec outcome.launch (launchTor outcome.up s) := by
  rw [execLaunch, opened]
  rfl

end Open

/-- A start that does not reach the launch command can only have closed the shell. -/
theorem runTorShellCmd_of_not {s : TorService} {outcome : StartOutcome}
    (reaches : ¬ ReachesLaunch s outcome) :
    ∃ shellClosed, (runTorShellCmd outcome s).2 = { s with shellClosed } := by
  unfold runTorShellCmd
  cases written : outcome.configWritten with
  | false => exact ⟨_, rfl⟩
  | true =>
      cases closed : s.shellClosed with
      | true => rw [exec_closed closed]; exact ⟨_, rfl⟩
      | false =>
          cases verify : outcome.verify with
          | brokenBusybox => rw [exec_brokenBusybox closed]; exact ⟨_, rfl⟩
          | timedOut => rw [exec_timedOut closed]; exact ⟨_, rfl⟩
          | exited exitCode =>
              have other : exitCode ≠ 0 := by
                rintro rfl
                exact reaches ⟨closed, written, verify⟩
              rw [exec_exited closed]
              simp only [other, ne_eq, not_false_eq_true, if_true]
              exact ⟨_, rfl⟩

theorem runTorShellCmd_of {s : TorService} {outcome : StartOutcome}
    (reaches : ReachesLaunch s outcome) :
    ∃ shellClosed mLastProcessId, (runTorShellCmd outcome s).2 =
      { launchTor outcome.up s with
        conn := if outcome.launch = .exited 0 then
            (s.conn.or (outcome.control.established 100)).bind outcome.control.setup.after
          else s.conn
        shellClosed
        mLastProcessId } := by
  obtain ⟨closed, written, verified⟩ := reaches
  have launched : (launchTor outcome.up s).shellClosed = false := closed
  unfold runTorShellCmd
  rw [written, verified, exec_exited closed]
  simp only [Bool.not_true, Bool.false_eq_true, ne_eq, not_true, if_false, execLaunch_open closed]
  cases launch : outcome.launch with
  | brokenBusybox => rw [exec_brokenBusybox launched]; exact ⟨_, _, rfl⟩
  | timedOut => rw [exec_timedOut launched]; exact ⟨_, _, rfl⟩
  | exited exitCode =>
      rw [exec_exited launched]
      by_cases zero : exitCode = 0
      · subst zero
        have init := initControlConnection_eq 100 outcome.control (launchTor outcome.up s)
        simp only [not_true, if_false, if_true]
        cases result : initControlConnection 100 outcome.control (launchTor outcome.up s) with
        | mk torProcId s' =>
            rw [result] at init
            obtain rfl : s' = _ := init
            cases torProcId with
            | none => exact ⟨_, _, rfl⟩
            | some torProcId => exact ⟨_, _, rfl⟩
      · simp only [zero, not_false_eq_true, if_true]
        have failed : Exec.exited exitCode ≠ .exited 0 := fun same => zero (Exec.exited.inj same)
        rw [if_neg failed]
        exact ⟨_, _, rfl⟩

section Start

variable {s : TorService} {outcome : StartOutcome}

theorem startTor_of_ignores (ignores : IgnoresStart s) : startTor outcome s = s := by
  rcases ignores with stopping | on
  · exact if_pos stopping
  · have other : s.mCurrentStatus ≠ .stopping := by simp [on]
    exact (if_neg other).trans (if_pos on)

theorem startTor_of_not_ignores (ignores : ¬ IgnoresStart s) :
    startTor outcome s = (runTorShellCmd outcome (sendCallbackStatus .starting s)).2 :=
  (if_neg fun stopping => ignores (.inl stopping)).trans (if_neg fun on => ignores (.inr on))

/-- Without a launch a start changes neither the connection nor the Tors. -/
theorem startTor_of_not (launches : ¬ Launches s outcome) :
    (startTor outcome s).conn = s.conn ∧ (startTor outcome s).running = s.running ∧
      (startTor outcome s).launches = s.launches := by
  by_cases ignores : IgnoresStart s
  · rw [startTor_of_ignores ignores]
    exact ⟨rfl, rfl, rfl⟩
  · have reaches : ¬ ReachesLaunch (sendCallbackStatus .starting s) outcome :=
      fun reaches => launches ⟨ignores, reaches⟩
    obtain ⟨shellClosed, same⟩ := runTorShellCmd_of_not reaches
    rw [startTor_of_not_ignores ignores, same]
    exact ⟨rfl, rfl, rfl⟩

theorem startTor_of (launches : Launches s outcome) :
    (startTor outcome s).conn =
        (if outcome.launch = .exited 0 then
          (s.conn.or (outcome.control.established 100)).bind outcome.control.setup.after
        else s.conn) ∧
      (startTor outcome s).running = (launchTor outcome.up s).running ∧
      (startTor outcome s).launches = s.launches ++ [s.running] := by
  obtain ⟨shellClosed, mLastProcessId, result⟩ :=
    runTorShellCmd_of (s := sendCallbackStatus .starting s) launches.2
  rw [startTor_of_not_ignores launches.1, result]
  exact ⟨rfl, rfl, rfl⟩

theorem startTor_mCurrentStatus (ignores : ¬ IgnoresStart s) :
    (startTor outcome s).mCurrentStatus = .starting := by
  rw [startTor_of_not_ignores ignores]
  by_cases reaches : ReachesLaunch (sendCallbackStatus .starting s) outcome
  · obtain ⟨_, _, result⟩ := runTorShellCmd_of reaches
    rw [result]
    rfl
  · obtain ⟨_, result⟩ := runTorShellCmd_of_not reaches
    rw [result]
    rfl

end Start

end Orbot.Lifecycle
