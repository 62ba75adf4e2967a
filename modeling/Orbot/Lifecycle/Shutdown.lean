import Orbot.Lifecycle.TorService

/-! # Stopping while starting

The threads of one service, taken step by step: routers with an ACTION_START,
the worker of `onCreate`, the thread that stops Tor. All a stop knows of a Tor
is the connection, so a start has to be through with it, and nothing may follow.
-/

namespace Orbot.Lifecycle

open Lib.Transition

/-! ## Where the threads are -/

/-- In `initControlConnection`. -/
inductive ControlPc where
  | loop (left : Nat)
  | attempt (left : Nat)
  | connected
  | cookie
  | authenticate
  | addEventHandler
  | setEvents
  | getInfo
  deriving Repr, DecidableEq

/-- A router with ACTION_START. -/
inductive RouterPc where
  | awaitConfig
  | checkStopping
  | checkOn
  | setStarting
  | updateConfig
  | verify
  | launch
  | waitForLaunch
  | launched (exitCode : Int)
  | control (pc : ControlPc)
  | done
  deriving Repr, DecidableEq

inductive WorkerPc where
  | upgradeAndConfig
  | control (pc : ControlPc)
  | checkConn
  | setOn
  | done
  deriving Repr, DecidableEq

inductive StopPc where
  | notCalled
  | setStopping
  | killAllDaemons
  | setOff
  | done
  deriving Repr, DecidableEq

structure Threads where
  service : TorService := {}
  isTorUpgradeAndConfigComplete : Bool := false
  worker : WorkerPc := .upgradeAndConfig
  routers : List RouterPc := []
  stop : StopPc := .notCalled
  /-- the routers whose launch command the shell has taken and not yet run -/
  commands : List Nat := []
  deriving Repr, DecidableEq

/-- What a thread is told. -/
inductive Input where
  | goes
  | fails
  | attempt (attempt : Attempt)
  | exec (outcome : Exec)
  | torProcId (torProcId : Int)
  deriving Repr, DecidableEq

/-! ## Steps -/

/-- The next step of `initControlConnection`, or what it returns, which is `none`
    for an exception. Every use reads `conn` anew. -/
def controlStep (s : TorService) :
    ControlPc → Input → Option (TorService × (ControlPc ⊕ Option Int))
  | .loop left, .goes =>
      if s.conn = none ∧ 0 < left then some (s, .inl (.attempt (left - 1)))
      else some (s, .inl .connected)
  | .attempt left, .attempt .noPort => some (s, .inl (.loop left))
  | .attempt left, .attempt .refused => some ({ s with conn := none }, .inl (.loop left))
  | .attempt _, .attempt (.connected tor) =>
      some ({ s with conn := some { tor } }, .inl .connected)
  | .connected, .goes =>
      if s.conn.isSome then some (s, .inl .cookie) else some (s, .inr (some (-1)))
  | .cookie, .goes => some (s, .inl .authenticate)
  | .cookie, .fails => some ({ s with conn := none }, .inr (some (-1)))
  | .authenticate, .goes =>
      match s.conn with
      | none => some (s, .inr none)
      | some conn => some ({ s with conn := some conn.authenticate }, .inl .addEventHandler)
  | .addEventHandler, .goes =>
      match s.conn with
      | none => some (s, .inr none)
      | some conn => some ({ s with conn := some conn.setEventHandler }, .inl .setEvents)
  | .setEvents, .goes =>
      match s.conn with
      | none => some (s, .inr none)
      | some conn => some ({ s with conn := some conn.setEvents }, .inl .getInfo)
  | .getInfo, .torProcId torProcId =>
      if s.conn.isSome then some (s, .inr (some torProcId)) else some (s, .inr none)
  | .authenticate, .fails | .setEvents, .fails | .getInfo, .fails => some (s, .inr none)
  | _, _ => none

def routerStep (s : Threads) (i : Nat) : RouterPc → Input → Option (Threads × RouterPc)
  | .awaitConfig, .goes =>
      if s.isTorUpgradeAndConfigComplete then some (s, .checkStopping) else none
  | .checkStopping, .goes =>
      some (s, if s.service.mCurrentStatus = .stopping then .done else .checkOn)
  | .checkOn, .goes => some (s, if s.service.mCurrentStatus = .on then .done else .setStarting)
  | .setStarting, .goes =>
      some ({ s with service := sendCallbackStatus .starting s.service }, .updateConfig)
  | .updateConfig, .goes => some (s, .verify)
  | .updateConfig, .fails => some (s, .done)
  | .verify, .exec outcome =>
      let (exitCode, service) := exec outcome s.service
      some ({ s with service }, if exitCode = some 0 then .launch else .done)
  | .launch, .goes =>
      if s.service.shellClosed then some (s, .done)
      else some ({ s with commands := s.commands ++ [i] }, .waitForLaunch)
  | .waitForLaunch, .exec .timedOut =>
      some ({ s with service := { s.service with shellClosed := true } }, .done)
  | .launched exitCode, .goes =>
      some (s, if exitCode = 0 then .control (.loop 100) else .done)
  | .launched _, .fails => some (s, .done)
  | .control pc, input =>
      match controlStep s.service pc input with
      | none => none
      | some (service, .inl pc) => some ({ s with service }, .control pc)
      | some (service, .inr none) => some ({ s with service }, .done)
      | some (service, .inr (some mLastProcessId)) =>
          some ({ s with service := { service with mLastProcessId } }, .done)
  | _, _ => none

def workerStep (s : Threads) : WorkerPc → Input → Option (Threads × WorkerPc)
  | .upgradeAndConfig, .goes =>
      some ({ s with isTorUpgradeAndConfigComplete := true }, .control (.loop 3))
  | .upgradeAndConfig, .fails => some (s, .done)
  | .control pc, input =>
      match controlStep s.service pc input with
      | none => none
      | some (service, .inl pc) => some ({ s with service }, .control pc)
      | some (service, .inr none) => some ({ s with service }, .done)
      | some (service, .inr (some mLastProcessId)) =>
          some ({ s with service := { service with mLastProcessId } },
            if mLastProcessId = -1 then .done else .checkConn)
  | .checkConn, .goes => some (s, if s.service.conn.isSome then .setOn else .done)
  | .setOn, .goes => some ({ s with service := sendCallbackStatus .on s.service }, .done)
  | _, _ => none

def stopStep (s : Threads) (halted : Bool) : StopPc → Option (Threads × StopPc)
  | .notCalled => none
  | .setStopping =>
      some ({ s with service := sendCallbackStatus .stopping s.service }, .killAllDaemons)
  | .killAllDaemons => some ({ s with service := killAllDaemons halted s.service }, .setOff)
  | .setOff => some ({ s with service := sendCallbackStatus .off s.service }, .done)
  | .done => none

inductive Action where
  | onStartCommand
  | onDestroy
  | closeShell
  | router (i : Nat) (input : Input)
  | worker (input : Input)
  | stop (halted : Bool)
  /-- the shell runs the first command it has taken -/
  | runCommand (exitCode : Int)
  | circuitBuilt
  | torExits (tor : Nat)
  deriving Repr, DecidableEq

/-- The router that waits for its command. -/
def RouterPc.exits (exitCode : Int) : RouterPc → RouterPc
  | .waitForLaunch => .launched exitCode
  | pc => pc

def step (s : Threads) : Action → Option Threads
  | .onStartCommand =>
      if s.stop = .notCalled then some { s with routers := s.routers ++ [.awaitConfig] } else none
  | .onDestroy => if s.stop = .notCalled then some { s with stop := .setStopping } else none
  | .closeShell =>
      if s.stop = .notCalled then none
      else some { s with service := { s.service with shellClosed := true } }
  | .router i input =>
      match s.routers[i]? with
      | none => none
      | some pc => (routerStep s i pc input).map fun next =>
          { next.1 with routers := next.1.routers.set i next.2 }
  | .worker input => (workerStep s s.worker input).map fun next => { next.1 with worker := next.2 }
  | .stop halted => (stopStep s halted s.stop).map fun next => { next.1 with stop := next.2 }
  | .runCommand exitCode =>
      match s.commands with
      | [] => none
      | i :: commands => some { s with
          service := launchTor (exitCode = 0) s.service
          routers := s.routers.modify i (·.exits exitCode)
          commands }
  | .circuitBuilt => some { s with service := circuitBuilt s.service }
  | .torExits tor => some { s with service := torExits tor s.service }

/-- Once Tor is stopped, no launched Tor runs. -/
def StoppedForGood (s : Threads) : Prop := s.stop = .done → s.service.running = []

/-! ## The condition -/

/-- The launch command is still ahead of the router. -/
def CanLaunch (s : Threads) : RouterPc → Prop
  | .awaitConfig => s.isTorUpgradeAndConfigComplete = true ∨ s.worker = .upgradeAndConfig
  | .checkStopping | .checkOn | .setStarting | .updateConfig | .verify | .launch => True
  | .waitForLaunch | .launched _ | .control _ | .done => False

/-- No launch command is going to be run. -/
structure NoLaunchAhead (s : Threads) : Prop where
  commands : s.commands = []
  routers : s.service.shellClosed = true ∨ ∀ pc ∈ s.routers, ¬ CanLaunch s pc

/-- HALT reaches every launched Tor. -/
def HaltsAll (s : TorService) (halted : Bool) : Prop :=
  ∀ tor ∈ s.running, halted = true ∧ ∃ conn ∈ s.conn, conn.tor = some tor

/-- When the daemons are killed, HALT reaches every launched Tor, and no launch
    command is going to be run. -/
def KillsAll (s : Threads) : Action → Prop
  | .stop halted => s.stop = .killAllDaemons → HaltsAll s.service halted ∧ NoLaunchAhead s
  | _ => True

instance (s : Threads) : (pc : RouterPc) → Decidable (CanLaunch s pc)
  | .awaitConfig => inferInstanceAs (Decidable (_ ∨ _))
  | .checkStopping | .checkOn | .setStarting | .updateConfig | .verify | .launch => .isTrue trivial
  | .waitForLaunch | .launched _ | .control _ | .done => .isFalse id

instance (s : Threads) : Decidable (NoLaunchAhead s) :=
  decidable_of_iff (s.commands = [] ∧
      (s.service.shellClosed = true ∨ ∀ pc ∈ s.routers, ¬ CanLaunch s pc))
    ⟨fun both => ⟨both.1, both.2⟩, fun ahead => ⟨ahead.commands, ahead.routers⟩⟩

instance (s : TorService) (halted : Bool) : Decidable (HaltsAll s halted) :=
  inferInstanceAs (Decidable (∀ tor ∈ s.running, halted = true ∧ ∃ conn ∈ s.conn, _))

instance (s : Threads) : (a : Action) → Decidable (KillsAll s a)
  | .stop halted => inferInstanceAs (Decidable (_ → HaltsAll s.service halted ∧ NoLaunchAhead s))
  | .onStartCommand | .onDestroy | .closeShell | .router _ _ | .worker _ | .runCommand _
  | .circuitBuilt | .torExits _ => .isTrue trivial

/-! ## What a step can do -/

/-- Only the worker decides how long a router waits for the configuration. -/
theorem CanLaunch.imp {s s' : Threads} {pc : RouterPc} (can : CanLaunch s' pc)
    (config : s'.isTorUpgradeAndConfigComplete = true ∨ s'.worker = .upgradeAndConfig →
      s.isTorUpgradeAndConfigComplete = true ∨ s.worker = .upgradeAndConfig) : CanLaunch s pc := by
  cases pc with
  | awaitConfig => exact config can
  | _ => exact can

/-- `initControlConnection` changes the connection only. -/
theorem controlStep_eq {s : TorService} {pc : ControlPc} {input : Input}
    {next : TorService × (ControlPc ⊕ Option Int)} (taken : controlStep s pc input = some next) :
    ∃ conn, next.1 = { s with conn } := by
  unfold controlStep at taken
  split at taken
  case h_1 | h_5 | h_11 => split_ifs at taken <;> exact ⟨_, by rw [← Option.some.inj taken]⟩
  case h_8 | h_9 | h_10 => split at taken <;> exact ⟨_, by rw [← Option.some.inj taken]⟩
  case h_15 => cases taken
  all_goals exact ⟨_, by rw [← Option.some.inj taken]⟩

theorem exec_frame (outcome : Exec) (s : TorService) :
    (exec outcome s).2.running = s.running ∧
      (s.shellClosed = true → (exec outcome s).2.shellClosed = true) := by
  unfold exec
  split_ifs with closed
  · exact ⟨rfl, id⟩
  · cases outcome with
    | exited | brokenBusybox => exact ⟨rfl, id⟩
    | timedOut => exact ⟨rfl, fun _ => rfl⟩

/-- A step of a router. Only the step that hands in the launch command adds one. -/
structure RouterMoves (s : Threads) (pc : RouterPc) (next : Threads × RouterPc) : Prop where
  frame : ∃ service commands, next.1 = { s with service, commands }
  running : next.1.service.running = s.service.running
  closed : s.service.shellClosed = true → next.1.service.shellClosed = true
  commands : s.service.shellClosed = true ∨ ¬ CanLaunch s pc → next.1.commands = s.commands
  behind : ¬ CanLaunch s pc → ¬ CanLaunch s next.2

theorem RouterMoves.stay {s : Threads} {pc pc' : RouterPc}
    (behind : ¬ CanLaunch s pc → ¬ CanLaunch s pc') : RouterMoves s pc (s, pc') :=
  ⟨⟨_, _, rfl⟩, rfl, id, fun _ => rfl, behind⟩

theorem RouterMoves.control {s : Threads} {pc : ControlPc} {input : Input} {pc' : RouterPc}
    {next : TorService × (ControlPc ⊕ Option Int)}
    (taken : controlStep s.service pc input = some next) (mLastProcessId : Int)
    (behind : ¬ CanLaunch s pc') :
    RouterMoves s (.control pc) ({ s with service := { next.1 with mLastProcessId } }, pc') := by
  obtain ⟨conn, same⟩ := controlStep_eq taken
  rw [same]
  exact ⟨⟨_, _, rfl⟩, rfl, id, fun _ => rfl, fun _ => behind⟩

theorem routerMoves_of_step {s : Threads} {i : Nat} {pc : RouterPc} {input : Input}
    {next : Threads × RouterPc} (taken : routerStep s i pc input = some next) :
    RouterMoves s pc next := by
  cases pc with
  | awaitConfig =>
      cases input with
      | goes =>
          simp only [routerStep, Option.ite_none_right_eq_some, Option.some.injEq] at taken
          rw [← taken.2]
          exact .stay fun waits => absurd (.inl taken.1) waits
      | _ => cases taken
  | checkStopping | checkOn | setStarting =>
      cases input with
      | goes =>
          rw [← Option.some.inj taken]
          exact ⟨⟨_, _, rfl⟩, rfl, id, fun _ => rfl, fun behind => absurd trivial behind⟩
      | _ => cases taken
  | updateConfig =>
      cases input with
      | goes | fails =>
          rw [← Option.some.inj taken]
          exact .stay fun behind => absurd trivial behind
      | _ => cases taken
  | verify =>
      cases input with
      | exec outcome =>
          obtain ⟨running, closed⟩ := exec_frame outcome s.service
          rw [← Option.some.inj taken]
          exact ⟨⟨_, _, rfl⟩, running, closed, fun _ => rfl, fun behind => absurd trivial behind⟩
      | _ => cases taken
  | launch =>
      cases input with
      | goes =>
          simp only [routerStep] at taken
          split_ifs at taken with closed
          · rw [← Option.some.inj taken]
            exact .stay fun behind => absurd trivial behind
          · rw [← Option.some.inj taken]
            refine ⟨⟨_, _, rfl⟩, rfl, id, fun quiet => ?_, fun behind => absurd trivial behind⟩
            exact absurd quiet (not_or.mpr ⟨closed, not_not.mpr trivial⟩)
      | _ => cases taken
  | waitForLaunch =>
      cases input with
      | exec outcome =>
          cases outcome with
          | timedOut =>
              rw [← Option.some.inj taken]
              exact ⟨⟨_, _, rfl⟩, rfl, fun _ => rfl, fun _ => rfl, fun _ => id⟩
          | _ => cases taken
      | _ => cases taken
  | launched exitCode =>
      cases input with
      | goes =>
          rw [← Option.some.inj taken]
          refine .stay fun _ => ?_
          split_ifs <;> exact id
      | fails =>
          rw [← Option.some.inj taken]
          exact .stay fun _ => id
      | _ => cases taken
  | control pc =>
      simp only [routerStep] at taken
      split at taken
      next => cases taken
      all_goals
        rename_i moved
        rw [← Option.some.inj taken]
        exact .control moved _ id
  | done => cases input <;> cases taken

/-- A step of the worker, which neither runs nor hands in a launch command. -/
structure WorkerMoves (s : Threads) (pc : WorkerPc) (next : Threads × WorkerPc) : Prop where
  frame : ∃ service isTorUpgradeAndConfigComplete,
    next.1 = { s with service, isTorUpgradeAndConfigComplete }
  running : next.1.service.running = s.service.running
  closed : next.1.service.shellClosed = s.service.shellClosed
  config : next.1.isTorUpgradeAndConfigComplete = true →
    s.isTorUpgradeAndConfigComplete = true ∨ pc = .upgradeAndConfig
  later : next.2 ≠ .upgradeAndConfig

theorem workerMoves_of_step {s : Threads} {pc : WorkerPc} {input : Input}
    {next : Threads × WorkerPc} (taken : workerStep s pc input = some next) :
    WorkerMoves s pc next := by
  cases pc with
  | upgradeAndConfig =>
      cases input with
      | goes | fails =>
          rw [← Option.some.inj taken]
          exact ⟨⟨_, _, rfl⟩, rfl, rfl, fun _ => .inr rfl, nofun⟩
      | _ => cases taken
  | control pc =>
      simp only [workerStep] at taken
      split at taken
      next => cases taken
      all_goals
        rename_i moved
        obtain ⟨conn, same⟩ := controlStep_eq moved
        rw [← Option.some.inj taken]
        simp only at same
        refine ⟨⟨_, _, rfl⟩, by rw [same], by rw [same], .inl, ?_⟩
      · exact nofun
      · exact nofun
      · split_ifs <;> exact nofun
  | checkConn =>
      cases input with
      | goes =>
          rw [← Option.some.inj taken]
          refine ⟨⟨_, _, rfl⟩, rfl, rfl, .inl, ?_⟩
          split_ifs <;> exact nofun
      | _ => cases taken
  | setOn =>
      cases input with
      | goes =>
          rw [← Option.some.inj taken]
          exact ⟨⟨_, _, rfl⟩, rfl, rfl, .inl, nofun⟩
      | _ => cases taken
  | done => cases input <;> cases taken

theorem killAllDaemons_running (halted : Bool) (s : TorService) :
    (killAllDaemons halted s).running = [] ↔ HaltsAll s halted := by
  rw [killAllDaemons_eq]
  simp only [List.filter_eq_nil_iff, HaltsAll]
  apply forall₂_congr
  intro tor _
  cases s.conn <;> simp

/-! ## After the daemons were killed -/

/-- No launched Tor runs, and none is going to. -/
structure Silent (s : Threads) : Prop where
  running : s.service.running = []
  ahead : NoLaunchAhead s

namespace Silent

variable {s s' : Threads}

theorem of_frame (silent : Silent s) (running : s'.service.running = s.service.running)
    (closed : s.service.shellClosed = true → s'.service.shellClosed = true)
    (commands : s'.commands = s.commands)
    (routers : (∃ pc ∈ s'.routers, CanLaunch s' pc) → ∃ pc ∈ s.routers, CanLaunch s pc) :
    Silent s' where
  running := running.trans silent.running
  ahead.commands := commands.trans silent.ahead.commands
  ahead.routers := silent.ahead.routers.imp closed fun none pc member can => by
    obtain ⟨pc', member', can'⟩ := routers ⟨pc, member, can⟩
    exact none pc' member' can'

theorem of_service (silent : Silent s) (service : TorService) (stop : StopPc)
    (running : service.running = [])
    (closed : s.service.shellClosed = true → service.shellClosed = true) :
    Silent { s with service, stop } :=
  silent.of_frame (running.trans silent.running.symm) closed rfl
    fun ⟨pc, member, can⟩ => ⟨pc, member, can.imp id⟩

theorem router (silent : Silent s) {i : Nat} {pc : RouterPc} {next : Threads × RouterPc}
    (there : s.routers[i]? = some pc) (moves : RouterMoves s pc next) :
    Silent { next.1 with routers := next.1.routers.set i next.2 } := by
  have member : pc ∈ s.routers := List.mem_of_getElem? there
  have quiet := moves.commands (silent.ahead.routers.imp_right fun none => none pc member)
  obtain ⟨after, pc'⟩ := next
  obtain ⟨service, rest, rfl⟩ := moves.frame
  refine silent.of_frame moves.running moves.closed quiet ?_
  rintro ⟨other, member', can⟩
  have can : CanLaunch s other := can.imp id
  rcases List.mem_or_eq_of_mem_set member' with member' | rfl
  · exact ⟨other, member', can⟩
  · exact ⟨pc, member, not_not.mp fun cannot => moves.behind cannot can⟩

theorem worker (silent : Silent s) {next : Threads × WorkerPc}
    (moves : WorkerMoves s s.worker next) : Silent { next.1 with worker := next.2 } := by
  obtain ⟨after, pc'⟩ := next
  obtain ⟨service, rest, rfl⟩ := moves.frame
  refine silent.of_frame moves.running (moves.closed.trans ·) rfl ?_
  rintro ⟨pc, member, can⟩
  refine ⟨pc, member, can.imp fun waits => ?_⟩
  exact waits.elim moves.config fun later => absurd later moves.later

theorem step (silent : Silent s) (called : s.stop ≠ .notCalled) {a : Action}
    (taken : Lifecycle.step s a = some s') : Silent s' := by
  cases a with
  | onStartCommand | onDestroy =>
      simp only [Lifecycle.step, if_neg called] at taken
      cases taken
  | closeShell =>
      simp only [Lifecycle.step, if_neg called, Option.some.injEq] at taken
      rw [← taken]
      exact silent.of_service _ _ silent.running fun _ => rfl
  | router i input =>
      simp only [Lifecycle.step] at taken
      split at taken
      next => cases taken
      next pc there =>
        obtain ⟨next, moved, rfl⟩ := Option.map_eq_some_iff.mp taken
        exact silent.router there (routerMoves_of_step moved)
  | worker input =>
      obtain ⟨next, moved, rfl⟩ := Option.map_eq_some_iff.mp taken
      exact silent.worker (workerMoves_of_step moved)
  | stop halted =>
      simp only [Lifecycle.step] at taken
      cases at_ : s.stop with
      | notCalled => exact absurd at_ called
      | done =>
          rw [at_] at taken
          cases taken
      | setStopping | setOff =>
          rw [at_] at taken
          rw [← Option.some.inj taken]
          exact silent.of_service _ _ silent.running id
      | killAllDaemons =>
          rw [at_] at taken
          rw [← Option.some.inj taken]
          refine silent.of_service _ _ ?_ fun closed => ?_
          · apply (killAllDaemons_running halted s.service).mpr
            intro tor member
            simp [silent.running] at member
          · rw [killAllDaemons_eq]
            exact closed
  | runCommand exitCode =>
      simp only [Lifecycle.step, silent.ahead.commands] at taken
      cases taken
  | circuitBuilt =>
      rw [← Option.some.inj taken, circuitBuilt]
      split_ifs
      · exact silent.of_service _ s.stop silent.running id
      · exact silent
  | torExits tor =>
      rw [← Option.some.inj taken]
      refine silent.of_service (torExits tor s.service) s.stop ?_ id
      simp [torExits, silent.running]

end Silent

/-- The daemons have been killed. -/
def Threads.Killed (s : Threads) : Prop := s.stop = .setOff ∨ s.stop = .done

/-- Only `onDestroy` and the thread it starts move the stop on. -/
theorem stop_of_step {s s' : Threads} {a : Action} (taken : step s a = some s') :
    s'.stop = s.stop ∨ s'.stop = .setStopping ∨
      ∃ halted next, a = .stop halted ∧ stopStep s halted s.stop = some next ∧
        s'.stop = next.2 := by
  cases a with
  | onStartCommand | closeShell =>
      simp only [step] at taken
      split_ifs at taken
      exact .inl (congrArg Threads.stop (Option.some.inj taken)).symm
  | onDestroy =>
      simp only [step] at taken
      split_ifs at taken
      exact .inr (.inl (congrArg Threads.stop (Option.some.inj taken)).symm)
  | router i input =>
      simp only [step] at taken
      split at taken
      next => cases taken
      next pc there =>
        obtain ⟨⟨after, pc'⟩, moved, rfl⟩ := Option.map_eq_some_iff.mp taken
        obtain ⟨service, commands, rfl⟩ := (routerMoves_of_step moved).frame
        exact .inl rfl
  | worker input =>
      obtain ⟨⟨after, pc'⟩, moved, rfl⟩ := Option.map_eq_some_iff.mp taken
      obtain ⟨service, config, rfl⟩ := (workerMoves_of_step moved).frame
      exact .inl rfl
  | stop halted =>
      obtain ⟨next, moved, rfl⟩ := Option.map_eq_some_iff.mp taken
      exact .inr (.inr ⟨halted, next, rfl, moved, rfl⟩)
  | runCommand exitCode =>
      simp only [step] at taken
      split at taken
      next => cases taken
      next => exact .inl (congrArg Threads.stop (Option.some.inj taken)).symm
  | circuitBuilt | torExits =>
      exact .inl (congrArg Threads.stop (Option.some.inj taken)).symm

/-- The daemons are killed by the step that kills them. -/
theorem killed_of_step {s s' : Threads} {a : Action} (taken : step s a = some s')
    (killed : s'.Killed) : s.Killed ∨ ∃ halted, a = .stop halted ∧ s.stop = .killAllDaemons := by
  unfold Threads.Killed at killed
  rcases stop_of_step taken with same | setStopping | ⟨halted, next, rfl, moved, same⟩
  · rw [same] at killed
    exact .inl killed
  · rw [setStopping] at killed
    exact killed.elim nofun nofun
  · cases before : s.stop with
    | setOff => exact .inl (.inl before)
    | done => exact .inl (.inr before)
    | killAllDaemons => exact .inr ⟨halted, rfl, rfl⟩
    | notCalled =>
        rw [before] at moved
        cases moved
    | setStopping =>
        rw [before] at moved
        rw [same, ← Option.some.inj moved] at killed
        exact killed.elim nofun nofun

theorem called_of_step {s s' : Threads} {a : Action} (taken : step s a = some s')
    (called : s.stop ≠ .notCalled) : s'.stop ≠ .notCalled := by
  rcases stop_of_step taken with same | setStopping | ⟨halted, next, rfl, moved, same⟩
  · rwa [same]
  · rw [setStopping]
    exact nofun
  · rw [same]
    cases before : s.stop with
    | notCalled => exact absurd before called
    | done =>
        rw [before] at moved
        cases moved
    | setStopping | killAllDaemons | setOff =>
        rw [before] at moved
        rw [← Option.some.inj moved]
        exact nofun

theorem silent_of_kill {s s' : Threads} {halted : Bool} (kills : KillsAll s (.stop halted))
    (kill : s.stop = .killAllDaemons) (taken : step s (.stop halted) = some s') : Silent s' := by
  obtain ⟨halts, ahead⟩ := kills kill
  simp only [step, kill] at taken
  rw [← Option.some.inj taken]
  refine ⟨(killAllDaemons_running halted s.service).mpr halts, ahead.commands, ?_⟩
  refine ahead.routers.imp (fun closed => ?_) fun none pc member can => none pc member (can.imp id)
  simp only [killAllDaemons_eq]
  exact closed

theorem silent_of_reaches {s : Threads} (reached : Reaches step KillsAll {} s) (killed : s.Killed) :
    Silent s := by
  induction reached with
  | here => exact killed.elim nofun nofun
  | next _ kills taken ih =>
      rcases killed_of_step taken killed with before | ⟨halted, rfl, kill⟩
      · refine (ih before).step (fun notCalled => ?_) taken
        exact before.elim (nomatch notCalled.symm.trans ·) (nomatch notCalled.symm.trans ·)
      · exact silent_of_kill kills kill taken

/-- If, when the daemons are killed, HALT reaches every launched Tor and no launch
    command is going to be run, then no launched Tor runs once Tor is stopped. -/
theorem stopped_for_good {s : Threads} (reached : Reaches step KillsAll {} s) : StoppedForGood s :=
  fun done => (silent_of_reaches reached (.inr done)).running

/-- A start that gets as far as the launch of its Tor. -/
def launching : List Action :=
  [.onStartCommand, .worker .goes, .router 0 .goes, .router 0 .goes, .router 0 .goes,
    .router 0 .goes, .router 0 .goes, .router 0 (.exec (.exited 0)), .router 0 .goes, .runCommand 0]

/-- The rest of it, up to the first built circuit. -/
def connecting : List Action :=
  [.router 0 .goes, .router 0 .goes, .router 0 (.attempt (.connected (some 0))), .router 0 .goes,
    .router 0 .goes, .router 0 .goes, .router 0 .goes, .router 0 .goes, .router 0 (.torProcId 4711),
    .circuitBuilt]

def stopping : List Action := [.onDestroy, .closeShell, .stop true, .stop true, .stop true]

/-- Tor is on before it is stopped. -/
theorem stopped_for_good_on : ∃ s, Reaches step KillsAll {} s ∧ StoppedForGood s ∧
    s.stop = .done ∧ s.service.launches.length = 1 := by
  have reached : Reaches step KillsAll {} _ := reaches_of_run
    (launching ++ connecting ++ stopping) rfl
  exact ⟨_, reached, stopped_for_good reached, rfl, rfl⟩

/-- Tor is stopped before there is a connection. -/
theorem not_stopped : ∃ s, Reachable step {} s ∧ ¬ StoppedForGood s := by
  have reached : Reachable step {} _ := reachable_of_run (launching ++ stopping) rfl
  exact ⟨_, reached, fun good => nomatch good rfl⟩

/-! ## Nothing less is enough -/

/-- Some way to go on leaves a launched Tor running behind the stop. -/
def Leaves (s : Threads) : Prop := ∃ later, Reachable step s later ∧ ¬ StoppedForGood later

section Leaves

variable {s s' : Threads}

theorem Leaves.of_step {a : Action} (taken : step s a = some s') (leaves : Leaves s') :
    Leaves s := by
  obtain ⟨later, after, bad⟩ := leaves
  exact ⟨later, (Reaches.here.next trivial taken).trans after, bad⟩

theorem step_router {i : Nat} {pc : RouterPc} {input : Input} {next : Threads × RouterPc}
    (there : s.routers[i]? = some pc) (moved : routerStep s i pc input = some next) :
    step s (.router i input) = some { next.1 with routers := next.1.routers.set i next.2 } := by
  simp only [step, there, moved, Option.map_some]

theorem leaves_of_running (done : s.stop = .done) (running : s.service.running ≠ []) : Leaves s :=
  ⟨s, .here, fun good => running (good done)⟩

theorem leaves_of_commands (done : s.stop = .done) (commands : s.commands ≠ []) : Leaves s := by
  obtain ⟨i, rest, queue⟩ := List.exists_cons_of_ne_nil commands
  have taken : step s (.runCommand 0) = some { s with
      service := launchTor true s.service
      routers := s.routers.modify i (·.exits 0)
      commands := rest } := by
    simp only [step, queue]
    rfl
  exact .of_step taken (leaves_of_running done (by simp [launchTor]))

/-- The stop is over, the shell is open, and a router has come this far. -/
structure Pending (s : Threads) (i : Nat) (pc : RouterPc) : Prop where
  done : s.stop = .done
  shell : s.service.shellClosed = false
  there : s.routers[i]? = some pc

variable {i : Nat} {pc pc' : RouterPc} {input : Input}

/-- A step of the router that leaves the shell open. -/
theorem Pending.move (pending : Pending s i pc) (service : TorService)
    (moved : routerStep s i pc input = some ({ s with service }, pc'))
    (shell : service.shellClosed = false)
    (leaves : Pending { s with service, routers := s.routers.set i pc' } i pc' →
      Leaves { s with service, routers := s.routers.set i pc' }) : Leaves s := by
  refine .of_step (step_router pending.there moved) (leaves ⟨pending.done, shell, ?_⟩)
  obtain ⟨inside, _⟩ := List.getElem?_eq_some_iff.mp pending.there
  exact List.getElem?_set_self inside

theorem leaves_of_launch (pending : Pending s i .launch) : Leaves s := by
  have moved : routerStep s i .launch .goes =
      some ({ s with commands := s.commands ++ [i] }, .waitForLaunch) :=
    if_neg (by simp [pending.shell])
  exact .of_step (step_router pending.there moved) (leaves_of_commands pending.done (by simp))

theorem leaves_of_verify (pending : Pending s i .verify) : Leaves s := by
  have moved : routerStep s i .verify (.exec (.exited 0)) = some (s, .launch) := by
    simp only [routerStep, exec_exited pending.shell, if_true]
  exact pending.move s.service moved pending.shell leaves_of_launch

theorem leaves_of_updateConfig (pending : Pending s i .updateConfig) : Leaves s := by
  have moved : routerStep s i .updateConfig .goes = some (s, .verify) := rfl
  exact pending.move s.service moved pending.shell leaves_of_verify

theorem leaves_of_setStarting (pending : Pending s i .setStarting) : Leaves s := by
  have moved : routerStep s i .setStarting .goes =
      some ({ s with service := sendCallbackStatus .starting s.service }, .updateConfig) := rfl
  exact pending.move _ moved pending.shell leaves_of_updateConfig

theorem leaves_of_checkOn (pending : Pending s i .checkOn) (off : s.service.mCurrentStatus = .off) :
    Leaves s := by
  have moved : routerStep s i .checkOn .goes = some (s, .setStarting) := by
    simp [routerStep, off]
  exact pending.move s.service moved pending.shell leaves_of_setStarting

theorem leaves_of_checkStopping (pending : Pending s i .checkStopping)
    (off : s.service.mCurrentStatus = .off) : Leaves s := by
  have moved : routerStep s i .checkStopping .goes = some (s, .checkOn) := by
    simp [routerStep, off]
  exact pending.move s.service moved pending.shell (leaves_of_checkOn · off)

theorem leaves_of_awaitConfig (pending : Pending s i .awaitConfig)
    (off : s.service.mCurrentStatus = .off) (config : s.isTorUpgradeAndConfigComplete = true) :
    Leaves s := by
  have moved : routerStep s i .awaitConfig .goes = some (s, .checkStopping) := if_pos config
  exact pending.move s.service moved pending.shell (leaves_of_checkStopping · off)

/-- The launch command that is ahead of a router is run. -/
theorem leaves_of_canLaunch (pending : Pending s i pc) (off : s.service.mCurrentStatus = .off)
    (can : CanLaunch s pc) : Leaves s := by
  cases pc with
  | awaitConfig =>
      rcases can with config | upgrading
      · exact leaves_of_awaitConfig pending off config
      · have taken : step s (.worker .goes) = some { s with
            isTorUpgradeAndConfigComplete := true
            worker := .control (.loop 3) } := by
          simp only [step, upgrading]
          rfl
        have after := leaves_of_awaitConfig (s := { s with
          isTorUpgradeAndConfigComplete := true
          worker := .control (.loop 3) }) ⟨pending.done, pending.shell, pending.there⟩ off rfl
        exact .of_step taken after
  | checkStopping => exact leaves_of_checkStopping pending off
  | checkOn => exact leaves_of_checkOn pending off
  | setStarting => exact leaves_of_setStarting pending
  | updateConfig => exact leaves_of_updateConfig pending
  | verify => exact leaves_of_verify pending
  | launch => exact leaves_of_launch pending
  | waitForLaunch | launched | control | done => exact absurd can id

end Leaves

/-- However a run led to it: the kill after which no launched Tor ever runs behind
    the stop is the one that meets the condition. -/
theorem stopped_for_good_iff {s s' : Threads} {halted : Bool} (kill : s.stop = .killAllDaemons)
    (taken : step s (.stop halted) = some s') :
    (∀ later, Reachable step s' later → StoppedForGood later) ↔
      HaltsAll s.service halted ∧ NoLaunchAhead s := by
  constructor
  · intro always
    have stays : ¬ Leaves s' := fun leaves => by
      obtain ⟨later, after, bad⟩ := leaves
      exact bad (always later after)
    have off : step s' (.stop halted) = some { s with
        service := sendCallbackStatus .off (killAllDaemons halted s.service)
        stop := .done } := by
      simp only [step, kill] at taken
      rw [← Option.some.inj taken]
      rfl
    have stays := fun leaves => stays (Leaves.of_step off leaves)
    refine ⟨?_, ?_, ?_⟩
    · apply (killAllDaemons_running halted s.service).mp
      by_contra running
      exact stays (leaves_of_running rfl running)
    · by_contra commands
      exact stays (leaves_of_commands rfl commands)
    · by_contra ahead
      obtain ⟨shell, ahead⟩ := not_or.mp ahead
      push Not at ahead
      obtain ⟨pc, member, can⟩ := ahead
      obtain ⟨i, there⟩ := List.getElem?_of_mem member
      refine stays (leaves_of_canLaunch ⟨rfl, ?_, there⟩ rfl (can.imp id))
      simp only [sendCallbackStatus, killAllDaemons_eq]
      exact eq_false_of_ne_true shell
  · rintro ⟨halts, ahead⟩ later after
    have silent := silent_of_kill (fun _ => ⟨halts, ahead⟩) kill taken
    have called := called_of_step taken (by simp [kill])
    have kept : Silent later ∧ later.stop ≠ .notCalled := by
      induction after with
      | here => exact ⟨silent, called⟩
      | next _ _ taken ih => exact ⟨ih.1.step ih.2 taken, called_of_step taken ih.2⟩
    exact fun _ => kept.1.running

end Orbot.Lifecycle
