import Orbot.RootCommands.Attribution
import Orbot.TransProxy.ExitCodes

/-! # An operation on its shell

`TorTransProxy` has a shell of its own, and `executeCommand` adds a command and
waits for it. Between the threads of the shell an operation runs its commands
as it does in a `Session`, with the exit codes of its own scripts, until an
exception ends it.
-/

namespace Orbot.RootCommands

open Java (Text CharTables)
open Lib.Transition
open TransProxy (FinishedCommand ExitCodes Outcome)

/-! ## The thread of the operation -/

inductive ClientStage where
  | running
  /-- in `add`, which has found the shell open -/
  | adding (command : TransProxy.Command)
  /-- in `waitForFinish` of the i-th command -/
  | waiting (command : TransProxy.Command) (i : ℕ)
  /-- ended by an exception -/
  | failed
  deriving Repr, DecidableEq

structure Client where
  /-- the commands that the operation has yet to execute -/
  todo : List TransProxy.Command
  stage : ClientStage := .running
  executed : List FinishedCommand := []
  deriving Repr, DecidableEq

structure Operation where
  shell : Shell := {}
  client : Client
  deriving Repr, DecidableEq

inductive OperationAction where
  | shell (a : Action)
  | executeCommand
  | addToCommands
  | waitForFinish
  | timeout
  deriving Repr, DecidableEq

/-- The steps of others: nobody else adds commands, or waits for them. -/
def Action.Foreign : Action → Prop
  | .add _ | .addToCommands _ | .timeout _ => False
  | _ => True

instance : (a : Action) → Decidable a.Foreign
  | .add _ | .addToCommands _ | .timeout _ => .isFalse id
  | .closeShell | .writeCommand | .findNone | .writeExit | .writeFails | .execute | .print _ | .ends _
  | .echo | .exit | .dies | .readLine | .endOfFile | .waitFor | .terminate => .isTrue trivial

variable (tables : CharTables)

def operationStep (s : Operation) : OperationAction → Option Operation
  | .shell a =>
      if a.Foreign then (step tables s.shell a).map fun shell => { s with shell } else none
  | .executeCommand =>
      match s.client.stage, s.client.todo with
      | .running, command :: todo =>
          if s.shell.close then
            some { s with client := { s.client with todo, stage := .failed } }
          else
            (step tables s.shell (.add [command.text])).map fun shell =>
              { shell, client := { s.client with todo, stage := .adding command } }
      | _, _ => none
  | .addToCommands =>
      match s.client.stage with
      | .adding command =>
          (step tables s.shell (.addToCommands 0)).map fun shell =>
            { shell
              client := { s.client with stage := .waiting command s.shell.commands.length } }
      | _ => none
  | .waitForFinish =>
      match s.client.stage with
      | .waiting command i =>
          match s.shell.commands[i]?.bind Command.waitForFinish with
          | some (.exited exitCode) =>
              some { s with client := { s.client with
                stage := .running
                executed := s.client.executed ++ [⟨command, exitCode⟩] } }
          | some .brokenBusybox => some { s with client := { s.client with stage := .failed } }
          | none => none
      | _ => none
  | .timeout =>
      match s.client.stage with
      | .waiting _ i =>
          (step tables s.shell (.timeout i)).map fun shell =>
            { shell, client := { s.client with stage := .failed } }
      | _ => none

def QuietOperation (s : Operation) : OperationAction → Prop
  | .shell a => Quiet s.shell a
  | .executeCommand | .addToCommands | .waitForFinish | .timeout => True

/-! ## What is settled -/

theorem step_keeps {s s' : Shell} {a : Action} (foreign : a.Foreign)
    (taken : step tables s a = some s') :
    Keeps s.commands s.reader.commandIndex s'.commands s'.reader.commandIndex ∧
      s'.adding = s.adding := by
  cases a with
  | add | addToCommands | timeout => cases foreign
  | closeShell =>
      obtain rfl := Option.some.inj taken
      exact ⟨.refl _ _, rfl⟩
  | writeCommand | execute | echo | exit =>
      simp only [step] at taken
      split at taken
      · split_ifs at taken
        obtain rfl := Option.some.inj taken
        exact ⟨.refl _ _, rfl⟩
      · cases taken
  | findNone | writeExit | writeFails | print | ends | dies | endOfFile | waitFor =>
      simp only [step] at taken
      split_ifs at taken
      obtain rfl := Option.some.inj taken
      exact ⟨.refl _ _, rfl⟩
  | readLine =>
      simp only [step] at taken
      split_ifs at taken with reading
      split at taken
      next line available =>
        obtain rfl := Option.some.inj taken
        exact ⟨readOutput_keeps tables _ _ _ _, rfl⟩
      next => cases taken
  | terminate =>
      simp only [step] at taken
      split_ifs at taken with terminating left
      · obtain rfl := Option.some.inj taken
        exact ⟨.modify _ (Nat.le_succ _) (fun _ => rfl) (.inr (Nat.lt_succ_self _)), rfl⟩
      · obtain rfl := Option.some.inj taken
        exact ⟨.refl _ _, rfl⟩

/-! ## The operation -/

namespace ClientStage

/-- The command the operation is at. -/
def current : ClientStage → List TransProxy.Command
  | .adding command | .waiting command _ => [command]
  | .running | .failed => []

/-- What it has yet to add to the commands of the shell. -/
def entering : ClientStage → List Command
  | .adding command => [{ command := [command.text] }]
  | .running | .waiting _ _ | .failed => []

/-- What it has added and not yet logged. -/
def entered : ClientStage → List TransProxy.Command
  | .waiting command _ => [command]
  | .running | .adding _ | .failed => []

end ClientStage

/-- The commands of the shell. -/
def Client.added (client : Client) : List TransProxy.Command :=
  client.executed.map (·.command) ++ client.stage.entered

/-- What was logged is settled: the reader is past it, and will not change it. -/
structure Logged (shell : Shell) (executed : List FinishedCommand) : Prop where
  passed : executed.length ≤ shell.reader.commandIndex
  exits : ∀ (n : ℕ) (e : FinishedCommand), executed[n]? = some e →
    ∃ c : Command, shell.commands[n]? = some c ∧ c.finished = true ∧ c.exitCode = e.exitCode ∧
      c.command = [e.command.text]

/-- As long as no exception has ended it. -/
structure Proceeds (issued : List TransProxy.Command) (s : Operation) : Prop where
  issued : issued = s.client.executed.map (·.command) ++ s.client.stage.current ++ s.client.todo
  added : s.shell.commands.map (·.command) = s.client.added.map fun c => [c.text]
  adding : s.shell.adding = s.client.stage.entering
  position : ∀ command i, s.client.stage = .waiting command i → i = s.client.executed.length
  settled : ∀ i c, s.shell.commands[i]? = some c → c.finished = true →
    i < s.shell.reader.commandIndex

structure OperationInv (issued : List TransProxy.Command) (s : Operation) : Prop where
  inv : s.shell.Inv
  logged : Logged s.shell s.client.executed
  log : s.client.executed.map (·.command) <+: issued
  proceeds : s.client.stage ≠ .failed → Proceeds issued s

variable {tables} {issued : List TransProxy.Command} {s s' : Operation}

theorem operationInv_start : OperationInv issued { client := { todo := issued } } where
  inv := inv_start
  logged := ⟨le_rfl, by simp⟩
  log := List.nil_prefix
  proceeds _ :=
    { issued := rfl
      added := rfl
      adding := rfl
      position := by simp
      settled := by simp }

theorem Logged.keeps {shell shell' : Shell} {executed : List FinishedCommand}
    (logged : Logged shell executed)
    (keeps : Keeps shell.commands shell.reader.commandIndex shell'.commands
      shell'.reader.commandIndex) : Logged shell' executed := by
  refine ⟨logged.passed.trans keeps.index, fun n e found => ?_⟩
  have inside := (List.getElem?_eq_some_iff.mp found).1
  rw [keeps.same n (inside.trans_le logged.passed)]
  exact logged.exits n e found

/-- A step of another thread. -/
theorem operationInv_shell {shell : Shell} {a : Action} (kept : OperationInv issued s)
    (quiet : Quiet s.shell a) (foreign : a.Foreign) (taken : step tables s.shell a = some shell) :
    OperationInv issued { s with shell } := by
  obtain ⟨keeps, adding⟩ := step_keeps tables foreign taken
  refine ⟨inv_step tables a kept.inv quiet taken, kept.logged.keeps keeps, kept.log, ?_⟩
  intro going
  have proceeds := kept.proceeds going
  exact { proceeds with
    added := keeps.strings.trans proceeds.added
    adding := adding.trans proceeds.adding
    settled := keeps.settled proceeds.settled }

theorem waitForFinish_exited {c : Command} {exitCode : Int}
    (exited : c.waitForFinish = some (.exited exitCode)) :
    c.finished = true ∧ c.exitCode = exitCode := by
  unfold Command.waitForFinish at exited
  split_ifs at exited with unfinished broken
  · cases exited
  · exact ⟨by simpa using unfinished, Waited.exited.inj (Option.some.inj exited)⟩

theorem operationInv_step {a : OperationAction} (kept : OperationInv issued s)
    (quiet : QuietOperation s a) (taken : operationStep tables s a = some s') :
    OperationInv issued s' := by
  cases a with
  | shell a =>
      simp only [operationStep] at taken
      split_ifs at taken with foreign
      obtain ⟨shell, stepped, rfl⟩ := Option.map_eq_some_iff.mp taken
      exact operationInv_shell kept quiet foreign stepped
  | executeCommand =>
      simp only [operationStep] at taken
      split at taken
      next command todo running left =>
        have proceeds := kept.proceeds (by rw [running]; simp)
        split_ifs at taken with close
        · obtain rfl := Option.some.inj taken
          exact { kept with proceeds := fun going => absurd rfl going }
        · obtain ⟨shell, stepped, rfl⟩ := Option.map_eq_some_iff.mp taken
          have inv := inv_step tables (.add _) kept.inv trivial stepped
          simp only [step, close, Bool.false_eq_true, if_false] at stepped
          obtain rfl := Option.some.inj stepped
          refine ⟨inv, kept.logged.keeps (.refl _ _), kept.log, fun _ => ?_⟩
          constructor
          case issued =>
            rw [proceeds.issued, running, left]
            simp [ClientStage.current]
          case added =>
            have added := proceeds.added
            rw [Client.added, running] at added
            exact added
          case adding =>
            have adding := proceeds.adding
            rw [running] at adding
            show s.shell.adding ++ _ = _
            rw [adding]
            rfl
          case position => simp
          case settled => exact proceeds.settled
      next => cases taken
  | addToCommands =>
      simp only [operationStep] at taken
      split at taken
      next command adding =>
        have proceeds := kept.proceeds (by rw [adding]; simp)
        obtain ⟨shell, stepped, rfl⟩ := Option.map_eq_some_iff.mp taken
        have inv := inv_step tables (.addToCommands 0) kept.inv trivial stepped
        have entering := proceeds.adding
        rw [adding, ClientStage.entering] at entering
        simp only [step, entering, List.getElem?_cons_zero, Option.ite_none_right_eq_some] at stepped
        obtain rfl := Option.some.inj stepped.2
        have length : s.shell.commands.length = s.client.executed.length := by
          have added := congrArg List.length proceeds.added
          rw [Client.added, adding, List.length_map, List.length_map, List.length_append,
            List.length_map] at added
          exact added
        refine ⟨inv, ⟨kept.logged.passed, fun n e found => ?_⟩, kept.log, fun _ => ?_⟩
        · obtain ⟨c, there, rest⟩ := kept.logged.exits n e found
          exact ⟨c, List.getElem?_append_left (List.getElem?_eq_some_iff.mp there).1 ▸ there, rest⟩
        · constructor
          case issued =>
            rw [proceeds.issued, adding]
            rfl
          case added =>
            have added := proceeds.added
            rw [Client.added, adding, ClientStage.entered, List.append_nil] at added
            rw [List.map_append, added]
            simp [Client.added, ClientStage.entered]
          case adding => rfl
          case position =>
            rintro _ i same
            rw [← length]
            exact (ClientStage.waiting.inj same).2.symm
          case settled =>
            intro i c found finished
            rcases Nat.lt_or_ge i s.shell.commands.length with old | last
            · rw [List.getElem?_append_left old] at found
              exact proceeds.settled i c found finished
            · rw [List.getElem?_append_right last] at found
              rw [List.mem_singleton.mp (List.mem_of_getElem? found)] at finished
              cases finished
      next => cases taken
  | waitForFinish =>
      simp only [operationStep] at taken
      split at taken
      next command i waiting =>
        have proceeds := kept.proceeds (by rw [waiting]; simp)
        split at taken
        next exitCode ended =>
          obtain rfl := Option.some.inj taken
          obtain ⟨c, found, exited⟩ := Option.bind_eq_some_iff.mp ended
          obtain ⟨finished, rfl⟩ := waitForFinish_exited exited
          obtain rfl := proceeds.position command i waiting
          have text : c.command = [command.text] := by
            have same := congrArg (·[s.client.executed.length]?) proceeds.added
            simp only [Client.added, waiting, ClientStage.entered, List.map_append] at same
            rw [List.getElem?_map, found, List.getElem?_append_right (by simp)] at same
            simpa using same
          refine ⟨kept.inv, ⟨?_, fun n e logged => ?_⟩, ?_, fun _ => ?_⟩
          · rw [List.length_append]
            exact proceeds.settled _ c found finished
          · rcases Nat.lt_or_ge n s.client.executed.length with old | last
            · rw [List.getElem?_append_left old] at logged
              exact kept.logged.exits n e logged
            · have inside := (List.getElem?_eq_some_iff.mp logged).1
              rw [List.length_append, List.length_singleton] at inside
              obtain rfl : n = s.client.executed.length := by omega
              rw [List.getElem?_append_right le_rfl, Nat.sub_self] at logged
              obtain rfl := Option.some.inj logged
              exact ⟨c, found, finished, rfl, text⟩
          · rw [proceeds.issued, waiting, List.map_append]
            exact List.prefix_append _ _
          · constructor
            case issued =>
              rw [proceeds.issued, waiting]
              simp [ClientStage.current]
            case added =>
              rw [proceeds.added]
              simp [Client.added, waiting, ClientStage.entered]
            case adding =>
              rw [proceeds.adding, waiting]
              rfl
            case position => simp
            case settled => exact proceeds.settled
        next =>
          obtain rfl := Option.some.inj taken
          exact { kept with proceeds := fun going => absurd rfl going }
        next => cases taken
      next => cases taken
  | timeout =>
      simp only [operationStep] at taken
      split at taken
      next command i waiting =>
        have proceeds := kept.proceeds (by rw [waiting]; simp)
        obtain ⟨shell, stepped, rfl⟩ := Option.map_eq_some_iff.mp taken
        have inv := inv_step tables (.timeout i) kept.inv trivial stepped
        simp only [step] at stepped
        split at stepped
        next c found =>
          split_ifs at stepped
          obtain rfl := Option.some.inj stepped
          refine ⟨inv, ⟨kept.logged.passed, fun n e logged => ?_⟩, kept.log,
            fun going => absurd rfl going⟩
          have last := proceeds.position command i waiting
          have inside : n < s.client.executed.length := (List.getElem?_eq_some_iff.mp logged).1
          have other : i ≠ n := by omega
          obtain ⟨c, there, rest⟩ := kept.logged.exits n e logged
          exact ⟨c, by simpa [other] using there, rest⟩
        next => cases stepped
      next => cases taken

/-- A log with these exit codes. -/
theorem eq_stamp {exits : ExitCodes} {executed : List FinishedCommand} {m : ℕ}
    (codes : ∀ n e, executed[n]? = some e → e.exitCode = exits (m + n)) :
    executed = TransProxy.Session.stamp exits m (executed.map (·.command)) := by
  induction executed generalizing m with
  | nil => rfl
  | cons e rest ih =>
      have first : e.exitCode = exits m := codes 0 e rfl
      have others := ih (m := m + 1) fun n e' found => by
        rw [Nat.add_assoc, Nat.add_comm 1 n]
        exact codes (n + 1) e' found
      rw [List.map_cons, TransProxy.Session.stamp, ← others, ← first]

/-- However the threads take turns: what the operation has logged at any time is
    what a `Session` logs for its first commands, with exit codes that are those
    of its own scripts, or -1; and when no exception has ended the operation and
    nothing is left, its log is that of the whole `Session`. -/
theorem operation_runs_session {outcome : Outcome} {s : Operation}
    (reached : Reaches (operationStep tables) QuietOperation { client := { todo := outcome.issued } } s)
    (proxy : TransProxy.TorTransProxy) :
    ∃ exits : ExitCodes,
      (∀ n < s.client.executed.length, exits n = -1 ∨
        ∃ f command, s.shell.scripts[n]? = some f ∧ outcome.issued[n]? = some command ∧
          f.command = [command.text] ∧ exits n = f.status) ∧
      s.client.executed =
        (TransProxy.Session.ran exits { proxy } outcome).2.executed.take s.client.executed.length ∧
      (s.client.stage = .running → s.client.todo = [] →
        s.client.executed = (TransProxy.Session.ran exits { proxy } outcome).2.executed) := by
  have kept : OperationInv outcome.issued s :=
    reached.invariant operationInv_start fun _ _ _ kept quiet taken =>
      operationInv_step kept quiet taken
  let exits : ExitCodes := fun n => (s.shell.commands[n]?.map Command.exitCode).getD 0
  have exits_eq {n : ℕ} {c : Command} (there : s.shell.commands[n]? = some c) :
      exits n = c.exitCode := by
    show (s.shell.commands[n]?.map Command.exitCode).getD 0 = _
    rw [there]
    rfl
  obtain ⟨rest, issued⟩ := kept.log
  have log : s.client.executed = TransProxy.Session.stamp exits 0 (s.client.executed.map (·.command)) := by
    refine eq_stamp fun n e found => ?_
    obtain ⟨c, there, -, code, -⟩ := kept.logged.exits n e found
    rw [Nat.zero_add, exits_eq there, code]
  have session : (TransProxy.Session.ran exits { proxy } outcome).2.executed =
      s.client.executed ++ TransProxy.Session.stamp exits s.client.executed.length rest := by
    rw [TransProxy.Session.ran, List.nil_append, List.length_nil, ← issued,
      TransProxy.Session.stamp_append, ← log, Nat.zero_add, List.length_map]
  refine ⟨exits, fun n inside => ?_, ?_, fun running none => ?_⟩
  · have found : s.client.executed[n]? = some s.client.executed[n] := List.getElem?_eq_getElem inside
    obtain ⟨c, there, finished, -, text⟩ := kept.logged.exits n _ found
    rcases kept.inv.exitCode_cases there finished with ⟨f, ran, rfl⟩ | negative
    · refine .inr ⟨f, s.client.executed[n].command, ran, ?_, ?_, exits_eq there⟩
      · rw [← issued, List.getElem?_append_left (by rwa [List.length_map]), List.getElem?_map, found]
        rfl
      · rw [← Shell.command_eq kept.inv.piped ran there, text]
    · exact .inl ((exits_eq there).trans negative)
  · rw [session, List.take_left]
  · have proceeds := kept.proceeds (by rw [running]; simp)
    have all := proceeds.issued
    rw [running, none, ClientStage.current, List.append_nil, List.append_nil, ← issued] at all
    rw [session, List.append_cancel_left (all.trans (List.append_nil _).symm)]
    exact (List.append_nil _).symm

instance (s : Operation) : (a : OperationAction) → Decidable (QuietOperation s a)
  | .shell a => inferInstanceAs (Decidable (Quiet s.shell a))
  | .executeCommand | .addToCommands | .waitForFinish | .timeout => .isTrue trivial

def deviceWithIp6tables : TransProxy.Device where
  fileExists path := path = TransProxy.systemBinIp6tables
  useSystemIpTables := true
  fileXtables := "xtables".toList
  torUid := 10100

/-- The command fails, and is logged all the same. -/
def failedRule : List OperationAction :=
  [.executeCommand, .addToCommands, .shell .writeCommand, .shell .execute,
    .shell (.print "no chain\n".toList), .shell (.ends 1), .shell .readLine, .shell .echo,
    .shell .readLine, .waitForFinish]

def dropRule : Outcome := TransProxy.dropAllIPv6Traffic deviceWithIp6tables {} (-1) true

def afterFailedRule : Operation :=
  (run (operationStep .ascii) { client := { todo := dropRule.issued } } failedRule).getD
    { client := { todo := [] } }

theorem operation_runs_session_failedRule :
    afterFailedRule.client.executed.length = 1 ∧ ∃ exits : ExitCodes,
      afterFailedRule.client.executed =
        (TransProxy.Session.ran exits { proxy := {} } dropRule).2.executed := by
  have reached : Reaches (operationStep .ascii) QuietOperation
      { client := { todo := dropRule.issued } } afterFailedRule :=
    reaches_of_run failedRule (by decide +kernel)
  obtain ⟨exits, -, -, whole⟩ := operation_runs_session reached {}
  exact ⟨by decide +kernel, exits, whole (by decide +kernel) (by decide +kernel)⟩

end Orbot.RootCommands
