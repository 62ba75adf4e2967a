import Orbot.TransProxy.TorTransProxy

/-! # Exit codes

The operations once more, now on the root shell that runs their commands: each
command ends with an exit code of its own. An operation run so issues the
commands, and returns the value, of the operation that knows no exit codes.
-/

namespace Orbot.TransProxy

open Java (Text)

/-- The exit code of the n-th command of a shell. -/
abbrev ExitCodes := ℕ → Int

/-- A command that has finished, as it is logged. -/
structure FinishedCommand where
  command : Command
  exitCode : Int
  deriving Repr, DecidableEq

/-- The object and what its shell has run. -/
structure Session where
  proxy : TorTransProxy
  executed : List FinishedCommand := []
  deriving Repr, DecidableEq

namespace Session

variable (exits : ExitCodes) (device : Device)

/-- The exit code of the command reaches the log, and only the log. -/
def executeCommand (s : Session) (command : Command) : Int × Session :=
  (0, { s with executed := s.executed ++ [⟨command, exits s.executed.length⟩] })

def dropAllIPv6Traffic (s : Session) (appUid : Int) (enableDrop : Bool) : Int × Session :=
  let (ip6tablesPath, proxy) := getIp6TablesPath device s.proxy
  executeCommand exits { s with proxy }
    { tool := ip6tablesPath
      family := .ipv6
      table := none
      action := ruleAction enableDrop
      chain := .output
      rule := ⟨if appUid ≠ -1 then [.owner appUid] else [], .drop⟩ }

/-- Commands one after another; the value is that of the last. -/
def executeCommands (s : Session) (commands : List Command) : Int × Session :=
  commands.foldl (fun before command => executeCommand exits before.2 command) (-1, s)

def setTransparentProxyingAll (ports : ServicePorts) (s : Session) (enable : Bool) :
    Int × Session :=
  let (_, s) := dropAllIPv6Traffic exits device s (-1) enable
  let (ipTablesPath, proxy) := getIpTablesPath device s.proxy
  executeCommands exits { s with proxy }
    ((allRules device ports proxy).map fun row =>
      { tool := ipTablesPath
        family := .ipv4
        table := some row.1
        action := ruleAction enable
        chain := .output
        rule := row.2 })

/-- One turn of the loop over the apps. -/
def proxyApp (ipTablesPath : Option Text) (enableRule : Bool) (before : Int × Session)
    (app : TorifiedApp) : Int × Session :=
  if (!enableRule || app.torified) && app.username ≠ torAppUsername then
    let (_, s) := dropAllIPv6Traffic exits device before.2 app.uid enableRule
    -- Set up port redirection
    let (_, s) := executeCommand exits s
      { tool := ipTablesPath
        family := .ipv4
        table := some .nat
        action := ruleAction enableRule
        chain := .output
        rule := ⟨[.proto .tcp, .notLocalhost, .owner app.uid, .tcpSyn],
          .redirect s.proxy.mTransProxyPort⟩ }
    -- Reject all other outbound packets
    executeCommand exits s
      { tool := ipTablesPath
        family := .ipv4
        table := some .filter
        action := ruleAction enableRule
        chain := .output
        rule := ⟨[.owner app.uid, .notLocalhost], .reject⟩ }
  else before

def setTransparentProxyingByApp (s : Session) (apps : List TorifiedApp) (enableRule : Bool) :
    Int × Session :=
  let (ipTablesPath, proxy) := getIpTablesPath device s.proxy
  let (_, s) := executeCommand exits { s with proxy }
    { tool := ipTablesPath
      family := .ipv4
      table := some .nat
      action := ruleAction enableRule
      chain := .output
      rule := ⟨[.proto .udp, .dport standardDnsPort], .redirect proxy.mDNSPort⟩ }
  apps.foldl (proxyApp exits device ipTablesPath enableRule) (-1, s)

def enableTetheringRules (s : Session) : Int × Session :=
  let (ipTablesPath, proxy) := getIpTablesPath device s.proxy
  let command (conditions : List Match) (port : Int) : Command :=
    { tool := ipTablesPath
      family := .ipv4
      table := some .nat
      action := .append
      chain := .prerouting
      rule := ⟨conditions, .redirect port⟩ }
  executeCommands exits { s with proxy }
    (hwinterfaces.flatMap fun name =>
      [ command [.inInterface name, .proto .udp, .dport standardDnsPort] proxy.mDNSPort,
        command [.inInterface name, .proto .tcp] proxy.mTransProxyPort ])

/-! ## The same commands, the same value -/

/-- Commands with the exit codes they end with, the first being the n-th of the shell. -/
def stamp (exits : ExitCodes) : ℕ → List Command → List FinishedCommand
  | _, [] => []
  | n, command :: rest => ⟨command, exits n⟩ :: stamp exits (n + 1) rest

/-- An outcome, as the shell of the session runs it. -/
def ran (s : Session) (outcome : Outcome) : Int × Session :=
  (outcome.lastExit,
    { proxy := outcome.proxy
      executed := s.executed ++ stamp exits s.executed.length outcome.issued })

theorem stamp_append (commands later : List Command) (n : ℕ) :
    stamp exits n (commands ++ later) =
      stamp exits n commands ++ stamp exits (n + commands.length) later := by
  induction commands generalizing n with
  | nil => rfl
  | cons command rest ih =>
      have position : n + 1 + rest.length = n + (command :: rest).length := by
        rw [List.length_cons]
        omega
      simp only [List.cons_append, stamp, ih, position]

@[simp] theorem stamp_length (commands : List Command) (n : ℕ) :
    (stamp exits n commands).length = commands.length := by
  induction commands generalizing n with
  | nil => rfl
  | cons command rest ih => simp only [stamp, List.length_cons, ih]

/-- Some command fails exactly if its position in the shell has an exit code other than 0. -/
theorem stamp_failed_iff (commands : List Command) (n : ℕ) :
    (∃ e ∈ stamp exits n commands, e.exitCode ≠ 0) ↔
      ∃ i < commands.length, exits (n + i) ≠ 0 := by
  induction commands generalizing n with
  | nil => simp [stamp]
  | cons command rest ih =>
      simp only [stamp, List.exists_mem_cons_iff, ih, List.length_cons]
      constructor
      · rintro (failed | ⟨i, inside, failed⟩)
        · exact ⟨0, by omega, failed⟩
        · exact ⟨i + 1, by omega, by rwa [show n + (i + 1) = n + 1 + i by omega]⟩
      · rintro ⟨i, inside, failed⟩
        cases i with
        | zero => exact .inl failed
        | succ i => exact .inr ⟨i, by omega, by rwa [show n + 1 + i = n + (i + 1) by omega]⟩

variable (s : Session)

/-- One more command. -/
theorem executeCommand_ran (outcome : Outcome) (command : Command) :
    executeCommand exits (ran exits s outcome).2 command =
      ran exits s
        { outcome with
          issued := outcome.issued ++ [command]
          lastExit := TransProxy.executeCommand command } := by
  simp only [executeCommand, ran, TransProxy.executeCommand, stamp_append, stamp, List.append_assoc,
    List.length_append, stamp_length]

theorem executeCommands_ran (outcome : Outcome) (commands : List Command) :
    executeCommands exits (ran exits s outcome).2 commands =
      ran exits s
        { outcome with
          issued := outcome.issued ++ commands
          lastExit := (commands.map TransProxy.executeCommand).getLastD (-1) } := by
  suffices general : ∀ value : Int,
      commands.foldl (fun before command => executeCommand exits before.2 command)
          (value, (ran exits s outcome).2) =
        ran exits s
          { outcome with
            issued := outcome.issued ++ commands
            lastExit := (commands.map TransProxy.executeCommand).getLastD value } from general (-1)
  induction commands generalizing outcome with
  | nil => intro value; simp [ran]
  | cons command rest ih =>
      intro value
      rw [List.foldl_cons, executeCommand_ran]
      have remaining := ih { outcome with
        issued := outcome.issued ++ [command]
        lastExit := TransProxy.executeCommand command } (TransProxy.executeCommand command)
      simp only [List.append_assoc, List.singleton_append] at remaining
      rw [List.map_cons, List.getLastD_cons]
      exact remaining

/-- Before anything was issued. -/
theorem ran_nil (value : Int) : ran exits s ⟨s.proxy, [], value⟩ = (value, s) := by
  simp only [ran, stamp, List.append_nil]

theorem dropAllIPv6Traffic_ran (outcome : Outcome) (appUid : Int) (enableDrop : Bool) :
    dropAllIPv6Traffic exits device (ran exits s outcome).2 appUid enableDrop =
      let ipv6 := TransProxy.dropAllIPv6Traffic device outcome.proxy appUid enableDrop
      ran exits s { ipv6 with issued := outcome.issued ++ ipv6.issued } :=
  executeCommand_ran exits s
    { outcome with proxy := (getIp6TablesPath device outcome.proxy).2 } _

theorem setTransparentProxyingAll_ran (ports : ServicePorts) (enable : Bool) :
    setTransparentProxyingAll exits device ports s enable =
      ran exits s (TransProxy.setTransparentProxyingAll device ports s.proxy enable) := by
  have ipv6 := dropAllIPv6Traffic_ran exits device s ⟨s.proxy, [], 0⟩ (-1) enable
  rw [ran_nil] at ipv6
  rw [setTransparentProxyingAll, ipv6]
  exact executeCommands_ran exits s
    { TransProxy.dropAllIPv6Traffic device s.proxy (-1) enable with
      proxy := (getIpTablesPath device
        (TransProxy.dropAllIPv6Traffic device s.proxy (-1) enable).proxy).2 } _

theorem proxyApp_ran (ipTablesPath : Option Text) (enableRule : Bool) (before : Outcome)
    (app : TorifiedApp) :
    proxyApp exits device ipTablesPath enableRule (ran exits s before) app =
      ran exits s (TransProxy.proxyApp device ipTablesPath enableRule before app) := by
  unfold proxyApp TransProxy.proxyApp
  by_cases chosen : ((!enableRule || app.torified) && app.username ≠ torAppUsername) = true
  · rw [if_pos chosen, if_pos chosen, dropAllIPv6Traffic_ran]
    simp only [executeCommand_ran, List.append_assoc, List.singleton_append]
    rfl
  · rw [if_neg chosen, if_neg chosen]

theorem setTransparentProxyingByApp_ran (apps : List TorifiedApp) (enableRule : Bool) :
    setTransparentProxyingByApp exits device s apps enableRule =
      ran exits s (TransProxy.setTransparentProxyingByApp device s.proxy apps enableRule) := by
  have loop (before : Outcome) (ipTablesPath : Option Text) :
      apps.foldl (proxyApp exits device ipTablesPath enableRule) (ran exits s before) =
        ran exits s (apps.foldl (TransProxy.proxyApp device ipTablesPath enableRule) before) := by
    induction apps generalizing before with
    | nil => rfl
    | cons app rest ih => rw [List.foldl_cons, List.foldl_cons, proxyApp_ran, ih]
  exact loop ⟨(getIpTablesPath device s.proxy).2, [_], -1⟩ (getIpTablesPath device s.proxy).1

theorem enableTetheringRules_ran (outcome : Outcome) :
    enableTetheringRules exits device (ran exits s outcome).2 =
      let tethering := TransProxy.enableTetheringRules device outcome.proxy
      ran exits s { tethering with issued := outcome.issued ++ tethering.issued } :=
  executeCommands_ran exits s { outcome with proxy := (getIpTablesPath device outcome.proxy).2 } _

end Session

end Orbot.TransProxy
