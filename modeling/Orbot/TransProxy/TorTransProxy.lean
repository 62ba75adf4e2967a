import Orbot.TorServiceConstants
import Orbot.TransProxy.Command

/-! # The transparent proxy object

`TorTransProxy` as the service drives it: its fields, the search for the
iptables programs, and the operations that issue commands. An operation
returns the object as it leaves it, the commands in the order they were
executed, and its return value.
-/

namespace Orbot.TransProxy

open Java (Text)

/-- What the object reads of the device and of its context. None of it changes
    while an operation runs. -/
structure Device where
  /-- `File.exists` -/
  fileExists : Text → Bool
  /-- `Prefs.useSystemIpTables` -/
  useSystemIpTables : Bool
  /-- absolute path of the bundled xtables binary -/
  fileXtables : Text
  /-- `context.getApplicationInfo().uid` -/
  torUid : Nat

structure TorTransProxy where
  mSysIptables : Option Text := none
  mTransProxyPort : Int := torTransproxyPortDefault
  mDNSPort : Int := torDnsPortDefault
  deriving Repr, DecidableEq

/-- The ports `mTorService` hands out. -/
structure ServicePorts where
  mPortHTTP : Int := httpProxyPortDefault
  mPortSOCKS : Int := socksProxyPortDefault
  deriving Repr, DecidableEq

/-- The fields of a `TorifiedApp` that are read. A uid is a kernel user id;
    -1 is only ever the "no uid" argument of `dropAllIPv6Traffic`. -/
structure TorifiedApp where
  enabled : Bool := false
  uid : Nat := 0
  username : Text := []
  procname : Text := []
  name : Text := []
  packageName : Text := []
  torified : Bool := false
  usesInternet : Bool := false
  deriving Repr, DecidableEq

/-! ## Finding the programs -/

def systemXbinIptables : Text := "/system/xbin/iptables".toList
def systemBinIptables : Text := "/system/bin/iptables".toList
def systemXbinIp6tables : Text := "/system/xbin/ip6tables".toList
def systemBinIp6tables : Text := "/system/bin/ip6tables".toList

/-- Caches the first path found and never looks again. -/
def findSystemIPTables (device : Device) (proxy : TorTransProxy) : Option Text × TorTransProxy :=
  let proxy :=
    if proxy.mSysIptables = none then
      if device.fileExists systemXbinIptables then
        { proxy with mSysIptables := some systemXbinIptables }
      else if device.fileExists systemBinIptables then
        { proxy with mSysIptables := some systemBinIptables }
      else proxy
    else proxy
  (proxy.mSysIptables, proxy)

/-- Looks again on every call, into the same field. -/
def findSystemIP6Tables (device : Device) (proxy : TorTransProxy) : Option Text × TorTransProxy :=
  let proxy :=
    if device.fileExists systemXbinIp6tables then
      { proxy with mSysIptables := some systemXbinIp6tables }
    else if device.fileExists systemBinIp6tables then
      { proxy with mSysIptables := some systemBinIp6tables }
    else proxy
  (proxy.mSysIptables, proxy)

def getIpTablesPath (device : Device) (proxy : TorTransProxy) : Option Text × TorTransProxy :=
  if device.useSystemIpTables then findSystemIPTables device proxy
  else (some (device.fileXtables ++ " iptables".toList), proxy)

def getIp6TablesPath (device : Device) (proxy : TorTransProxy) : Option Text × TorTransProxy :=
  if device.useSystemIpTables then findSystemIP6Tables device proxy
  else (some (device.fileXtables ++ " ip6tables".toList), proxy)

section Paths

variable (device : Device) (proxy : TorTransProxy)

/-- The searches write no field but the cached path. -/
@[simp] theorem getIpTablesPath_ports :
    (getIpTablesPath device proxy).2.mTransProxyPort = proxy.mTransProxyPort ∧
      (getIpTablesPath device proxy).2.mDNSPort = proxy.mDNSPort := by
  simp only [getIpTablesPath, findSystemIPTables]
  split_ifs <;> exact ⟨rfl, rfl⟩

@[simp] theorem getIp6TablesPath_ports :
    (getIp6TablesPath device proxy).2.mTransProxyPort = proxy.mTransProxyPort ∧
      (getIp6TablesPath device proxy).2.mDNSPort = proxy.mDNSPort := by
  simp only [getIp6TablesPath, findSystemIP6Tables]
  split_ifs <;> exact ⟨rfl, rfl⟩

/-- A second IPv6 search finds what the first one left behind. -/
theorem getIp6TablesPath_again :
    getIp6TablesPath device (getIp6TablesPath device proxy).2 = getIp6TablesPath device proxy := by
  simp only [getIp6TablesPath, findSystemIP6Tables]
  split_ifs <;> rfl

end Paths

/-! ## Operations -/

structure Outcome where
  proxy : TorTransProxy
  issued : List Command
  lastExit : Int
  deriving Repr, DecidableEq

/-- The exit code of the command is logged; the value returned is always 0. -/
def executeCommand (_ : Command) : Int := 0

def ruleAction (enable : Bool) : Action :=
  if enable then .append else .delete

def dropAllIPv6Traffic (device : Device) (proxy : TorTransProxy) (appUid : Int)
    (enableDrop : Bool) : Outcome :=
  let (ip6tablesPath, proxy) := getIp6TablesPath device proxy
  let command : Command :=
    { tool := ip6tablesPath
      family := .ipv6
      table := none
      action := ruleAction enableDrop
      chain := .output
      rule := ⟨if appUid ≠ -1 then [.owner appUid] else [], .drop⟩ }
  { proxy := proxy, issued := [command], lastExit := executeCommand command }

/-- The rules of `setTransparentProxyingAll`, in the order they are issued. -/
def allRules (device : Device) (ports : ServicePorts) (proxy : TorTransProxy) :
    List (Table × Rule) :=
  [ -- Allow everything for Tor
    (.nat, ⟨[.owner device.torUid], .accept⟩),
    -- Allow loopback
    (.nat, ⟨[.outLoopback], .accept⟩),
    -- Set up port redirection
    (.nat, ⟨[.proto .tcp, .notLocalhost, .notOwner device.torUid, .tcpSyn],
      .redirect proxy.mTransProxyPort⟩),
    -- Same for DNS
    (.nat, ⟨[.proto .udp, .notLocalhost, .notOwner device.torUid, .dport standardDnsPort],
      .redirect proxy.mDNSPort⟩),
    -- allow access to transproxy port, local HTTP port, local SOCKS port
    (.filter, ⟨[.proto .tcp, .module .tcp, .dport proxy.mTransProxyPort], .accept⟩),
    (.filter, ⟨[.proto .tcp, .module .tcp, .dport ports.mPortHTTP], .accept⟩),
    (.filter, ⟨[.proto .tcp, .module .tcp, .dport ports.mPortSOCKS], .accept⟩),
    -- allow access to local DNS port
    (.filter, ⟨[.proto .udp, .module .udp, .dport proxy.mDNSPort], .accept⟩),
    -- Reject all other packets
    (.filter, ⟨[.notOwner device.torUid, .notLocalhost], .reject⟩) ]

def setTransparentProxyingAll (device : Device) (ports : ServicePorts) (proxy : TorTransProxy)
    (enable : Bool) : Outcome :=
  let ipv6 := dropAllIPv6Traffic device proxy (-1) enable
  let (ipTablesPath, proxy) := getIpTablesPath device ipv6.proxy
  let commands := (allRules device ports proxy).map fun (table, rule) =>
    { tool := ipTablesPath
      family := .ipv4
      table := some table
      action := ruleAction enable
      chain := .output
      rule := rule : Command }
  { proxy := proxy
    issued := ipv6.issued ++ commands
    lastExit := (commands.map executeCommand).getLastD (-1) }

/-- One turn of the loop over the apps. -/
def proxyApp (device : Device) (ipTablesPath : Option Text) (enableRule : Bool)
    (before : Outcome) (app : TorifiedApp) : Outcome :=
  if (!enableRule || app.torified) && app.username ≠ torAppUsername then
    let ipv6 := dropAllIPv6Traffic device before.proxy app.uid enableRule
    -- Set up port redirection
    let redirect : Command :=
      { tool := ipTablesPath
        family := .ipv4
        table := some .nat
        action := ruleAction enableRule
        chain := .output
        rule := ⟨[.proto .tcp, .notLocalhost, .owner app.uid, .tcpSyn],
          .redirect ipv6.proxy.mTransProxyPort⟩ }
    -- Reject all other outbound packets
    let reject : Command :=
      { tool := ipTablesPath
        family := .ipv4
        table := some .filter
        action := ruleAction enableRule
        chain := .output
        rule := ⟨[.owner app.uid, .notLocalhost], .reject⟩ }
    { proxy := ipv6.proxy
      issued := before.issued ++ ipv6.issued ++ [redirect, reject]
      lastExit := executeCommand reject }
  else before

def setTransparentProxyingByApp (device : Device) (proxy : TorTransProxy)
    (apps : List TorifiedApp) (enableRule : Bool) : Outcome :=
  let (ipTablesPath, proxy) := getIpTablesPath device proxy
  let dns : Command :=
    { tool := ipTablesPath
      family := .ipv4
      table := some .nat
      action := ruleAction enableRule
      chain := .output
      rule := ⟨[.proto .udp, .dport standardDnsPort], .redirect proxy.mDNSPort⟩ }
  apps.foldl (proxyApp device ipTablesPath enableRule)
    { proxy := proxy, issued := [dns], lastExit := -1 }

/-- The apps the loop issues rules for: when rules are removed, every app that
    is not Tor's own user name. -/
def selected (enableRule : Bool) (apps : List TorifiedApp) : List TorifiedApp :=
  apps.filter fun app => (!enableRule || app.torified) && app.username ≠ torAppUsername

/-- The commands of one selected app. -/
def appCommands (ipTablesPath ip6tablesPath : Option Text) (enableRule : Bool) (transPort : Int)
    (app : TorifiedApp) : List Command :=
  [ { tool := ip6tablesPath, family := .ipv6, table := none, action := ruleAction enableRule
      chain := .output, rule := ⟨[.owner app.uid], .drop⟩ },
    { tool := ipTablesPath, family := .ipv4, table := some .nat, action := ruleAction enableRule
      chain := .output
      rule := ⟨[.proto .tcp, .notLocalhost, .owner app.uid, .tcpSyn], .redirect transPort⟩ },
    { tool := ipTablesPath, family := .ipv4, table := some .filter
      action := ruleAction enableRule, chain := .output
      rule := ⟨[.owner app.uid, .notLocalhost], .reject⟩ } ]

theorem proxyApp_of_selected {device : Device} {tool : Option Text} {enableRule : Bool}
    {before : Outcome} {app : TorifiedApp}
    (chosen : ((!enableRule || app.torified) && app.username ≠ torAppUsername) = true) :
    proxyApp device tool enableRule before app =
      { proxy := (getIp6TablesPath device before.proxy).2
        issued := before.issued ++ appCommands tool (getIp6TablesPath device before.proxy).1
          enableRule before.proxy.mTransProxyPort app
        lastExit := 0 } := by
  have notSentinel : ((app.uid : Int) ≠ -1) := by omega
  have port := (getIp6TablesPath_ports device before.proxy).1
  simp only [proxyApp, if_pos chosen, dropAllIPv6Traffic, if_pos notSentinel, port, appCommands,
    executeCommand, List.append_assoc, List.singleton_append]

/-- The loop over the apps: each selected app adds its commands, the IPv6 tool
    is the one the first search finds, and the ports never change. -/
theorem proxyApp_loop (device : Device) (tool : Option Text) (enableRule : Bool)
    (apps : List TorifiedApp) (before : Outcome) :
    (apps.foldl (proxyApp device tool enableRule) before).issued =
        before.issued ++ (selected enableRule apps).flatMap
          (appCommands tool (getIp6TablesPath device before.proxy).1 enableRule
            before.proxy.mTransProxyPort) ∧
      (apps.foldl (proxyApp device tool enableRule) before).proxy =
        (if selected enableRule apps = [] then before.proxy
          else (getIp6TablesPath device before.proxy).2) ∧
      (apps.foldl (proxyApp device tool enableRule) before).lastExit =
        (if selected enableRule apps = [] then before.lastExit else 0) := by
  induction apps generalizing before with
  | nil => simp [selected]
  | cons app rest ih =>
      rw [List.foldl_cons]
      by_cases chosen : ((!enableRule || app.torified) && app.username ≠ torAppUsername) = true
      · have first : selected enableRule (app :: rest) = app :: selected enableRule rest :=
          List.filter_cons_of_pos chosen
        obtain ⟨issued, proxy, lastExit⟩ := ih (proxyApp device tool enableRule before app)
        rw [issued, proxy, lastExit, proxyApp_of_selected chosen, first]
        simp only [getIp6TablesPath_again, getIp6TablesPath_ports, List.flatMap_cons,
          List.append_assoc, reduceCtorEq, if_false, ite_self, and_self]
      · have first : selected enableRule (app :: rest) = selected enableRule rest :=
          List.filter_cons_of_neg chosen
        have unchanged : proxyApp device tool enableRule before app = before := if_neg chosen
        rw [unchanged, first]
        exact ih before

/-- What `setTransparentProxyingByApp` issues, returns, and leaves in the object. -/
theorem setTransparentProxyingByApp_spec (device : Device) (proxy : TorTransProxy)
    (apps : List TorifiedApp) (enableRule : Bool) :
    let paths := getIpTablesPath device proxy
    let outcome := setTransparentProxyingByApp device proxy apps enableRule
    outcome.issued =
        { tool := paths.1, family := .ipv4, table := some .nat, action := ruleAction enableRule
          chain := .output
          rule := ⟨[.proto .udp, .dport standardDnsPort], .redirect proxy.mDNSPort⟩ } ::
        (selected enableRule apps).flatMap
          (appCommands paths.1 (getIp6TablesPath device paths.2).1 enableRule
            proxy.mTransProxyPort) ∧
      outcome.proxy.mTransProxyPort = proxy.mTransProxyPort ∧
      outcome.proxy.mDNSPort = proxy.mDNSPort ∧
      outcome.lastExit = (if selected enableRule apps = [] then -1 else 0) := by
  intro paths outcome
  obtain ⟨trans, dns⟩ := getIpTablesPath_ports device proxy
  obtain ⟨trans6, dns6⟩ := getIp6TablesPath_ports device (getIpTablesPath device proxy).2
  obtain ⟨issued, object, lastExit⟩ := proxyApp_loop device paths.1 enableRule apps
    { proxy := paths.2
      issued := [{ tool := paths.1, family := .ipv4, table := some .nat
                   action := ruleAction enableRule, chain := .output
                   rule := ⟨[.proto .udp, .dport standardDnsPort], .redirect paths.2.mDNSPort⟩ }]
      lastExit := -1 }
  refine ⟨?_, ?_, ?_, lastExit⟩
  · simpa only [outcome, setTransparentProxyingByApp, paths, trans, dns, List.singleton_append]
      using issued
  · have := congrArg TorTransProxy.mTransProxyPort object
    rw [apply_ite TorTransProxy.mTransProxyPort] at this
    simpa only [outcome, setTransparentProxyingByApp, paths, trans6, trans, ite_self] using this
  · have := congrArg TorTransProxy.mDNSPort object
    rw [apply_ite TorTransProxy.mDNSPort] at this
    simpa only [outcome, setTransparentProxyingByApp, paths, dns6, dns, ite_self] using this

/-- What `setTransparentProxyingAll` issues, returns, and leaves in the object. -/
theorem setTransparentProxyingAll_spec (device : Device) (ports : ServicePorts)
    (proxy : TorTransProxy) (enable : Bool) :
    let paths6 := getIp6TablesPath device proxy
    let outcome := setTransparentProxyingAll device ports proxy enable
    outcome.issued =
        { tool := paths6.1, family := .ipv6, table := none, action := ruleAction enable
          chain := .output, rule := ⟨[], .drop⟩ } ::
        (allRules device ports proxy).map (fun (table, rule) =>
          { tool := (getIpTablesPath device paths6.2).1, family := .ipv4, table := some table
            action := ruleAction enable, chain := .output, rule := rule }) ∧
      outcome.proxy.mTransProxyPort = proxy.mTransProxyPort ∧
      outcome.proxy.mDNSPort = proxy.mDNSPort ∧
      outcome.lastExit = 0 := by
  intro paths6 outcome
  obtain ⟨trans6, dns6⟩ := getIp6TablesPath_ports device proxy
  obtain ⟨trans, dns⟩ := getIpTablesPath_ports device (getIp6TablesPath device proxy).2
  rw [trans6] at trans
  rw [dns6] at dns
  refine ⟨?_, trans, dns, rfl⟩
  simp only [outcome, setTransparentProxyingAll, dropAllIPv6Traffic, paths6, allRules, trans, dns]
  rfl

/-- The interfaces `enableTetheringRules` covers. -/
def hwinterfaces : List Text := ["usb0".toList, "wl0.1".toList]

def enableTetheringRules (device : Device) (proxy : TorTransProxy) : Outcome :=
  let (ipTablesPath, proxy) := getIpTablesPath device proxy
  let command (conditions : List Match) (port : Int) : Command :=
    { tool := ipTablesPath
      family := .ipv4
      table := some .nat
      action := .append
      chain := .prerouting
      rule := ⟨conditions, .redirect port⟩ }
  let commands := hwinterfaces.flatMap fun name =>
    [ command [.inInterface name, .proto .udp, .dport standardDnsPort] proxy.mDNSPort,
      command [.inInterface name, .proto .tcp] proxy.mTransProxyPort ]
  { proxy := proxy
    issued := commands
    lastExit := (commands.map executeCommand).getLastD (-1) }

end Orbot.TransProxy
