import Orbot.TransProxy.Netfilter
import Orbot.TransProxy.TorTransProxy

/-! # Executing commands

A command changes the tables of the program it is run through. It succeeds
when that program is one of the family the command is written for; appends
then add the rule at the end, deletions remove the first equal rule or fail
without effect.
-/

namespace Orbot.TransProxy

open Java (Text)

/-- The family of the tables a program works on. -/
def Device.toolFamily (device : Device) (path : Text) : Option Family :=
  if path ∈ [systemXbinIptables, systemBinIptables, device.fileXtables ++ " iptables".toList] then
    some .ipv4
  else if path ∈ [systemXbinIp6tables, systemBinIp6tables,
      device.fileXtables ++ " ip6tables".toList] then
    some .ipv6
  else none

namespace Command

def landsIn (device : Device) (c : Command) : Option Family :=
  c.tool.bind device.toolFamily

/-- Without `-t` a rule goes to the filter table. -/
def slot (c : Command) (family : Family) : Slot :=
  ⟨family, c.table.getD .filter, c.chain⟩

def Succeeds (device : Device) (c : Command) : Prop :=
  c.landsIn device = some c.family

instance (device : Device) (c : Command) : Decidable (c.Succeeds device) :=
  inferInstanceAs (Decidable (c.landsIn device = some c.family))

/-- The rule a succeeding command is about, with its chain. -/
def entry (c : Command) : Slot × Rule :=
  (c.slot c.family, c.rule)

end Command

namespace Ruleset

def exec (device : Device) (rules : Ruleset) (c : Command) : Ruleset :=
  match c.landsIn device with
  | none => rules
  | some family =>
      match c.action with
      | .append => rules ++ [(c.slot family, c.rule)]
      | .delete => rules.erase (c.slot family, c.rule)

def execAll (device : Device) (rules : Ruleset) (commands : List Command) : Ruleset :=
  commands.foldl (exec device) rules

end Ruleset

/-- Every command of the list succeeds. -/
abbrev AllSucceed (device : Device) (commands : List Command) : Prop :=
  ∀ c ∈ commands, c.Succeeds device

namespace Ruleset

variable {device : Device} {commands : List Command}

theorem execAll_appends (rules : Ruleset) (succeed : AllSucceed device commands)
    (appends : ∀ c ∈ commands, c.action = .append) :
    execAll device rules commands = rules ++ commands.map Command.entry := by
  induction commands generalizing rules with
  | nil => simp [execAll]
  | cons c rest ih =>
      have lands : c.landsIn device = some c.family := succeed c (by simp)
      have step : exec device rules c = rules ++ [c.entry] := by
        simp only [exec, lands, appends c (by simp), Command.entry]
      have remaining := ih (rules ++ [c.entry]) (fun d member => succeed d (by simp [member]))
        (fun d member => appends d (by simp [member]))
      simpa only [execAll, List.foldl_cons, step, List.map_cons, List.append_assoc,
        List.singleton_append] using remaining

theorem execAll_deletes (rules : Ruleset) (succeed : AllSucceed device commands)
    (deletes : ∀ c ∈ commands, c.action = .delete) :
    execAll device rules commands = (commands.map Command.entry).foldl List.erase rules := by
  induction commands generalizing rules with
  | nil => rfl
  | cons c rest ih =>
      have lands : c.landsIn device = some c.family := succeed c (by simp)
      have step : exec device rules c = rules.erase c.entry := by
        simp only [exec, lands, deletes c (by simp), Command.entry]
      have remaining := ih (rules.erase c.entry) (fun d member => succeed d (by simp [member]))
        (fun d member => deletes d (by simp [member]))
      simpa only [execAll, List.foldl_cons, step, List.map_cons] using remaining

end Ruleset

/-! ## The rules of each operation -/

section Entries

variable (device : Device) (ports : ServicePorts) (proxy : TorTransProxy)

/-- The rules of `setTransparentProxyingAll`, each with its chain. -/
def allEntries : Ruleset :=
  (⟨.ipv6, .filter, .output⟩, ⟨[], .drop⟩) ::
    (allRules device ports proxy).map fun (table, rule) => (⟨.ipv4, table, .output⟩, rule)

/-- The rules of one selected app. -/
def appEntries (transPort : Int) (uid : Nat) : Ruleset :=
  [ (⟨.ipv6, .filter, .output⟩, ⟨[.owner uid], .drop⟩),
    (⟨.ipv4, .nat, .output⟩,
      ⟨[.proto .tcp, .notLocalhost, .owner uid, .tcpSyn], .redirect transPort⟩),
    (⟨.ipv4, .filter, .output⟩, ⟨[.owner uid, .notLocalhost], .reject⟩) ]

/-- The rules of `setTransparentProxyingByApp`, each with its chain. -/
def byAppEntries (apps : List TorifiedApp) (enableRule : Bool) : Ruleset :=
  (⟨.ipv4, .nat, .output⟩,
      ⟨[.proto .udp, .dport standardDnsPort], .redirect proxy.mDNSPort⟩) ::
    ((selected enableRule apps).map TorifiedApp.uid).flatMap (appEntries proxy.mTransProxyPort)

/-- The rules of `enableTetheringRules`, each with its chain. -/
def tetheringEntries : Ruleset :=
  hwinterfaces.flatMap fun name =>
    [ (⟨.ipv4, .nat, .prerouting⟩,
        ⟨[.inInterface name, .proto .udp, .dport standardDnsPort], .redirect proxy.mDNSPort⟩),
      (⟨.ipv4, .nat, .prerouting⟩,
        ⟨[.inInterface name, .proto .tcp], .redirect proxy.mTransProxyPort⟩) ]

theorem setTransparentProxyingAll_entries (enable : Bool) :
    (setTransparentProxyingAll device ports proxy enable).issued.map Command.entry =
      allEntries device ports proxy := by
  rw [(setTransparentProxyingAll_spec device ports proxy enable).1]
  rfl

theorem setTransparentProxyingAll_action (enable : Bool) :
    ∀ c ∈ (setTransparentProxyingAll device ports proxy enable).issued,
      c.action = ruleAction enable := by
  rw [(setTransparentProxyingAll_spec device ports proxy enable).1]
  intro c member
  rcases List.mem_cons.mp member with rfl | listed
  · rfl
  · obtain ⟨_, _, rfl⟩ := List.mem_map.mp listed
    rfl

theorem setTransparentProxyingByApp_entries (apps : List TorifiedApp) (enableRule : Bool) :
    (setTransparentProxyingByApp device proxy apps enableRule).issued.map Command.entry =
      byAppEntries proxy apps enableRule := by
  rw [(setTransparentProxyingByApp_spec device proxy apps enableRule).1]
  simp only [List.map_cons, List.map_flatMap, byAppEntries, List.flatMap_map]
  rfl

theorem setTransparentProxyingByApp_action (apps : List TorifiedApp) (enableRule : Bool) :
    ∀ c ∈ (setTransparentProxyingByApp device proxy apps enableRule).issued,
      c.action = ruleAction enableRule := by
  rw [(setTransparentProxyingByApp_spec device proxy apps enableRule).1]
  intro c member
  rcases List.mem_cons.mp member with rfl | listed
  · rfl
  · obtain ⟨app, _, command⟩ := List.mem_flatMap.mp listed
    simp only [appCommands, List.mem_cons, List.not_mem_nil, or_false] at command
    rcases command with rfl | rfl | rfl <;> rfl

theorem enableTetheringRules_entries :
    (enableTetheringRules device proxy).issued.map Command.entry = tetheringEntries proxy := by
  obtain ⟨trans, dns⟩ := getIpTablesPath_ports device proxy
  simp only [enableTetheringRules, trans, dns]
  rfl

theorem enableTetheringRules_action :
    ∀ c ∈ (enableTetheringRules device proxy).issued, c.action = .append := by
  intro c member
  simp only [enableTetheringRules, hwinterfaces, List.flatMap_cons, List.flatMap_nil,
    List.append_nil, List.cons_append, List.nil_append, List.mem_cons, List.not_mem_nil,
    or_false] at member
  rcases member with rfl | rfl | rfl | rfl <;> rfl

end Entries

/-! ## The bundled binary -/

section Bundled

variable {device : Device} (bundled : device.useSystemIpTables = false)

theorem toolFamily_bundled4 (device : Device) :
    device.toolFamily (device.fileXtables ++ " iptables".toList) = some .ipv4 := by
  simp only [Device.toolFamily, List.mem_cons, true_or, or_true, if_true]

/-- The bundled IPv6 command line has a blank in it, no system path has. -/
theorem toolFamily_bundled6 (device : Device) :
    device.toolFamily (device.fileXtables ++ " ip6tables".toList) = some .ipv6 := by
  have blank : ' ' ∈ device.fileXtables ++ " ip6tables".toList :=
    List.mem_append_right _ (by decide)
  have other : device.fileXtables ++ " ip6tables".toList ∉
      [systemXbinIptables, systemBinIptables, device.fileXtables ++ " iptables".toList] := by
    intro member
    simp only [List.mem_cons, List.not_mem_nil, or_false] at member
    rcases member with same | same | same
    · rw [same] at blank
      exact absurd blank (by decide)
    · rw [same] at blank
      exact absurd blank (by decide)
    · exact absurd (List.append_cancel_left same) (by decide)
  rw [Device.toolFamily, if_neg other, if_pos (by simp)]

include bundled

/-- With the bundled binary, the default, every command of whole-device mode
    succeeds. -/
theorem allSucceed_all (ports : ServicePorts) (proxy : TorTransProxy) (enable : Bool) :
    AllSucceed device (setTransparentProxyingAll device ports proxy enable).issued := by
  rw [(setTransparentProxyingAll_spec device ports proxy enable).1]
  simp only [getIp6TablesPath, getIpTablesPath, bundled, Bool.false_eq_true, if_false]
  intro c member
  rcases List.mem_cons.mp member with rfl | listed
  · exact toolFamily_bundled6 device
  · obtain ⟨_, _, rfl⟩ := List.mem_map.mp listed
    exact toolFamily_bundled4 device

/-- The same for per-app mode. -/
theorem allSucceed_byApp (proxy : TorTransProxy) (apps : List TorifiedApp) (enable : Bool) :
    AllSucceed device (setTransparentProxyingByApp device proxy apps enable).issued := by
  rw [(setTransparentProxyingByApp_spec device proxy apps enable).1]
  simp only [getIp6TablesPath, getIpTablesPath, bundled, Bool.false_eq_true, if_false]
  intro c member
  rcases List.mem_cons.mp member with rfl | listed
  · exact toolFamily_bundled4 device
  · obtain ⟨app, _, command⟩ := List.mem_flatMap.mp listed
    simp only [appCommands, List.mem_cons, List.not_mem_nil, or_false] at command
    rcases command with rfl | rfl | rfl
    · exact toolFamily_bundled6 device
    · exact toolFamily_bundled4 device
    · exact toolFamily_bundled4 device

/-- The same for the tethering rules. -/
theorem allSucceed_tethering (proxy : TorTransProxy) :
    AllSucceed device (enableTetheringRules device proxy).issued := by
  intro c member
  simp only [enableTetheringRules, getIpTablesPath, bundled, Bool.false_eq_true, if_false,
    List.mem_flatMap, List.mem_cons, List.not_mem_nil, or_false] at member
  obtain ⟨name, _, rfl | rfl⟩ := member
  · exact toolFamily_bundled4 device
  · exact toolFamily_bundled4 device

end Bundled

end Orbot.TransProxy
