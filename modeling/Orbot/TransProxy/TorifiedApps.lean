import Mathlib.Data.Char
import Mathlib.Data.List.Lex
import Orbot.Lib.SortedSearch
import Orbot.TransProxy.PerApp

/-! # The list of apps

`TorTransProxy.getApps`: the installed applications that use the internet, each
marked as torified when the name of its uid is among the names kept in the
preferences. Per-app mode exempts Tor by a fixed user name in this list, where
whole-device mode exempts the uid of the embedding application.
-/

namespace Orbot.TransProxy

open Java (Text)
open Lib

/-- The fields of Android's `ApplicationInfo` that are read. -/
structure ApplicationInfo where
  packageName : Text
  flags : BitVec 32
  enabled : Bool
  uid : Nat
  processName : Text
  deriving Repr, DecidableEq

def flagSystem : BitVec 32 := 1#32

/-- The answers of Android's package manager. `requestedPermissions` is `none`
    where there is no package info, the info lists no permissions, or the call
    throws; `applicationLabel` is `none` where the call throws. Every uid of an
    installed application has a name. -/
structure PackageManager where
  installedApplications : List ApplicationInfo
  requestedPermissions : Text → Option (List Text)
  nameForUid : Nat → Text
  applicationLabel : Text → Option Text

def internetPermission : Text := "android.permission.INTERNET".toList

def PackageManager.usesInternet (pMgr : PackageManager) (aInfo : ApplicationInfo) : Bool :=
  ((pMgr.requestedPermissions aInfo.packageName).getD []).any (· = internetPermission) ||
    -- System app
    aInfo.flags &&& flagSystem = 1#32

/-- The user names of the preference value, sorted. -/
def tordApps (tordAppString : Text) : List Text :=
  (Java.tokens tordAppString '|').mergeSort (· ≤ ·)

def torifiedApp (pMgr : PackageManager) (tordApps : List Text) (aInfo : ApplicationInfo) :
    TorifiedApp :=
  { enabled := aInfo.enabled
    uid := aInfo.uid
    username := pMgr.nameForUid aInfo.uid
    procname := aInfo.processName
    name := (pMgr.applicationLabel aInfo.packageName).getD aInfo.packageName
    packageName := aInfo.packageName
    -- check if this application is allowed
    torified := 0 ≤ SortedSearch.binarySearch tordApps (pMgr.nameForUid aInfo.uid)
    usesInternet := pMgr.usesInternet aInfo }

def getApps (pMgr : PackageManager) (tordAppString : Text) : List TorifiedApp :=
  let apps := (pMgr.installedApplications.filter pMgr.usesInternet).map
    (torifiedApp pMgr (tordApps tordAppString))
  apps.mergeSort (·.name ≤ ·.name)

section Apps

variable {pMgr : PackageManager} {tordAppString : Text}

theorem mem_getApps {app : TorifiedApp} :
    app ∈ getApps pMgr tordAppString ↔
      ∃ aInfo ∈ pMgr.installedApplications, pMgr.usesInternet aInfo = true ∧
        torifiedApp pMgr (tordApps tordAppString) aInfo = app := by
  simp only [getApps, List.mem_mergeSort, List.mem_map, List.mem_filter, and_assoc]

/-- An app is torified exactly when its user name is one of the preference. -/
theorem torifiedApp_torified (aInfo : ApplicationInfo) :
    (torifiedApp pMgr (tordApps tordAppString) aInfo).torified = true ↔
      pMgr.nameForUid aInfo.uid ∈ Java.tokens tordAppString '|' := by
  simp only [torifiedApp, decide_eq_true_eq, tordApps,
    SortedSearch.binarySearch_mergeSort_nonneg_iff]

/-- Which uids per-app mode captures, in terms of what is installed and of the
    preference alone. -/
theorem mem_capturedUids_getApps {uid : Nat} :
    uid ∈ capturedUids (getApps pMgr tordAppString) ↔
      (∃ aInfo ∈ pMgr.installedApplications, aInfo.uid = uid ∧ pMgr.usesInternet aInfo = true) ∧
        pMgr.nameForUid uid ∈ Java.tokens tordAppString '|' ∧
        pMgr.nameForUid uid ≠ torAppUsername := by
  rw [mem_capturedUids]
  constructor
  · rintro ⟨app, member, captured, rfl⟩
    obtain ⟨aInfo, installed, internet, rfl⟩ := mem_getApps.mp member
    exact ⟨⟨aInfo, installed, rfl, internet⟩, (torifiedApp_torified aInfo).mp captured.torified,
      captured.notTor⟩
  · rintro ⟨⟨aInfo, installed, rfl, internet⟩, named, notTor⟩
    exact ⟨_, mem_getApps.mpr ⟨aInfo, installed, internet, rfl⟩,
      ⟨(torifiedApp_torified aInfo).mpr named, notTor⟩, rfl⟩

def TorifiedApp.untorified (app : TorifiedApp) : TorifiedApp := { app with torified := false }

/-- The preference decides which apps are torified, and nothing else about the
    list. -/
theorem getApps_untorified (pMgr : PackageManager) (tordAppString tordAppString' : Text) :
    (getApps pMgr tordAppString).map TorifiedApp.untorified =
      (getApps pMgr tordAppString').map TorifiedApp.untorified := by
  have sorted (apps : List TorifiedApp) :
      (apps.mergeSort (·.name ≤ ·.name)).map TorifiedApp.untorified =
        (apps.map TorifiedApp.untorified).mergeSort (·.name ≤ ·.name) :=
    List.map_mergeSort fun _ _ _ _ => rfl
  simp only [getApps, sorted, List.map_map]
  rfl

/-- So the apps that are torified under one preference are among the apps that
    rules are deleted for under any other. -/
theorem capturedUids_sublist (pMgr : PackageManager) (tordAppString tordAppString' : Text) :
    (capturedUids (getApps pMgr tordAppString)).Sublist
      ((selected false (getApps pMgr tordAppString')).map TorifiedApp.uid) := by
  have listed (apps : List TorifiedApp) :
      (selected false apps).map TorifiedApp.uid =
        (selected false (apps.map TorifiedApp.untorified)).map TorifiedApp.uid := by
    simp only [selected, List.filter_map, List.map_map]
    rfl
  rw [listed, getApps_untorified pMgr tordAppString' tordAppString, ← listed]
  refine List.Sublist.map _ (List.monotone_filter_right _ fun app chosen => ?_)
  simp only [Bool.not_true, Bool.false_or, Bool.and_eq_true, Bool.not_false,
    Bool.true_or] at chosen ⊢
  exact ⟨trivial, chosen.2⟩

end Apps

/-! ## Tor's own packets -/

/-- The command adds a rule that redirects, rejects or drops the packet. -/
structure Command.Captures (c : Command) (p : Packet) : Prop where
  appends : c.action = .append
  family : c.family = p.family
  fires : c.rule.fires p = true
  notAccept : c.rule.target ≠ .accept

section Capture

variable (device : Device) (proxy : TorTransProxy) (apps : List TorifiedApp)

/-- The commands that capture a TCP packet are those of the apps of its uid. -/
theorem captures_tcp {p : Packet} (tcp : p.isTcp = true) {c : Command}
    (member : c ∈ (setTransparentProxyingByApp device proxy apps true).issued)
    (captures : c.Captures p) : p.uid ∈ capturedUids apps := by
  rw [(setTransparentProxyingByApp_spec device proxy apps true).1] at member
  have fires := captures.fires
  rcases List.mem_cons.mp member with rfl | listed
  · -- the DNS rule is about UDP
    have udp : p.isUdp = false := by
      cases kind : p.transport with
      | tcp => simp only [Packet.isUdp, kind]
      | udp | other => simp [Packet.isTcp, kind] at tcp
    simp [Rule.fires, Match.holds, udp] at fires
  · obtain ⟨app, chosen, command⟩ := List.mem_flatMap.mp listed
    have owner : p.uid = app.uid := by
      simp only [appCommands, List.mem_cons, List.not_mem_nil, or_false] at command
      rcases command with rfl | rfl | rfl
      all_goals
        simp [Rule.fires, Match.holds] at fires
        omega
    exact List.mem_map.mpr ⟨app, chosen, owner.symm⟩

/-- The IPv6 rule of an app captures every IPv6 packet of its uid. -/
theorem captures_ipv6 {p : Packet} (owned : p.uid ∈ capturedUids apps) (ipv6 : p.family = .ipv6) :
    ∃ c ∈ (setTransparentProxyingByApp device proxy apps true).issued, c.Captures p := by
  obtain ⟨app, chosen, owner⟩ := List.mem_map.mp owned
  rw [(setTransparentProxyingByApp_spec device proxy apps true).1]
  refine ⟨_, List.mem_cons_of_mem _ (List.mem_flatMap.mpr ⟨app, chosen, List.mem_cons_self ..⟩),
    rfl, ipv6.symm, ?_, by simp⟩
  simp [Rule.fires, Match.holds, owner]

/-- The nat rule of an app redirects every IPv4 connection attempt of its uid. -/
theorem captures_syn {p : Packet} (owned : p.uid ∈ capturedUids apps) (ipv4 : p.family = .ipv4)
    (syn : p.isTcpSyn = true) (remote : p.dst ≠ localhost) :
    ∃ c ∈ (setTransparentProxyingByApp device proxy apps true).issued,
      c.rule.target = .redirect proxy.mTransProxyPort ∧ c.Captures p := by
  obtain ⟨app, chosen, owner⟩ := List.mem_map.mp owned
  have tcp := Packet.isTcp_of_isTcpSyn syn
  rw [(setTransparentProxyingByApp_spec device proxy apps true).1]
  refine ⟨_, List.mem_cons_of_mem _ (List.mem_flatMap.mpr ⟨app, chosen,
    List.mem_cons_of_mem _ (List.mem_cons_self ..)⟩), rfl, rfl, ipv4.symm, ?_, by simp⟩
  simp [Rule.fires, Match.holds, owner, tcp, syn, remote]

end Capture

/-- Per-app mode leaves Tor's own TCP packets alone exactly when no installed
    application that uses the internet runs under Tor's uid while the name of
    that uid is torified and is not the one exempted. -/
theorem byApp_spares_tor_iff (device : Device) (proxy : TorTransProxy) (pMgr : PackageManager)
    (tordAppString : Text) :
    (∀ c ∈ (setTransparentProxyingByApp device proxy (getApps pMgr tordAppString) true).issued,
        ∀ p : Packet, p.uid = device.torUid → p.isTcp = true → ¬ c.Captures p) ↔
      ¬ ((∃ aInfo ∈ pMgr.installedApplications,
            aInfo.uid = device.torUid ∧ pMgr.usesInternet aInfo = true) ∧
          pMgr.nameForUid device.torUid ∈ Java.tokens tordAppString '|' ∧
          pMgr.nameForUid device.torUid ≠ torAppUsername) := by
  rw [← mem_capturedUids_getApps]
  constructor
  · intro spares owned
    let p : Packet :=
      { uid := device.torUid, dst := .v6 1#128, transport := .tcp ⟨true, false, false, false⟩ 443
        outInterface := loopback }
    obtain ⟨c, member, captures⟩ := captures_ipv6 device proxy _ (p := p) owned rfl
    exact spares c member p rfl rfl captures
  · intro notOwned c member p owner tcp captures
    exact notOwned (owner ▸ captures_tcp device proxy _ tcp member captures)

/-- An embedding application that is torified like any other. -/
def embeddingApp : PackageManager where
  installedApplications :=
    [{ packageName := "com.upstream.orbotexample".toList, flags := 0#32, enabled := true
       uid := 10100, processName := "com.upstream.orbotexample".toList }]
  requestedPermissions _ := some [internetPermission]
  nameForUid _ := "com.upstream.orbotexample".toList
  applicationLabel _ := some "orbotexample".toList

/-- Tor's own connection attempts are redirected to its trans port. -/
theorem byApp_captures_tor :
    ∃ c ∈ (setTransparentProxyingByApp bundledDevice {}
        (getApps embeddingApp "com.upstream.orbotexample|".toList) true).issued,
      c.rule.target = .redirect torTransproxyPortDefault ∧
        c.Captures { webPacket with uid := bundledDevice.torUid } := by
  have owned : bundledDevice.torUid ∈
      capturedUids (getApps embeddingApp "com.upstream.orbotexample|".toList) :=
    mem_capturedUids_getApps.mpr
      ⟨⟨_, List.mem_cons_self .., rfl, by decide⟩, by decide, by decide⟩
  exact captures_syn bundledDevice {} _ owned rfl rfl (by decide)

end Orbot.TransProxy
