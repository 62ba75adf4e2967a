import Mathlib.Data.Int.CharZero
import Orbot.TransProxy.Execution

/-! # Whole-device mode

The rule set of `setTransparentProxyingAll`, stage by stage: which packets the
nat chain redirects, which packets the filter chain lets through, and what
becomes of a packet that is not Tor's.
-/

namespace Orbot.TransProxy

open Java (Text)
open Lib

/-- The rules after whole-device mode was switched on over empty chains. -/
def wholeDevice (device : Device) (ports : ServicePorts) (proxy : TorTransProxy) : Ruleset :=
  Ruleset.execAll device [] (setTransparentProxyingAll device ports proxy true).issued

theorem wholeDevice_eq {device : Device} {ports : ServicePorts} {proxy : TorTransProxy}
    (succeed : AllSucceed device (setTransparentProxyingAll device ports proxy true).issued) :
    wholeDevice device ports proxy = allEntries device ports proxy := by
  rw [wholeDevice, Ruleset.execAll_appends [] succeed
    (setTransparentProxyingAll_action device ports proxy true),
    setTransparentProxyingAll_entries, List.nil_append]

section Stages

variable (device : Device) (ports : ServicePorts) (proxy : TorTransProxy)

def allNat : List Rule :=
  (allEntries device ports proxy).chain ⟨.ipv4, .nat, .output⟩

def allFilter : List Rule :=
  (allEntries device ports proxy).chain ⟨.ipv4, .filter, .output⟩

/-- The nat chain: Tor's own packets and loopback pass, connection attempts go
    to the trans port, DNS queries to the DNS port, all else passes. -/
theorem allNat_output (p : Packet) (remote : p.dst ≠ localhost)
    (wire : p.outInterface ≠ loopback) :
    natOutput (allNat device ports proxy) p =
      if p.uid = device.torUid then p
      else if p.isTcpSyn then p.redirectTo proxy.mTransProxyPort
      else if p.isDnsQuery then p.redirectTo proxy.mDNSPort
      else p := by
  have rules : allNat device ports proxy =
      [ ⟨[.owner device.torUid], .accept⟩, ⟨[.outLoopback], .accept⟩,
        ⟨[.proto .tcp, .notLocalhost, .notOwner device.torUid, .tcpSyn],
          .redirect proxy.mTransProxyPort⟩,
        ⟨[.proto .udp, .notLocalhost, .notOwner device.torUid, .dport standardDnsPort],
          .redirect proxy.mDNSPort⟩ ] := rfl
  rw [rules]
  by_cases tor : p.uid = device.torUid
  · simp [natOutput, FirstMatch.verdict_cons, Rule.fires, Match.holds, tor]
  · have other : (p.uid : Int) ≠ device.torUid := by omega
    by_cases syn : p.isTcpSyn = true
    · have tcp := Packet.isTcp_of_isTcpSyn syn
      simp [natOutput, FirstMatch.verdict_cons, Rule.fires, Match.holds, tor, other, remote, wire,
        syn, tcp]
    · by_cases query : p.isDnsQuery = true
      · obtain ⟨udp, port⟩ := Packet.isDnsQuery_iff.mp query
        simp [natOutput, FirstMatch.verdict_cons, Rule.fires, Match.holds, tor, other, remote, wire,
          syn, query, udp, port]
      · have passes := mt Packet.isDnsQuery_iff.mpr query
        simp [natOutput, FirstMatch.verdict_cons, Rule.fires, Match.holds, tor, other, remote, wire,
          syn, query, passes]

/-- The packets the four ACCEPT rules of the filter chain let through; none of
    the rules looks at the destination address. -/
def Packet.toLocalService (p : Packet) : Bool :=
  (p.isTcp && (p.dport = some proxy.mTransProxyPort || p.dport = some ports.mPortHTTP ||
      p.dport = some ports.mPortSOCKS)) ||
    (p.isUdp && p.dport = some proxy.mDNSPort)

/-- "allow access to" the trans, HTTP, SOCKS and DNS ports. -/
def localAccepts : List Rule :=
  [ ⟨[.proto .tcp, .module .tcp, .dport proxy.mTransProxyPort], .accept⟩,
    ⟨[.proto .tcp, .module .tcp, .dport ports.mPortHTTP], .accept⟩,
    ⟨[.proto .tcp, .module .tcp, .dport ports.mPortSOCKS], .accept⟩,
    ⟨[.proto .udp, .module .udp, .dport proxy.mDNSPort], .accept⟩ ]

theorem localAccepts_fire (p : Packet) :
    (∃ r ∈ localAccepts ports proxy, r.fires p = true) ↔ p.toLocalService ports proxy = true := by
  simp [localAccepts, Packet.toLocalService, Rule.fires, Match.holds]
  tauto

theorem allFilter_output (p : Packet) :
    filterOutput (allFilter device ports proxy) p =
      if p.toLocalService ports proxy then .accepted p
      else if p.uid ≠ device.torUid ∧ p.dst ≠ localhost then .rejected
      else .accepted p := by
  have rules : allFilter device ports proxy =
      localAccepts ports proxy ++ [⟨[.notOwner device.torUid, .notLocalhost], .reject⟩] := rfl
  rw [rules, filterOutput, FirstMatch.verdict_append]
  -- the ACCEPT rules agree, so it only matters whether one of them fires
  have accepts : ∀ r ∈ localAccepts ports proxy, r.target = .accept := by
    intro r member
    simp only [localAccepts, List.mem_cons, List.not_mem_nil, or_false] at member
    rcases member with rfl | rfl | rfl | rfl <;> rfl
  rw [FirstMatch.verdict_of_same_target _ _ accepts]
  simp only [localAccepts_fire]
  by_cases service : p.toLocalService ports proxy = true
  · simp only [service, if_true, Option.some_or]
  · by_cases caught : p.uid ≠ device.torUid ∧ p.dst ≠ localhost
    · simp [service, caught, FirstMatch.verdict_cons, Rule.fires, Match.holds]
    · simp [service, caught, FirstMatch.verdict_cons, Rule.fires, Match.holds]

end Stages

/-! ## Containment -/

section Containment

variable (device : Device) (ports : ServicePorts) (proxy : TorTransProxy)

/-- An IPv4 packet of another user than Tor's that leaves the device. -/
structure Packet.Foreign (p : Packet) : Prop where
  ipv4 : p.family = .ipv4
  notTor : p.uid ≠ device.torUid
  remote : p.dst ≠ localhost
  wire : p.outInterface ≠ loopback

/-- Rejected, or accepted with its destination rewritten to a port of Tor on
    127.0.0.1. -/
def Fate.Contained : Fate → Prop
  | .accepted p => p.dst = localhost ∧
      (p.dport = some proxy.mTransProxyPort ∨ p.dport = some proxy.mDNSPort)
  | .rejected => True
  | .dropped => False

/-- Not redirected by the nat chain, and let through by an ACCEPT rule meant
    for the local services: TCP that is no connection attempt to the number of
    the trans, HTTP or SOCKS port, or UDP that is no DNS query to that of the
    DNS port. -/
def Packet.Exposed (p : Packet) : Prop :=
  p.toLocalService ports proxy = true ∧ p.isTcpSyn = false ∧ p.isDnsQuery = false

/-- What becomes of a foreign packet. -/
theorem foreign_fate {p : Packet} (foreign : p.Foreign device)
    (succeed : AllSucceed device (setTransparentProxyingAll device ports proxy true).issued) :
    (wholeDevice device ports proxy).fate p =
      if p.isTcpSyn then .accepted (p.redirectTo proxy.mTransProxyPort)
      else if p.isDnsQuery then .accepted (p.redirectTo proxy.mDNSPort)
      else if p.toLocalService ports proxy then .accepted p
      else .rejected := by
  have nat := allNat_output device ports proxy p foreign.remote foreign.wire
  rw [if_neg foreign.notTor] at nat
  rw [wholeDevice_eq succeed, Ruleset.fate, foreign.ipv4]
  change filterOutput (allFilter device ports proxy) (natOutput (allNat device ports proxy) p) = _
  rw [nat]
  by_cases syn : p.isTcpSyn = true
  · simp [syn, allFilter_output, Packet.redirectTo]
  · by_cases query : p.isDnsQuery = true
    · simp [syn, query, allFilter_output, Packet.redirectTo]
    · simp [syn, query, allFilter_output, foreign.notTor, foreign.remote]

/-- Tor's own packets pass both chains as they are. -/
theorem tor_fate {p : Packet} (ipv4 : p.family = .ipv4) (remote : p.dst ≠ localhost)
    (wire : p.outInterface ≠ loopback) (tor : p.uid = device.torUid)
    (succeed : AllSucceed device (setTransparentProxyingAll device ports proxy true).issued) :
    (wholeDevice device ports proxy).fate p = .accepted p := by
  have nat := allNat_output device ports proxy p remote wire
  rw [if_pos tor] at nat
  rw [wholeDevice_eq succeed, Ruleset.fate, ipv4]
  change filterOutput (allFilter device ports proxy) (natOutput (allNat device ports proxy) p) = _
  rw [nat, allFilter_output]
  simp only [tor, ne_eq, not_true, false_and, if_false, ite_self]

/-- A packet that leaves the device is steered by its owner and kind: Tor's pass
    untouched, the others' connection attempts and DNS queries go to Tor's ports
    on 127.0.0.1, and no other packet has its destination changed. -/
theorem wholeDevice_steers (p : Packet) (ipv4 : p.family = .ipv4) (remote : p.dst ≠ localhost)
    (wire : p.outInterface ≠ loopback)
    (succeed : AllSucceed device (setTransparentProxyingAll device ports proxy true).issued) :
    (p.uid = device.torUid →
      (wholeDevice device ports proxy).afterNat p = p ∧
        (wholeDevice device ports proxy).fate p = .accepted p) ∧
    (p.uid ≠ device.torUid → p.isTcpSyn = true →
      (wholeDevice device ports proxy).fate p =
        .accepted (p.redirectTo proxy.mTransProxyPort)) ∧
    (p.uid ≠ device.torUid → p.isDnsQuery = true →
      (wholeDevice device ports proxy).fate p = .accepted (p.redirectTo proxy.mDNSPort)) ∧
    (p.uid ≠ device.torUid → p.isTcpSyn = false → p.isDnsQuery = false →
      (wholeDevice device ports proxy).afterNat p = p ∧
        ((wholeDevice device ports proxy).fate p = .accepted p ∨
          (wholeDevice device ports proxy).fate p = .rejected)) := by
  have nat : (wholeDevice device ports proxy).afterNat p =
      natOutput (allNat device ports proxy) p := by
    rw [wholeDevice_eq succeed, Ruleset.afterNat, ipv4]
    rfl
  rw [nat, allNat_output device ports proxy p remote wire]
  have foreign : ∀ other : p.uid ≠ device.torUid, p.Foreign device :=
    fun other => ⟨ipv4, other, remote, wire⟩
  refine ⟨?tor, ?syn, ?query, ?rest⟩
  case tor =>
    intro tor
    exact ⟨if_pos tor, tor_fate device ports proxy ipv4 remote wire tor succeed⟩
  case syn =>
    intro other syn
    rw [foreign_fate device ports proxy (foreign other) succeed, if_pos syn]
  case query =>
    intro other query
    have noSyn : ¬ p.isTcpSyn = true := by
      intro syn
      cases (Packet.isDnsQuery_of_isTcpSyn syn).symm.trans query
    rw [foreign_fate device ports proxy (foreign other) succeed, if_neg noSyn, if_pos query]
  case rest =>
    intro other syn query
    rw [foreign_fate device ports proxy (foreign other) succeed]
    simp only [other, syn, query, if_false, Bool.false_eq_true, true_and]
    by_cases service : p.toLocalService ports proxy = true
    · exact .inl (if_pos service)
    · exact .inr (if_neg service)

/-- Whole-device mode contains a foreign packet exactly when the packet is not
    one of those the ACCEPT rules for the local ports let out. -/
theorem wholeDevice_contains_iff (p : Packet) (foreign : p.Foreign device)
    (succeed : AllSucceed device (setTransparentProxyingAll device ports proxy true).issued) :
    ((wholeDevice device ports proxy).fate p).Contained proxy ↔ ¬ p.Exposed ports proxy := by
  rw [foreign_fate device ports proxy foreign succeed]
  by_cases syn : p.isTcpSyn = true
  · have port := Packet.redirectTo_dport proxy.mTransProxyPort (Packet.dport_of_isTcpSyn syn)
    simp [syn, Fate.Contained, Packet.Exposed, port]
  · by_cases query : p.isDnsQuery = true
    · have port := Packet.redirectTo_dport proxy.mDNSPort (Packet.dport_of_isDnsQuery query)
      simp [syn, query, Fate.Contained, Packet.Exposed, port]
    · by_cases service : p.toLocalService ports proxy = true
      · simp [syn, query, service, Fate.Contained, Packet.Exposed, foreign.remote]
      · simp [syn, query, service, Fate.Contained, Packet.Exposed]

end Containment

/-- A device with the default preference. -/
def bundledDevice : Device where
  fileExists _ := false
  useSystemIpTables := false
  fileXtables := "/data/data/app/app_bin/xtables".toList
  torUid := 10100

/-- Another app opens a connection to a web server. -/
def webPacket : Packet where
  uid := 10050
  dst := .v4 0x08080808#32
  transport := .tcp ⟨true, false, false, false⟩ 443
  outInterface := "wlan0".toList

/-- UDP of another app to the number of the DNS port on a remote host. -/
def strayPacket : Packet where
  uid := 10050
  dst := .v4 0x08080808#32
  transport := .udp 5400
  outInterface := "wlan0".toList

/-- The web packet goes to the trans port. -/
theorem wholeDevice_steers_webPacket :
    (wholeDevice bundledDevice {} {}).fate webPacket =
      .accepted (webPacket.redirectTo ({} : TorTransProxy).mTransProxyPort) :=
  (wholeDevice_steers bundledDevice {} {} webPacket (by decide) (by decide) (by decide)
    (allSucceed_all rfl {} {} true)).2.1 (by decide) (by decide)

theorem wholeDevice_contains_webPacket :
    webPacket.Foreign bundledDevice ∧
      ((wholeDevice bundledDevice {} {}).fate webPacket).Contained {} :=
  have foreign : webPacket.Foreign bundledDevice :=
    ⟨by decide, by decide, by decide, by decide⟩
  ⟨foreign, (wholeDevice_contains_iff bundledDevice {} {} webPacket foreign
    (allSucceed_all rfl {} {} true)).mpr (by simp [Packet.Exposed, webPacket, Packet.isTcpSyn,
      TcpFlags.isSyn])⟩

/-- The stray packet leaves the device for its own destination. -/
theorem wholeDevice_leaks :
    strayPacket.Foreign bundledDevice ∧
      AllSucceed bundledDevice (setTransparentProxyingAll bundledDevice {} {} true).issued ∧
      (wholeDevice bundledDevice {} {}).fate strayPacket = .accepted strayPacket ∧
      ¬ ((wholeDevice bundledDevice {} {}).fate strayPacket).Contained {} := by
  have fate : (wholeDevice bundledDevice {} {}).fate strayPacket = .accepted strayPacket := by
    decide
  refine ⟨⟨by decide, by decide, by decide, by decide⟩, allSucceed_all rfl {} {} true, fate, ?_⟩
  rw [fate]
  exact fun contained => absurd contained.1 (by decide)

end Orbot.TransProxy
