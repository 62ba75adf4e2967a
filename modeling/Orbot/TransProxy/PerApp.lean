import Orbot.TransProxy.WholeDevice

/-! # Per-app mode

The rule set of `setTransparentProxyingByApp`. The loop over the apps appends
to three chains at once; each of them ends up with one rule for each selected
uid, all with the same target, so that the order of the apps and repeated uids
make no difference to a packet.
-/

namespace Orbot.TransProxy

open Lib

/-- The rules after per-app mode was switched on over empty chains. -/
def perApp (device : Device) (proxy : TorTransProxy) (apps : List TorifiedApp) : Ruleset :=
  Ruleset.execAll device [] (setTransparentProxyingByApp device proxy apps true).issued

theorem perApp_eq {device : Device} {proxy : TorTransProxy} {apps : List TorifiedApp}
    (succeed : AllSucceed device (setTransparentProxyingByApp device proxy apps true).issued) :
    perApp device proxy apps = byAppEntries proxy apps true := by
  rw [perApp, Ruleset.execAll_appends [] succeed
    (setTransparentProxyingByApp_action device proxy apps true),
    setTransparentProxyingByApp_entries, List.nil_append]

/-- An app the enabling loop issues rules for. -/
structure TorifiedApp.Captured (app : TorifiedApp) : Prop where
  torified : app.torified = true
  notTor : app.username ≠ torAppUsername

theorem mem_selected {apps : List TorifiedApp} {app : TorifiedApp} :
    app ∈ selected true apps ↔ app ∈ apps ∧ app.Captured := by
  simp only [selected, List.mem_filter, Bool.not_true, Bool.false_or, Bool.and_eq_true,
    decide_eq_true_eq]
  exact and_congr_right fun _ => ⟨fun both => ⟨both.1, both.2⟩,
    fun captured => ⟨captured.torified, captured.notTor⟩⟩

/-! ## The chains -/

section Chains

variable (transPort : Int) (uids : List Nat)

def dropRule (uid : Nat) : Rule := ⟨[.owner uid], .drop⟩

def redirectRule (uid : Nat) : Rule :=
  ⟨[.proto .tcp, .notLocalhost, .owner uid, .tcpSyn], .redirect transPort⟩

def rejectRule (uid : Nat) : Rule := ⟨[.owner uid, .notLocalhost], .reject⟩

theorem appEntries_chain6 :
    Ruleset.chain (uids.flatMap (appEntries transPort)) ⟨.ipv6, .filter, .output⟩ =
      uids.map dropRule := by
  rw [Ruleset.chain_flatMap, List.map_eq_flatMap]
  rfl

theorem appEntries_nat :
    Ruleset.chain (uids.flatMap (appEntries transPort)) ⟨.ipv4, .nat, .output⟩ =
      uids.map (redirectRule transPort) := by
  rw [Ruleset.chain_flatMap, List.map_eq_flatMap]
  rfl

theorem appEntries_filter :
    Ruleset.chain (uids.flatMap (appEntries transPort)) ⟨.ipv4, .filter, .output⟩ =
      uids.map rejectRule := by
  rw [Ruleset.chain_flatMap, List.map_eq_flatMap]
  rfl

/-- Nothing is added to the IPv6 nat chain. -/
theorem appEntries_nat6 :
    Ruleset.chain (uids.flatMap (appEntries transPort)) ⟨.ipv6, .nat, .output⟩ = [] := by
  rw [Ruleset.chain_flatMap]
  exact List.flatMap_eq_nil_iff.mpr fun _ _ => rfl

variable (p : Packet)

theorem dropRules_output :
    filterOutput (uids.map dropRule) p = if p.uid ∈ uids then .dropped else .accepted p := by
  have same : ∀ r ∈ uids.map dropRule, r.target = .drop := by
    intro r member
    obtain ⟨uid, _, rfl⟩ := List.mem_map.mp member
    rfl
  have fires : (∃ r ∈ uids.map dropRule, r.fires p = true) ↔ p.uid ∈ uids := by
    simp [dropRule, Rule.fires, Match.holds]
  rw [filterOutput, FirstMatch.verdict_of_same_target _ _ same]
  simp only [fires]
  by_cases owned : p.uid ∈ uids
  · simp only [if_pos owned]
  · simp only [if_neg owned]

theorem rejectRules_output :
    filterOutput (uids.map rejectRule) p =
      if p.uid ∈ uids ∧ p.dst ≠ localhost then .rejected else .accepted p := by
  have same : ∀ r ∈ uids.map rejectRule, r.target = .reject := by
    intro r member
    obtain ⟨uid, _, rfl⟩ := List.mem_map.mp member
    rfl
  have fires : (∃ r ∈ uids.map rejectRule, r.fires p = true) ↔
      p.uid ∈ uids ∧ p.dst ≠ localhost := by
    simp [rejectRule, Rule.fires, Match.holds]
  rw [filterOutput, FirstMatch.verdict_of_same_target _ _ same]
  simp only [fires]
  by_cases caught : p.uid ∈ uids ∧ p.dst ≠ localhost
  · simp only [if_pos caught]
  · simp only [if_neg caught]

/-- The nat chain starts with the DNS rule, which looks at no owner. -/
theorem redirectRules_output (dnsPort : Int) :
    natOutput (⟨[.proto .udp, .dport standardDnsPort], .redirect dnsPort⟩ ::
        uids.map (redirectRule transPort)) p =
      if p.isDnsQuery then p.redirectTo dnsPort
      else if p.uid ∈ uids ∧ p.isTcpSyn ∧ p.dst ≠ localhost then p.redirectTo transPort
      else p := by
  have same : ∀ r ∈ uids.map (redirectRule transPort), r.target = .redirect transPort := by
    intro r member
    obtain ⟨uid, _, rfl⟩ := List.mem_map.mp member
    rfl
  have fires : (∃ r ∈ uids.map (redirectRule transPort), r.fires p = true) ↔
      p.uid ∈ uids ∧ p.isTcpSyn ∧ p.dst ≠ localhost := by
    simp [redirectRule, Rule.fires, Match.holds]
    have tcp := @Packet.isTcp_of_isTcpSyn p
    tauto
  have dns : Rule.fires ⟨[.proto .udp, .dport standardDnsPort], .redirect dnsPort⟩ p =
      p.isDnsQuery := by
    simp [Rule.fires, Match.holds, Packet.isDnsQuery]
  rw [natOutput, FirstMatch.verdict_cons, FirstMatch.verdict_of_same_target _ _ same, dns]
  simp only [fires]
  by_cases query : p.isDnsQuery = true
  · simp only [if_pos query]
  · by_cases caught : p.uid ∈ uids ∧ p.isTcpSyn ∧ p.dst ≠ localhost
    · simp only [if_neg query, if_pos caught]
    · simp only [if_neg query, if_neg caught]

end Chains

/-! ## What becomes of a packet -/

section Fates

variable {device : Device} {proxy : TorTransProxy} {apps : List TorifiedApp} {p : Packet}

/-- The uids the loop issues rules for, one for each selected app. -/
def capturedUids (apps : List TorifiedApp) : List Nat :=
  (selected true apps).map TorifiedApp.uid

theorem mem_capturedUids {uid : Nat} :
    uid ∈ capturedUids apps ↔ ∃ app ∈ apps, app.Captured ∧ app.uid = uid := by
  simp only [capturedUids, List.mem_map, mem_selected, and_assoc]

theorem perApp_fate6
    (succeed : AllSucceed device (setTransparentProxyingByApp device proxy apps true).issued)
    (ipv6 : p.family = .ipv6) :
    (perApp device proxy apps).fate p =
      if p.uid ∈ capturedUids apps then .dropped else .accepted p := by
  have nat : (byAppEntries proxy apps true).chain ⟨.ipv6, .nat, .output⟩ = [] := by
    rw [byAppEntries, Ruleset.chain_cons, if_neg (by decide), appEntries_nat6]
  have filter : (byAppEntries proxy apps true).chain ⟨.ipv6, .filter, .output⟩ =
      (capturedUids apps).map dropRule := by
    rw [byAppEntries, Ruleset.chain_cons, if_neg (by decide), appEntries_chain6]
    rfl
  have unchanged : natOutput [] p = p := rfl
  rw [perApp_eq succeed, Ruleset.fate, ipv6, nat, filter, unchanged, dropRules_output]

theorem perApp_fate4
    (succeed : AllSucceed device (setTransparentProxyingByApp device proxy apps true).issued)
    (ipv4 : p.family = .ipv4) :
    (perApp device proxy apps).fate p =
      if p.isDnsQuery then .accepted (p.redirectTo proxy.mDNSPort)
      else if p.uid ∈ capturedUids apps ∧ p.dst ≠ localhost then
        if p.isTcpSyn then .accepted (p.redirectTo proxy.mTransProxyPort) else .rejected
      else .accepted p := by
  have nat : (byAppEntries proxy apps true).chain ⟨.ipv4, .nat, .output⟩ =
      ⟨[.proto .udp, .dport standardDnsPort], .redirect proxy.mDNSPort⟩ ::
        (capturedUids apps).map (redirectRule proxy.mTransProxyPort) := by
    rw [byAppEntries, Ruleset.chain_cons, if_pos rfl, appEntries_nat]
    rfl
  have filter : (byAppEntries proxy apps true).chain ⟨.ipv4, .filter, .output⟩ =
      (capturedUids apps).map rejectRule := by
    rw [byAppEntries, Ruleset.chain_cons, if_neg (by decide), appEntries_filter]
    rfl
  rw [perApp_eq succeed, Ruleset.fate, ipv4, nat, filter, redirectRules_output]
  by_cases query : p.isDnsQuery = true
  · -- once redirected the packet goes to 127.0.0.1, which no REJECT rule matches
    simp [query, rejectRules_output]
  · by_cases caught : p.uid ∈ capturedUids apps ∧ p.dst ≠ localhost
    · by_cases syn : p.isTcpSyn = true
      · simp [query, caught, syn, rejectRules_output]
      · simp [query, caught, syn, rejectRules_output]
    · have passes : ¬ (p.uid ∈ capturedUids apps ∧ p.isTcpSyn = true ∧ p.dst ≠ localhost) :=
        fun passes => caught ⟨passes.1, passes.2.2⟩
      simp only [query, if_neg passes, if_neg caught, rejectRules_output, Bool.false_eq_true,
        if_false]

/-- Per-app mode leaks nothing of a captured app and spares all others: the
    connection attempts and DNS queries of the app go to Tor, whatever else it
    sends is stopped, and of the packets of other users only IPv4 DNS queries
    are touched. -/
theorem perApp_contains_and_spares (device : Device) (proxy : TorTransProxy)
    (apps : List TorifiedApp)
    (succeed : AllSucceed device (setTransparentProxyingByApp device proxy apps true).issued) :
    (∀ app ∈ apps, app.torified = true → app.username ≠ torAppUsername →
      ∀ p : Packet, p.uid = app.uid →
        (p.family = .ipv4 → p.dst ≠ localhost →
          (perApp device proxy apps).fate p =
            if p.isTcpSyn then .accepted (p.redirectTo proxy.mTransProxyPort)
            else if p.isDnsQuery then .accepted (p.redirectTo proxy.mDNSPort)
            else .rejected) ∧
        (p.family = .ipv6 → (perApp device proxy apps).fate p = .dropped)) ∧
      (∀ p : Packet, (∀ app ∈ apps, app.torified = true → app.username ≠ torAppUsername →
          p.uid ≠ app.uid) →
        ¬ (p.family = .ipv4 ∧ p.isDnsQuery = true) →
          (perApp device proxy apps).fate p = .accepted p) := by
  constructor
  · intro app member torified notTor p owner
    have owned : p.uid ∈ capturedUids apps :=
      mem_capturedUids.mpr ⟨app, member, ⟨torified, notTor⟩, owner.symm⟩
    constructor
    · intro ipv4 remote
      have caught : p.uid ∈ capturedUids apps ∧ p.dst ≠ localhost := ⟨owned, remote⟩
      rw [perApp_fate4 succeed ipv4, if_pos caught]
      by_cases syn : p.isTcpSyn = true
      · have noQuery : p.isDnsQuery = false := Packet.isDnsQuery_of_isTcpSyn syn
        simp only [syn, noQuery, Bool.false_eq_true, if_false, if_true]
      · simp only [syn, Bool.false_eq_true, if_false]
    · intro ipv6
      rw [perApp_fate6 succeed ipv6, if_pos owned]
  · intro p other noQuery
    have notOwned : p.uid ∉ capturedUids apps := by
      intro owned
      obtain ⟨app, member, captured, owner⟩ := mem_capturedUids.mp owned
      exact other app member captured.torified captured.notTor owner.symm
    cases family : p.family with
    | ipv4 =>
        have plain : ¬ p.isDnsQuery = true := fun query => noQuery ⟨family, query⟩
        rw [perApp_fate4 succeed family, if_neg plain, if_neg fun caught => notOwned caught.1]
    | ipv6 => rw [perApp_fate6 succeed family, if_neg notOwned]

end Fates

/-- Two apps that share a uid, and one that is not torified. -/
def sharedUidApps : List TorifiedApp :=
  [ { uid := 10050, username := "shared".toList, torified := true },
    { uid := 10051, username := "plain".toList },
    { uid := 10050, username := "shared".toList, torified := true } ]

theorem perApp_contains_and_spares_sharedUid :
    (perApp bundledDevice {} sharedUidApps).fate strayPacket = .rejected ∧
      (perApp bundledDevice {} sharedUidApps).fate { strayPacket with uid := 10051 } =
        .accepted { strayPacket with uid := 10051 } := by
  have holds := perApp_contains_and_spares bundledDevice {} sharedUidApps
    (allSucceed_byApp rfl {} sharedUidApps true)
  constructor
  · exact ((holds.1 _ (List.mem_cons_self ..) rfl (by decide) strayPacket rfl).1 rfl
      (by decide)).trans (by decide)
  · exact holds.2 { strayPacket with uid := 10051 } (by decide) (by decide)

end Orbot.TransProxy
