import Orbot.Lib.FirstMatch
import Orbot.TorServiceConstants
import Orbot.TransProxy.Command

/-! # The kernel side: rule sets and locally generated packets

The rules of every chain are kept in one list in the order they were appended,
each with the chain it belongs to. A locally generated packet passes the nat
OUTPUT chain, which may rewrite its destination, and then the filter OUTPUT
chain; the policy of both is ACCEPT.
-/

namespace Orbot.TransProxy

open Java (Text)
open Lib

/-! ## Packets -/

inductive Address where
  | v4 (bits : BitVec 32)
  | v6 (bits : BitVec 128)
  deriving Repr, DecidableEq

/-- The interface `lo`. -/
def loopback : Text := "lo".toList

/-- 127.0.0.1 -/
def localhost : Address := .v4 0x7f000001#32

structure TcpFlags where
  syn : Bool
  rst : Bool
  ack : Bool
  fin : Bool
  deriving Repr, DecidableEq

/-- `--syn` looks at these four flags and wants SYN alone. -/
def TcpFlags.isSyn (f : TcpFlags) : Bool :=
  f.syn && !f.rst && !f.ack && !f.fin

inductive Transport where
  | tcp (flags : TcpFlags) (dport : Int)
  | udp (dport : Int)
  | other (protocol : Nat)
  deriving Repr, DecidableEq

/-- A packet with the fields the rules look at. `uid` owns its socket. -/
structure Packet where
  uid : Nat
  dst : Address
  transport : Transport
  outInterface : Text
  /-- absent on the packets of the OUTPUT chains -/
  inInterface : Option Text := none
  deriving Repr, DecidableEq

def Packet.family (p : Packet) : Family :=
  match p.dst with
  | .v4 _ => .ipv4
  | .v6 _ => .ipv6

def Packet.dport (p : Packet) : Option Int :=
  match p.transport with
  | .tcp _ port => some port
  | .udp port => some port
  | .other _ => none

def Packet.isTcp (p : Packet) : Bool :=
  match p.transport with
  | .tcp _ _ => true
  | _ => false

def Packet.isUdp (p : Packet) : Bool :=
  match p.transport with
  | .udp _ => true
  | _ => false

def Packet.isTcpSyn (p : Packet) : Bool :=
  match p.transport with
  | .tcp flags _ => flags.isSyn
  | _ => false

/-- A DNS query over UDP. -/
def Packet.isDnsQuery (p : Packet) : Bool :=
  p.isUdp && p.dport = some standardDnsPort

/-- REDIRECT on a locally generated packet: the destination becomes 127.0.0.1
    and the given port. -/
def Packet.redirectTo (p : Packet) (port : Int) : Packet :=
  { p with
    dst := localhost
    transport :=
      match p.transport with
      | .tcp flags _ => .tcp flags port
      | .udp _ => .udp port
      | .other protocol => .other protocol }

@[simp] theorem Packet.redirectTo_dst (p : Packet) (port : Int) :
    (p.redirectTo port).dst = localhost := rfl

theorem Packet.redirectTo_dport {p : Packet} (port : Int) (ports : p.dport ≠ none) :
    (p.redirectTo port).dport = some port := by
  cases kind : p.transport with
  | tcp | udp => simp only [Packet.dport, Packet.redirectTo, kind]
  | other => simp [Packet.dport, kind] at ports

theorem Packet.isTcp_of_isTcpSyn {p : Packet} (syn : p.isTcpSyn = true) : p.isTcp = true := by
  cases kind : p.transport with
  | tcp => simp only [Packet.isTcp, kind]
  | udp | other => simp [Packet.isTcpSyn, kind] at syn

theorem Packet.dport_of_isTcpSyn {p : Packet} (syn : p.isTcpSyn = true) : p.dport ≠ none := by
  cases kind : p.transport with
  | tcp => simp [Packet.dport, kind]
  | udp | other => simp [Packet.isTcpSyn, kind] at syn

theorem Packet.isDnsQuery_iff {p : Packet} :
    p.isDnsQuery = true ↔ p.isUdp = true ∧ p.dport = some standardDnsPort := by
  simp only [Packet.isDnsQuery, Bool.and_eq_true, decide_eq_true_eq]

theorem Packet.dport_of_isDnsQuery {p : Packet} (query : p.isDnsQuery = true) : p.dport ≠ none := by
  simp [(Packet.isDnsQuery_iff.mp query).2]

theorem Packet.isDnsQuery_of_isTcpSyn {p : Packet} (syn : p.isTcpSyn = true) :
    p.isDnsQuery = false := by
  cases kind : p.transport with
  | tcp => simp [Packet.isDnsQuery, Packet.isUdp, kind]
  | udp | other => simp [Packet.isTcpSyn, kind] at syn

/-! ## Rules -/

def Match.holds (p : Packet) : Match → Bool
  | .proto .tcp => p.isTcp
  | .proto .udp => p.isUdp
  | .notLocalhost => p.dst ≠ localhost
  | .inInterface name => p.inInterface = some name
  | .outLoopback => p.outInterface = loopback
  | .owner uid => (p.uid : Int) = uid
  | .notOwner uid => (p.uid : Int) ≠ uid
  | .tcpSyn => p.isTcpSyn
  | .module _ => true
  | .dport port => p.dport = some port

def Rule.fires (r : Rule) (p : Packet) : Bool :=
  r.conditions.all (Match.holds p)

structure Slot where
  family : Family
  table : Table
  chain : Chain
  deriving Repr, DecidableEq

/-- Every rule of every chain, oldest first. -/
abbrev Ruleset := List (Slot × Rule)

namespace Ruleset

def chain (rules : Ruleset) (slot : Slot) : List Rule :=
  (rules.filter (·.1 = slot)).map Prod.snd

theorem chain_cons (slot slot' : Slot) (r : Rule) (rules : Ruleset) :
    chain ((slot', r) :: rules) slot =
      if slot' = slot then r :: chain rules slot else chain rules slot := by
  by_cases same : slot' = slot
  · simp [chain, same]
  · simp [chain, same]

theorem chain_flatMap {α : Type} (xs : List α) (added : α → Ruleset) (slot : Slot) :
    chain (xs.flatMap added) slot = xs.flatMap fun x => chain (added x) slot := by
  simp only [chain, List.filter_flatMap, List.map_flatMap]

end Ruleset

/-! ## Traversal -/

/-- What becomes of a packet: accepted as it then is, or stopped. -/
inductive Fate where
  | accepted (p : Packet)
  | rejected
  | dropped
  deriving Repr, DecidableEq

def natOutput (chain : List Rule) (p : Packet) : Packet :=
  match FirstMatch.verdict Rule.fires Rule.target chain p with
  | some (.redirect port) => p.redirectTo port
  | _ => p

def filterOutput (chain : List Rule) (p : Packet) : Fate :=
  match FirstMatch.verdict Rule.fires Rule.target chain p with
  | some .drop => .dropped
  | some .reject => .rejected
  | _ => .accepted p

/-- The fate of a locally generated packet. -/
def Ruleset.fate (rules : Ruleset) (p : Packet) : Fate :=
  filterOutput (rules.chain ⟨p.family, .filter, .output⟩)
    (natOutput (rules.chain ⟨p.family, .nat, .output⟩) p)

/-- The packet as the filter chain gets it. -/
def Ruleset.afterNat (rules : Ruleset) (p : Packet) : Packet :=
  natOutput (rules.chain ⟨p.family, .nat, .output⟩) p

end Orbot.TransProxy
