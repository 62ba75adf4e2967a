import Mathlib.Data.List.Basic
import Orbot.Lib.Transition

/-! # Starting and stopping the VPN

`OrbotVpnManager` handles its intents on one thread, and starts others: each
`setupTun2Socks` one that establishes an interface and stays in tun2socks, and
before Lollipop each `startSocksBypass` one that stays in a proxy server. They
are taken step by step; that two methods are synchronized is left out, which
only adds runs.
-/

namespace Orbot.Vpn

open Lib.Transition

/-! ## Where the threads are -/

/-- The thread that handles the intents. -/
inductive MainPc where
  | idle
  | setupTun2Socks
  | stopForRestart
  | startThread
  | stopSocksBypass
  | forgetBypass
  | closeInterface
  | forgetInterface
  | stopTun2Socks
  | forgetThread
  deriving Repr, DecidableEq

/-- A thread of `setupTun2Socks`. Interfaces are numbered as they are
    established; `none` stands for null. -/
inductive SetupPc where
  | begin
  | sleep
  | startDNS
  | establish
  | closeOld (newInterface : Option Nat)
  | forgetOld (newInterface : Option Nat)
  | assign (newInterface : Option Nat)
  | readInterface
  | start (vpnInterface : Option Nat)
  | tun2Socks (vpnInterface : Nat)
  | returned
  | done
  deriving Repr, DecidableEq

/-- A thread of `startSocksBypass`. -/
inductive BypassPc where
  | check
  | stopOld
  | forgetOld
  | create
  | readServer
  | start (server : Nat)
  | serving (server : Nat)
  | done
  deriving Repr, DecidableEq

structure OrbotVpnManager where
  mIsLollipop : Bool
  mThreadVPN : Option Nat := none
  mInterface : Option Nat := none
  isRestart : Bool := false
  mSocksProxyServer : Option Nat := none
  main : MainPc := .idle
  setups : List SetupPc := []
  bypasses : List BypassPc := []
  /-- how many interfaces were established -/
  established : Nat := 0
  /-- the interfaces that are closed, or whose descriptor tun2socks has taken -/
  closed : List Nat := []
  /-- how many proxy servers were created -/
  servers : Nat := 0
  /-- the servers that listen -/
  listening : List Nat := []
  /-- a start or refresh was handled since a stop last looked at the interface -/
  requested : Bool := false
  deriving Repr, DecidableEq

/-- What the platform answers a thread. -/
inductive Input where
  | goes
  | fails
  /-- `establish` returns an interface -/
  | interface
  /-- the server gets its port -/
  | listens
  deriving Repr, DecidableEq

/-! ## Steps -/

/-- `Tun2Socks.Stop`, for which every call of `Start` waits. -/
def SetupPc.terminated : SetupPc → SetupPc
  | .tun2Socks _ => .returned
  | pc => pc

def terminateTun2Socks (s : OrbotVpnManager) : OrbotVpnManager :=
  { s with setups := s.setups.map SetupPc.terminated }

/-- `ProxyServer.stop` -/
def stopServer (server : Nat) (s : OrbotVpnManager) : OrbotVpnManager :=
  { s with listening := s.listening.filter (· ≠ server) }

/-- `mThreadVPN` is a thread that is alive. -/
def isAlive (s : OrbotVpnManager) : Bool :=
  s.mThreadVPN.any fun i => s.setups[i]? ≠ some .done

def startSocksBypass (s : OrbotVpnManager) : OrbotVpnManager :=
  { s with bypasses := s.bypasses ++ [.check] }

def mainStep (s : OrbotVpnManager) : MainPc → Input → Option OrbotVpnManager
  | .setupTun2Socks, .goes =>
      if s.mInterface.isSome then some { s with isRestart := true, main := .stopForRestart }
      else some { s with main := .startThread }
  | .stopForRestart, .goes => some { terminateTun2Socks s with main := .startThread }
  | .startThread, .goes =>
      some { s with
        mThreadVPN := some s.setups.length
        setups := s.setups ++ [.begin]
        main := .idle }
  | .stopSocksBypass, .goes =>
      match s.mSocksProxyServer with
      | some server => some { stopServer server s with main := .forgetBypass }
      | none => some { s with main := .closeInterface }
  | .forgetBypass, .goes => some { s with mSocksProxyServer := none, main := .closeInterface }
  | .closeInterface, .goes =>
      match s.mInterface with
      | some old =>
          some { s with closed := s.closed ++ [old], main := .forgetInterface, requested := false }
      | none => some { s with main := .stopTun2Socks, requested := false }
  | .closeInterface, .fails =>
      if s.mInterface.isSome then some { s with main := .stopTun2Socks, requested := false }
      else none
  | .forgetInterface, .goes => some { s with mInterface := none, main := .stopTun2Socks }
  | .stopTun2Socks, .goes => some { terminateTun2Socks s with main := .forgetThread }
  | .forgetThread, .goes => some { s with mThreadVPN := none, main := .idle }
  | _, _ => none

def setupStep (s : OrbotVpnManager) : SetupPc → Input → Option (OrbotVpnManager × SetupPc)
  | .begin, .goes => some (s, if s.isRestart then .sleep else .startDNS)
  | .sleep, .goes => some (s, .startDNS)
  | .startDNS, .goes => some (s, .establish)
  | .establish, .interface =>
      some ({ s with established := s.established + 1 }, .closeOld (some s.established))
  | .establish, .goes => some (s, .closeOld none)
  | .closeOld newInterface, .goes =>
      match s.mInterface with
      | some old => some ({ s with closed := s.closed ++ [old] }, .forgetOld newInterface)
      | none => some (s, .assign newInterface)
  | .forgetOld newInterface, .goes => some ({ s with mInterface := none }, .assign newInterface)
  | .assign newInterface, .goes => some ({ s with mInterface := newInterface }, .readInterface)
  | .readInterface, .goes => some (s, .start s.mInterface)
  | .start none, .goes => some (s, .returned)
  | .start (some vpnInterface), .goes =>
      -- the descriptor can be detached from an open interface only
      if vpnInterface ∈ s.closed then none
      else some ({ s with closed := s.closed ++ [vpnInterface] }, .tun2Socks vpnInterface)
  | .returned, .goes => some ({ s with isRestart := false }, .done)
  | .sleep, .fails | .startDNS, .fails | .establish, .fails | .closeOld _, .fails
  | .start (some _), .fails => some (s, .done)
  | _, _ => none

def bypassStep (s : OrbotVpnManager) : BypassPc → Input → Option (OrbotVpnManager × BypassPc)
  | .check, .goes => some (s, if s.mSocksProxyServer.isSome then .stopOld else .create)
  | .stopOld, .goes =>
      match s.mSocksProxyServer with
      | some server => some (stopServer server s, .forgetOld)
      | none => some (s, .create)
  | .forgetOld, .goes => some ({ s with mSocksProxyServer := none }, .create)
  | .create, .goes =>
      some ({ s with mSocksProxyServer := some s.servers, servers := s.servers + 1 }, .readServer)
  | .readServer, .goes =>
      match s.mSocksProxyServer with
      | some server => some (s, .start server)
      | none => some (s, .done)
  | .start server, .listens =>
      some ({ s with listening := s.listening ++ [server] }, .serving server)
  | .start _, .fails => some (s, .done)
  | .serving server, .goes => if server ∈ s.listening then none else some (s, .done)
  | _, _ => none

inductive VpnAction where
  | start
  | refresh
  | stop
  | main (input : Input)
  | setup (i : Nat) (input : Input)
  | bypass (i : Nat) (input : Input)
  deriving Repr, DecidableEq

/-- `handleIntent` up to its first step that others can see. -/
def handleIntent (s : OrbotVpnManager) : VpnAction → OrbotVpnManager
  | .start =>
      if isAlive s then { s with requested := true }
      else
        let s := if s.mIsLollipop then s else startSocksBypass s
        { s with main := .setupTun2Socks, requested := true }
  | .refresh =>
      let s := if s.mIsLollipop then s else startSocksBypass s
      { s with main := if s.isRestart then .idle else .setupTun2Socks, requested := true }
  | .stop => { s with main := if s.mIsLollipop then .stopSocksBypass else .closeInterface }
  | .main _ | .setup _ _ | .bypass _ _ => s

def vpnStep (s : OrbotVpnManager) : VpnAction → Option OrbotVpnManager
  | .main input => mainStep s s.main input
  | .setup i input =>
      match s.setups[i]? with
      | none => none
      | some pc => (setupStep s pc input).map fun next =>
          { next.1 with setups := next.1.setups.set i next.2 }
  | .bypass i input =>
      match s.bypasses[i]? with
      | none => none
      | some pc => (bypassStep s pc input).map fun next =>
          { next.1 with bypasses := next.1.bypasses.set i next.2 }
  | intent => if s.main = .idle then some (handleIntent s intent) else none

/-! ## A stopped VPN -/

/-- All threads have ended or stay where they are. -/
structure Settled (s : OrbotVpnManager) : Prop where
  main : s.main = .idle
  setups : ∀ pc ∈ s.setups, pc = .done ∨ ∃ vpnInterface, pc = .tun2Socks vpnInterface
  bypasses : ∀ pc ∈ s.bypasses, pc = .done ∨ ∃ server ∈ s.listening, pc = .serving server

structure HoldsNothing (s : OrbotVpnManager) : Prop where
  interface : s.mInterface = none
  tun2Socks : ∀ vpnInterface, SetupPc.tun2Socks vpnInterface ∉ s.setups
  bypass : s.listening = []

end Orbot.Vpn
