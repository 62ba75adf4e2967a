import Orbot.Lib.PendingWrites
import Orbot.Service.ExitNodes

/-! # Tor's network switch

Every broadcast about the connectivity has a fresh thread set `DisableNetwork`,
and setting the exit nodes turns the network off and on again. Nothing puts these
in order, so the last to be sent need not be what the last broadcast asks for.
-/

namespace Orbot.Service

open Java (Text)
open Lib.LastMatch Lib.Transition
open Lib.PendingWrites (Pool)

/-- The answer of `getActiveNetworkInfo`. -/
structure NetworkInfo where
  type : Int
  isConnected : Bool
  deriving Repr, DecidableEq

structure NetworkService where
  mCurrentStatus : Status
  /-- `conn` is set -/
  connected : Bool
  prefs : SharedPreferences
  mNetworkType : Int := -1
  mConnectivity : Bool := true
  /-- the threads with commands for Tor, and what Tor has received -/
  control : Pool ConfCommand := {}
  /-- the connectivity the last broadcast reported -/
  reported : Option Bool := none

namespace NetworkService

def setTorNetworkEnabled (isEnabled : Bool) (s : NetworkService) : NetworkService :=
  if s.connected then
    let command := .setConf "DisableNetwork".toList (if isEnabled then "0".toList else "1".toList)
    { s with control := s.control.spawn [command] }
  else s

/-- `mNetworkStateReceiver`, but for the refresh of transparent proxying. -/
def onReceive (netInfo : Option NetworkInfo) (s : NetworkService) : NetworkService :=
  if s.mCurrentStatus = .off then s
  else
    let doNetworKSleep := s.prefs.getBoolean "pref_disable_network".toList true
    let newNetType := (netInfo.map NetworkInfo.type).getD (-1)
    let newConnectivityState := netInfo.any NetworkInfo.isConnected
    let s := { s with mNetworkType := newNetType, mConnectivity := newConnectivityState }
    if doNetworKSleep ∧ s.mCurrentStatus ≠ .off then setTorNetworkEnabled s.mConnectivity s else s

def setExitNode (fileGeoIP fileGeoIP6 newExits : Text) (s : NetworkService) : NetworkService :=
  let (prefs, commands) := Service.setExitNode fileGeoIP fileGeoIP6 s.connected s.prefs newExits
  { s with prefs, control := s.control.spawn commands }

end NetworkService

/-! ## Steps -/

inductive NetworkAction where
  | broadcast (netInfo : Option NetworkInfo)
  | setExitNode (fileGeoIP fileGeoIP6 newExits : Text)
  /-- a thread sends its next command, and Tor accepts it -/
  | send (i : Nat)
  deriving Repr, DecidableEq

def networkStep (s : NetworkService) : NetworkAction → Option NetworkService
  | .broadcast netInfo =>
      some { s.onReceive netInfo with reported := some (netInfo.any NetworkInfo.isConnected) }
  | .setExitNode fileGeoIP fileGeoIP6 newExits =>
      some (s.setExitNode fileGeoIP fileGeoIP6 newExits)
  | .send i => (s.control.send i).map fun control => { s with control }

/-- The value a command gives to `DisableNetwork`. -/
def disableNetwork : ConfCommand → Option Text
  | .setConf key value => if key = "DisableNetwork".toList then some value else none
  | .resetConf keys => if "DisableNetwork".toList ∈ keys then some "0".toList else none

/-- What a broadcast asks for. -/
def asked (connectivity : Bool) : Text := if connectivity then "0".toList else "1".toList

/-- When no thread has anything left to send, the last value is the one that the
    last broadcast asks for. -/
def FollowsConnectivity (s : NetworkService) : Prop :=
  ∀ connectivity ∈ s.reported, s.control.Quiescent →
    setting disableNetwork s.control.received = some (asked connectivity)

/-- A value other than the one asked for is sent only while a thread is left that
    is going to end with the one asked for. -/
def CoversConnectivity (s : NetworkService) : NetworkAction → Prop
  | .send i => ∀ connectivity ∈ s.reported, s.control.Covered disableNetwork (asked connectivity) i
  | .broadcast _ | .setExitNode _ _ _ => True

instance (s : NetworkService) : (a : NetworkAction) → Decidable (CoversConnectivity s a)
  | .send i => inferInstanceAs (Decidable (∀ connectivity ∈ s.reported,
      s.control.Covered disableNetwork (asked connectivity) i))
  | .broadcast _ | .setExitNode _ _ _ => .isTrue trivial

/-- Tor runs and is connected, and the network is to sleep without connectivity. -/
structure Sleeps (s : NetworkService) : Prop where
  running : s.mCurrentStatus ≠ .off
  connected : s.connected = true
  sleep : s.prefs.getBoolean "pref_disable_network".toList true = true

/-! ## What a step keeps -/

/-- The value asked for is there or may yet come. -/
structure Settling (s : NetworkService) : Prop where
  sleeps : Sleeps s
  settles : ∀ connectivity ∈ s.reported, s.control.Settles disableNetwork (asked connectivity)

namespace Settling

variable {s s' : NetworkService}

theorem broadcast (sleeps : Sleeps s) (netInfo : Option NetworkInfo) :
    Settling { s.onReceive netInfo with
      reported := some (netInfo.any NetworkInfo.isConnected) } := by
  obtain ⟨running, connected, sleep⟩ := sleeps
  have received : s.onReceive netInfo = { s with
      mNetworkType := (netInfo.map NetworkInfo.type).getD (-1)
      mConnectivity := netInfo.any NetworkInfo.isConnected
      control := s.control.spawn [.setConf "DisableNetwork".toList
        (asked (netInfo.any NetworkInfo.isConnected))] } := by
    simp only [NetworkService.onReceive, sleep, true_and, ne_eq, running, not_false_eq_true,
      if_true, if_false, NetworkService.setTorNetworkEnabled, connected]
    rfl
  rw [received]
  constructor
  case sleeps => exact ⟨running, connected, sleep⟩
  intro connectivity is
  obtain rfl := Option.some.inj is
  apply Pool.settles_spawn
  rw [setting_singleton, disableNetwork, if_pos rfl]

theorem setExitNode (settling : Settling s) (fileGeoIP fileGeoIP6 newExits : Text) :
    Settling (s.setExitNode fileGeoIP fileGeoIP6 newExits) := by
  obtain ⟨⟨running, connected, sleep⟩, settles⟩ := settling
  have agree := setExitNode_agree fileGeoIP fileGeoIP6 s.prefs newExits
  constructor
  case settles =>
    intro connectivity is
    exact (settles connectivity is).spawn _
  have same := agree.getBoolean "pref_disable_network".toList true
  refine ⟨running, connected, ?_⟩
  simp only [NetworkService.setExitNode, connected]
  exact same.trans sleep

theorem step (settling : Settling s) {a : NetworkAction} (covers : CoversConnectivity s a)
    (taken : networkStep s a = some s') : Settling s' := by
  cases a with
  | broadcast netInfo =>
      obtain rfl := Option.some.inj taken
      exact broadcast settling.sleeps netInfo
  | setExitNode fileGeoIP fileGeoIP6 newExits =>
      obtain rfl := Option.some.inj taken
      exact settling.setExitNode fileGeoIP fileGeoIP6 newExits
  | send i =>
      obtain ⟨control, sent, rfl⟩ := Option.map_eq_some_iff.mp taken
      refine ⟨⟨settling.sleeps.running, settling.sleeps.connected, settling.sleeps.sleep⟩, ?_⟩
      intro connectivity is
      exact (settling.settles connectivity is).send (covers connectivity is) sent

end Settling

/-- In a run in which no other value has the last word, the switch follows the
    connectivity. -/
theorem network_follows {start s : NetworkService} (sleeps : Sleeps start)
    (first : start.reported = none)
    (reached : Reaches networkStep CoversConnectivity start s) : FollowsConnectivity s := by
  have initial : Settling start := ⟨sleeps, fun _ is => by rw [first] at is; cases is⟩
  have settling := reached.invariant initial fun _ _ _ settling covers taken =>
    settling.step covers taken
  exact fun connectivity is quiescent => (settling.settles connectivity is).quiescent quiescent

/-- Nothing less is enough: once another value has the last word, then whatever
    is still to be sent, in whatever order, the network is not as it was asked
    to be when all is sent. -/
theorem network_lost {s s' : NetworkService} {i : Nat} {connectivity : Bool}
    (is : s.reported = some connectivity)
    (uncovered : ¬ CoversConnectivity s (.send i)) (taken : networkStep s (.send i) = some s') :
    (∃ control, Reachable Pool.send s'.control control ∧ control.Quiescent) ∧
      ∀ control, Reachable Pool.send s'.control control → control.Quiescent →
        setting disableNetwork control.received ≠ some (asked connectivity) := by
  obtain ⟨control, sent, rfl⟩ := Option.map_eq_some_iff.mp taken
  have wrong : ¬ s.control.Covered disableNetwork (asked connectivity) i := by
    intro covered
    apply uncovered
    intro connectivity' is'
    obtain rfl := Option.some.inj (is.symm.trans is')
    exact covered
  have lost := Pool.lost_of_not_covered wrong sent
  exact ⟨control.exists_quiescent, fun later sends quiescent => lost.forever sends quiescent⟩

/-! ## Two runs -/

/-- A Tor that is on. -/
def onNetwork : NetworkService where
  mCurrentStatus := .on
  connected := true
  prefs := .of [] []

def wifi : NetworkInfo := ⟨1, true⟩

/-- `SETCONF DisableNetwork`. -/
def switchNetwork (value : Text) : ConfCommand := .setConf "DisableNetwork".toList value

def resetExits : ConfCommand := .resetConf ["ExitNodes".toList, "StrictNodes".toList]

/-- The connectivity is lost and comes back; exit nodes are reset meanwhile. -/
theorem network_follows_wifi : ∃ s, Reaches networkStep CoversConnectivity onNetwork s ∧
    s.control.Quiescent ∧ setting disableNetwork s.control.received = some "0".toList := by
  let s : NetworkService := { onNetwork with
    prefs := onNetwork.prefs.remove "pref_exit_nodes".toList
    mNetworkType := 1
    control :=
      { pending := [[], [], []]
        received := [resetExits, switchNetwork "1".toList, switchNetwork "0".toList,
          switchNetwork "1".toList, switchNetwork "0".toList] }
    reported := some true }
  have reached : Reaches networkStep CoversConnectivity onNetwork s := reaches_of_run
    [.broadcast none, .setExitNode [] [] [], .send 1, .send 1, .send 1, .send 0,
      .broadcast (some wifi), .send 2] rfl
  have sleeps : Sleeps onNetwork := ⟨by decide, rfl, rfl⟩
  have quiescent : s.control.Quiescent := by decide
  exact ⟨s, reached, quiescent, network_follows sleeps rfl reached true rfl quiescent⟩

/-- Setting exit nodes wakes a network that is to sleep, and the thread of a
    broadcast that is over puts one to sleep that is to be awake. -/
theorem network_astray :
    (∃ s, Reachable networkStep onNetwork s ∧ s.control.Quiescent ∧ s.reported = some false ∧
      setting disableNetwork s.control.received = some "0".toList ∧ ¬ FollowsConnectivity s) ∧
    ∃ s, Reachable networkStep onNetwork s ∧ s.control.Quiescent ∧ s.reported = some true ∧
      setting disableNetwork s.control.received = some "1".toList ∧ ¬ FollowsConnectivity s := by
  let woken : NetworkService := { onNetwork with
    prefs := onNetwork.prefs.remove "pref_exit_nodes".toList
    mConnectivity := false
    control :=
      { pending := [[], []]
        received := [switchNetwork "1".toList, resetExits, switchNetwork "1".toList,
          switchNetwork "0".toList] }
    reported := some false }
  let asleep : NetworkService := { onNetwork with
    mNetworkType := 1
    control :=
      { pending := [[], []], received := [switchNetwork "0".toList, switchNetwork "1".toList] }
    reported := some true }
  have first : Reachable networkStep onNetwork woken := reachable_of_run
    [.broadcast none, .send 0, .setExitNode [] [] [], .send 1, .send 1, .send 1] rfl
  have second : Reachable networkStep onNetwork asleep := reachable_of_run
    [.broadcast none, .broadcast (some wifi), .send 1, .send 0] rfl
  have wakes : setting disableNetwork woken.control.received = some "0".toList := rfl
  have sleeps : setting disableNetwork asleep.control.received = some "1".toList := rfl
  have through : woken.control.Quiescent ∧ asleep.control.Quiescent := by decide
  have wokenAstray : ¬ FollowsConnectivity woken := by
    intro follows
    have asks := wakes.symm.trans (follows false rfl through.1)
    exact absurd asks (by decide)
  have asleepAstray : ¬ FollowsConnectivity asleep := by
    intro follows
    have asks := sleeps.symm.trans (follows true rfl through.2)
    exact absurd asks (by decide)
  exact ⟨⟨woken, first, through.1, rfl, wakes, wokenAstray⟩,
    asleep, second, through.2, rfl, sleeps, asleepAstray⟩

end Orbot.Service
