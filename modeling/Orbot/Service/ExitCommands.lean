import Mathlib.Tactic.IntervalCases
import Orbot.Control.Connection
import Orbot.Service.ExitNodes

/-! # An exit policy that is changed half way

`setExitNode` writes its preference first. The commands follow one by one, and
the first that is rejected or fails is the last: what was set stays set, and
what was to come is left out.
-/

namespace Orbot.Service

open Java (Text)
open Control (ReplyLine callResult)

/-- What becomes of a command that is sent. -/
inductive Exchange where
  /-- Tor carries out the commands it answers without an error -/
  | replied (lst : List ReplyLine)
  /-- an exception without a reply; the command may have reached Tor -/
  | fails (reached : Bool)
  deriving Repr, DecidableEq

namespace Exchange

/-- The call returns. -/
def returns : Exchange → Bool
  | replied lst => (callResult lst).isOk
  | fails _ => false

/-- Tor carries out the command. -/
def takesEffect : Exchange → Bool
  | replied lst => (callResult lst).isOk
  | fails reached => reached

theorem takesEffect_of_returns {exchange : Exchange} (ok : exchange.returns = true) :
    exchange.takesEffect = true := by
  cases exchange with
  | replied lst => exact ok
  | fails reached => cases ok

end Exchange

/-- Send the commands up to the first whose call throws; `exchanges n` is what
    becomes of the one with number `n`. -/
def sendCommands (config : TorConfig) : List ConfCommand → (Nat → Exchange) → TorConfig
  | [], _ => config
  | command :: rest, exchanges =>
      let config := if (exchanges 0).takesEffect then command.apply config else config
      if (exchanges 0).returns then sendCommands config rest fun n => exchanges (n + 1) else config

/-- Tor carries out the command with this number. -/
def CarriedOut (exchanges : Nat → Exchange) (n : Nat) : Prop :=
  (∀ i < n, (exchanges i).returns = true) ∧ (exchanges n).takesEffect = true

/-- How many of the first `n` commands are carried out. -/
def carriedOut : Nat → (Nat → Exchange) → Nat
  | 0, _ => 0
  | n + 1, exchanges =>
      if (exchanges 0).returns then carriedOut n (fun i => exchanges (i + 1)) + 1
      else if (exchanges 0).takesEffect then 1 else 0

theorem carriedOut_le (n : Nat) (exchanges : Nat → Exchange) : carriedOut n exchanges ≤ n := by
  induction n generalizing exchanges with
  | zero => exact le_rfl
  | succ n ih =>
      have later := ih fun i => exchanges (i + 1)
      rw [carriedOut]
      split_ifs <;> omega

theorem carriedOut_succ {exchanges : Nat → Exchange} (n : Nat) :
    CarriedOut exchanges (n + 1) ↔
      (exchanges 0).returns = true ∧ CarriedOut (fun i => exchanges (i + 1)) n := by
  constructor
  · rintro ⟨before, effect⟩
    exact ⟨before 0 (by omega), fun i inside => before (i + 1) (by omega), effect⟩
  · rintro ⟨first, before, effect⟩
    apply And.intro _ effect
    intro i inside
    cases i with
    | zero => exact first
    | succ i => exact before i (by omega)

theorem lt_carriedOut_iff {k n : Nat} (inside : k < n) (exchanges : Nat → Exchange) :
    k < carriedOut n exchanges ↔ CarriedOut exchanges k := by
  induction n generalizing k exchanges with
  | zero => omega
  | succ n ih =>
      rw [carriedOut]
      cases k with
      | zero =>
          have first : CarriedOut exchanges 0 ↔ (exchanges 0).takesEffect = true :=
            ⟨fun carried => carried.2, fun effect => ⟨fun i none => by omega, effect⟩⟩
          rw [first]
          by_cases ok : (exchanges 0).returns = true
          · simp only [ok, if_true, Nat.zero_lt_succ, Exchange.takesEffect_of_returns ok]
          · by_cases effect : (exchanges 0).takesEffect = true
            · simp [ok, effect]
            · simp [ok, effect]
      | succ k =>
          rw [carriedOut_succ, ← ih (by omega)]
          by_cases ok : (exchanges 0).returns = true
          · simp only [ok, if_true, true_and, Nat.succ_lt_succ_iff]
          · simp only [ok, Bool.false_eq_true, if_false, false_and, iff_false]
            split_ifs <;> omega

/-- What is sent amounts to a first part of the commands. -/
theorem sendCommands_eq (config : TorConfig) (commands : List ConfCommand)
    (exchanges : Nat → Exchange) :
    sendCommands config commands exchanges =
      (commands.take (carriedOut commands.length exchanges)).foldl ConfCommand.apply config := by
  induction commands generalizing config exchanges with
  | nil => rfl
  | cons command rest ih =>
      rw [sendCommands, List.length_cons, carriedOut]
      by_cases ok : (exchanges 0).returns = true
      · simp only [ok, Exchange.takesEffect_of_returns ok, if_true, List.take_succ_cons,
          List.foldl_cons, ih]
      · by_cases effect : (exchanges 0).takesEffect = true
        · simp [ok, effect]
        · simp [ok, effect]

/-! ## Both copies of the exit nodes -/

/-- No exit nodes are an empty preference, or none. -/
def AgreeOnExits (prefs : SharedPreferences) (config : TorConfig) : Prop :=
  prefs.getString "pref_exit_nodes".toList [] = (config "ExitNodes".toList).getD []

def NetworkEnabled (config : TorConfig) : Prop :=
  (config "DisableNetwork".toList).getD "0".toList = "0".toList

instance (prefs : SharedPreferences) (config : TorConfig) : Decidable (AgreeOnExits prefs config) :=
  inferInstanceAs (Decidable (_ = _))

instance (config : TorConfig) : Decidable (NetworkEnabled config) :=
  inferInstanceAs (Decidable (_ = _))

/-- The number of the command that changes `ExitNodes`. -/
def exitNodesCommand (newExits : Text) : Nat := if newExits = [] then 0 else 2

/-- The number of the command that disables the network; the one behind it
    enables it again. -/
def disableCommand (newExits : Text) : Nat := if newExits = [] then 1 else 4

section Cut

variable (fileGeoIP fileGeoIP6 : Text) (prefs : SharedPreferences) (config : TorConfig)
  (newExits : Text)

theorem setExitNode_length :
    (setExitNode fileGeoIP fileGeoIP6 true prefs newExits).2.length =
      disableCommand newExits + 2 := by
  unfold setExitNode disableCommand
  by_cases none : newExits = []
  · simp only [if_pos none, if_true]
    rfl
  · simp only [if_neg none, if_true]
    rfl

/-- After the first `k` commands. -/
theorem take_exitNodes {k : Nat} (inside : k ≤ disableCommand newExits + 2) :
    (((setExitNode fileGeoIP fileGeoIP6 true prefs newExits).2.take k).foldl ConfCommand.apply
        config "ExitNodes".toList).getD [] =
      if exitNodesCommand newExits < k then newExits
      else (config "ExitNodes".toList).getD [] := by
  unfold setExitNode disableCommand exitNodesCommand at *
  by_cases none : newExits = []
  · simp only [if_pos none, if_true] at inside ⊢
    rw [none]
    interval_cases k <;> rfl
  · simp only [if_neg none, if_true] at inside ⊢
    interval_cases k <;> rfl

theorem take_disableNetwork {k : Nat} (inside : k ≤ disableCommand newExits + 2) :
    ((setExitNode fileGeoIP fileGeoIP6 true prefs newExits).2.take k).foldl ConfCommand.apply
        config "DisableNetwork".toList =
      if disableCommand newExits + 1 < k then some "0".toList
      else if disableCommand newExits < k then some "1".toList
      else config "DisableNetwork".toList := by
  unfold setExitNode disableCommand at *
  by_cases none : newExits = []
  · simp only [if_pos none, if_true] at inside ⊢
    interval_cases k <;> rfl
  · simp only [if_neg none, if_true] at inside ⊢
    interval_cases k <;> rfl

theorem setExitNode_getString :
    (setExitNode fileGeoIP fileGeoIP6 true prefs newExits).1.getString "pref_exit_nodes".toList [] =
      newExits := by
  unfold setExitNode SharedPreferences.getString
  by_cases none : newExits = []
  · simp only [if_pos none, SharedPreferences.remove_strings, Option.getD_none]
    exact none.symm
  · simp only [if_neg none, SharedPreferences.putString_strings, Option.getD_some]

/-- Wherever the commands break off, the network is on and both copies agree
    exactly if the command for `ExitNodes` was carried out or would have changed
    nothing, and that for enabling the network if the one for disabling it was. -/
theorem setExitNode_allOrNothing_iff (exchanges : Nat → Exchange)
    (agree : AgreeOnExits prefs config) (enabled : NetworkEnabled config) :
    (NetworkEnabled (sendCommands config
          (setExitNode fileGeoIP fileGeoIP6 true prefs newExits).2 exchanges) ∧
        AgreeOnExits (setExitNode fileGeoIP fileGeoIP6 true prefs newExits).1
          (sendCommands config (setExitNode fileGeoIP fileGeoIP6 true prefs newExits).2
            exchanges)) ↔
      (CarriedOut exchanges (exitNodesCommand newExits) ∨
          newExits = prefs.getString "pref_exit_nodes".toList []) ∧
        (CarriedOut exchanges (disableCommand newExits) →
          CarriedOut exchanges (disableCommand newExits + 1)) := by
  let k := carriedOut (disableCommand newExits + 2) exchanges
  have inside : k ≤ disableCommand newExits + 2 := carriedOut_le _ _
  have early : exitNodesCommand newExits < disableCommand newExits + 2 := by
    unfold exitNodesCommand disableCommand
    split_ifs <;> omega
  have exits : CarriedOut exchanges (exitNodesCommand newExits) ↔ exitNodesCommand newExits < k :=
    (lt_carriedOut_iff early exchanges).symm
  have disables : CarriedOut exchanges (disableCommand newExits) ↔ disableCommand newExits < k :=
    (lt_carriedOut_iff (by omega) exchanges).symm
  have enables : CarriedOut exchanges (disableCommand newExits + 1) ↔
      disableCommand newExits + 1 < k := (lt_carriedOut_iff (by omega) exchanges).symm
  rw [sendCommands_eq, setExitNode_length, exits, disables, enables, and_comm]
  apply and_congr
  · rw [AgreeOnExits, setExitNode_getString, take_exitNodes _ _ _ _ _ inside, agree]
    by_cases sent : exitNodesCommand newExits < k
    · simp only [sent, if_true, true_or]
    · simp only [sent, if_false, false_or]
  · rw [NetworkEnabled, take_disableNetwork _ _ _ _ _ inside]
    by_cases last : disableCommand newExits + 1 < k
    · simp [last]
    · by_cases half : disableCommand newExits < k
      · simp [last, half]
      · simp only [last, half, if_false, false_implies, iff_true]
        exact enabled

end Cut

def okReply : Exchange := .replied [⟨"250".toList, "OK".toList, none⟩]

/-- The call for the command with this number throws, the command does not reach
    Tor. -/
def failsAt (n i : Nat) : Exchange := if i = n then .fails false else okReply

def usPrefs : SharedPreferences := .of [("pref_exit_nodes".toList, "{us}".toList)] []

def usConfig : TorConfig := fun key => if key = "ExitNodes".toList then some "{us}".toList else none

/-- Nothing is lost where GeoIP files cannot be set and the exit nodes stay. -/
theorem setExitNode_allOrNothing_sameExits :
    NetworkEnabled (sendCommands usConfig (setExitNode [] [] true usPrefs "{us}".toList).2
        (failsAt 0)) ∧
      AgreeOnExits (setExitNode [] [] true usPrefs "{us}".toList).1
        (sendCommands usConfig (setExitNode [] [] true usPrefs "{us}".toList).2 (failsAt 0)) := by
  have unsent : ¬ CarriedOut (failsAt 0) 4 := fun carried => by
    cases carried.1 0 (by decide)
  exact (setExitNode_allOrNothing_iff [] [] usPrefs usConfig "{us}".toList (failsAt 0)
    (by decide +kernel) (by decide +kernel)).mpr
      ⟨.inr (by decide +kernel), fun carried => absurd carried unsent⟩

/-- The last command fails and the network stays disabled; the one for
    `ExitNodes` fails and the preference alone is changed. -/
theorem setExitNode_halfDone :
    AgreeOnExits (.of [] []) (fun _ => none) ∧ NetworkEnabled (fun _ => none) ∧
      ¬ NetworkEnabled (sendCommands (fun _ => none)
        (setExitNode [] [] true (.of [] []) "{us}".toList).2 (failsAt 5)) ∧
      ¬ AgreeOnExits (setExitNode [] [] true (.of [] []) "{us}".toList).1
        (sendCommands (fun _ => none)
          (setExitNode [] [] true (.of [] []) "{us}".toList).2 (failsAt 2)) := by
  decide +kernel

end Orbot.Service
