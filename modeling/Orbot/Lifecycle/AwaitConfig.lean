import Orbot.Install.Upgrade
import Orbot.Lifecycle.Shutdown

/-! # Routers that wait for the configuration

Every router begins by waiting for a flag that `torUpgradeAndConfig` sets in its
last line. The worker that runs it catches whatever it throws, so the flag can
stay as it is for good.
-/

namespace Orbot.Lifecycle

open Lib.Transition
open Install Service
open Installation (torUpgradeAndConfig)

/-- The worker gets past `torUpgradeAndConfig` as this returns or throws. -/
def FollowsUpgrade (package : Package) (outcome : Outcome) (installation : Installation)
    (s : Threads) : Action → Prop
  | .worker input => s.worker = .upgradeAndConfig →
      input = if (torUpgradeAndConfig package outcome installation).1 then .goes else .fails
  | _ => True

instance (package : Package) (outcome : Outcome) (installation : Installation) (s : Threads) :
    (a : Action) → Decidable (FollowsUpgrade package outcome installation s a)
  | .worker _ => inferInstanceAs (Decidable (_ → _))
  | .onStartCommand | .onDestroy | .closeShell | .router _ _ | .stop _ | .runCommand _
  | .circuitBuilt | .torExits _ => .isTrue trivial

/-- A router leaves the loop once the flag is set. -/
theorem awaitConfig_leaves_iff (s : Threads) (i : Nat) :
    (routerStep s i .awaitConfig .goes).isSome = true ↔ s.isTorUpgradeAndConfigComplete = true := by
  cases flag : s.isTorUpgradeAndConfigComplete with
  | true | false => simp [routerStep, flag]

/-! ## When the flag is set -/

/-- Nothing throws: neither installing, if that is needed, nor the port of the
    SOCKS proxy, nor else the torrc. -/
structure UpgradeGoesThrough (outcome : Outcome) (installation : Installation) : Prop where
  installs : installation.NeedsInstall → outcome.failure = none
  port : ∃ socksPortPref, socksPortValue outcome.sources installation.prefs = .ok socksPortPref
  torrc : outcome.torrcThrows = false

section Upgrade

variable {package : Package} {outcome : Outcome} {installation : Installation}

theorem socksPortValue_version (sources : TorrcSources) (prefs : SharedPreferences)
    (version : Java.Text) :
    socksPortValue sources (prefs.putString "BINARY_TOR_VERSION_INSTALLED".toList version) =
      socksPortValue sources prefs := by
  have other : "pref_socks".toList ≠ "BINARY_TOR_VERSION_INSTALLED".toList := by decide
  rw [socksPortValue, SharedPreferences.getString, prefs.putString_strings_ne version other,
    socksPortValue, SharedPreferences.getString]

theorem config_returns_iff :
    (Installation.config outcome installation).1 = true ↔
      (∃ socksPortPref, socksPortValue outcome.sources installation.prefs = .ok socksPortPref) ∧
        outcome.torrcThrows = false := by
  unfold Installation.config
  cases written : updateTorConfigFile outcome.sources installation.prefs with
  | ok extraLines =>
      obtain ⟨socksPortPref, socks, -⟩ := updateTorConfigFile_eq.mp written
      cases outcome.torrcThrows with
      | true | false => simp [socks]
  | error e =>
      have thrown : ¬ ∃ socksPortPref,
          socksPortValue outcome.sources installation.prefs = .ok socksPortPref := by
        rintro ⟨socksPortPref, socks⟩
        obtain ⟨extraLines, ok⟩ := updateTorConfigFile_writes socks
        cases written.symm.trans ok
      simp [thrown]

/-- `torUpgradeAndConfig` returns exactly if nothing throws. -/
theorem torUpgradeAndConfig_returns_iff
    (fresh : installation.isTorUpgradeAndConfigComplete = false) :
    (torUpgradeAndConfig package outcome installation).1 = true ↔
      UpgradeGoesThrough outcome installation := by
  have through : UpgradeGoesThrough outcome installation ↔
      (installation.NeedsInstall → outcome.failure = none) ∧
        (∃ socksPortPref, socksPortValue outcome.sources installation.prefs = .ok socksPortPref) ∧
        outcome.torrcThrows = false :=
    ⟨fun ⟨installs, port, torrc⟩ => ⟨installs, port, torrc⟩,
      fun ⟨installs, port, torrc⟩ => ⟨installs, port, torrc⟩⟩
  rw [through]
  by_cases needed : installation.NeedsInstall
  · cases thrown : outcome.failure with
    | none =>
        have goesOn : (installation.upgrade package outcome.failure).1 = true := by
          rw [thrown, upgrade_of_none needed]
        rw [torUpgradeAndConfig_of_goesOn fresh goesOn, config_returns_iff, thrown,
          upgrade_of_none needed, socksPortValue_version]
        simp
    | some failure =>
        have fails : (installation.upgrade package outcome.failure).1 = false := by
          rw [thrown, upgrade_of_some needed]
        rw [torUpgradeAndConfig_of_fails fresh fails]
        simp [needed]
  · have goesOn : (installation.upgrade package outcome.failure).1 = true := by
      rw [upgrade_of_not needed]
    rw [torUpgradeAndConfig_of_goesOn fresh goesOn, config_returns_iff, upgrade_of_not needed]
    simp only [needed, false_implies, true_and]

end Upgrade

/-! ## The flag in the service -/

/-- The flag is set, or the worker is still ahead of it. -/
def Configures (s : Threads) : Prop :=
  s.isTorUpgradeAndConfigComplete = true ∨ s.worker = .upgradeAndConfig

theorem configures_worker {s : Threads} {pc : WorkerPc} {input : Input}
    {next : Threads × WorkerPc} (taken : workerStep s pc input = some next)
    (configures : s.isTorUpgradeAndConfigComplete = true ∨ pc = .upgradeAndConfig)
    (goes : pc = .upgradeAndConfig → input = .goes) :
    next.1.isTorUpgradeAndConfigComplete = true := by
  by_cases first : pc = .upgradeAndConfig
  · obtain rfl := goes first
    subst first
    rw [← Option.some.inj taken]
  · have flag := configures.resolve_right first
    cases pc with
    | upgradeAndConfig => exact absurd rfl first
    | control pc =>
        simp only [workerStep] at taken
        split at taken
        next => cases taken
        all_goals
          rw [← Option.some.inj taken]
          exact flag
    | checkConn | setOn =>
        cases input with
        | goes =>
            rw [← Option.some.inj taken]
            exact flag
        | _ => cases taken
    | done => cases input <;> cases taken

theorem configures_step {package : Package} {outcome : Outcome} {installation : Installation}
    (returns : (torUpgradeAndConfig package outcome installation).1 = true) {s s' : Threads}
    {a : Action} (configures : Configures s)
    (follows : FollowsUpgrade package outcome installation s a) (taken : step s a = some s') :
    Configures s' := by
  cases a with
  | onStartCommand | onDestroy =>
      obtain ⟨-, same⟩ := Option.ite_none_right_eq_some.mp taken
      rw [← Option.some.inj same]
      exact configures
  | closeShell =>
      obtain ⟨-, same⟩ := Option.ite_none_left_eq_some.mp taken
      rw [← Option.some.inj same]
      exact configures
  | router i input =>
      simp only [step] at taken
      split at taken
      next => cases taken
      next pc _ =>
        obtain ⟨next, moved, rfl⟩ := Option.map_eq_some_iff.mp taken
        obtain ⟨service, commands, same⟩ := (routerMoves_of_step moved).frame
        rw [same]
        exact configures
  | worker input =>
      obtain ⟨next, moved, rfl⟩ := Option.map_eq_some_iff.mp taken
      apply Or.inl
      apply configures_worker moved configures
      intro first
      exact (follows first).trans (if_pos returns)
  | stop halted =>
      obtain ⟨next, moved, rfl⟩ := Option.map_eq_some_iff.mp taken
      cases pc : s.stop with
      | notCalled | done => simp [stopStep, pc] at moved
      | setStopping | killAllDaemons | setOff =>
          rw [pc] at moved
          rw [← Option.some.inj moved]
          exact configures
  | runCommand exitCode =>
      simp only [step] at taken
      split at taken
      next => cases taken
      next =>
        rw [← Option.some.inj taken]
        exact configures
  | circuitBuilt | torExits tor =>
      rw [← Option.some.inj taken]
      exact configures

/-- Once the worker has ended no router has to wait, exactly if nothing in
    `torUpgradeAndConfig` throws. -/
theorem flag_set_iff (package : Package) (outcome : Outcome) (installation : Installation)
    (fresh : installation.isTorUpgradeAndConfigComplete = false) :
    (∀ s, Reaches step (FollowsUpgrade package outcome installation) {} s → s.worker = .done →
        s.isTorUpgradeAndConfigComplete = true) ↔
      UpgradeGoesThrough outcome installation := by
  rw [← @torUpgradeAndConfig_returns_iff package outcome installation fresh]
  constructor
  · intro set
    by_contra throws
    have follows : FollowsUpgrade package outcome installation {} (.worker .fails) :=
      fun _ => (if_neg throws).symm
    have ended : Reaches step (FollowsUpgrade package outcome installation) {} _ :=
      Reaches.here.next follows rfl
    cases set _ ended rfl
  · intro returns s reached done
    have configures : Configures s := reached.invariant (.inr rfl) fun _ _ _ before follows taken =>
      configures_step returns before follows taken
    apply configures.resolve_right
    intro first
    cases done.symm.trans first

/-- A first start. -/
def firstStart : Installation where
  prefs := .of [] []
  folder _ := none

/-- Everything is installed, no Tor is found, and the flag is set. -/
theorem flag_set_firstStart :
    ∃ s, Reaches step
        (FollowsUpgrade examplePackage { sources := exampleSources } firstStart) {} s ∧
      s.worker = .done ∧ s.isTorUpgradeAndConfigComplete = true := by
  have reached : Reaches step
      (FollowsUpgrade examplePackage { sources := exampleSources } firstStart) {} _ :=
    reaches_of_run [.worker .goes, .worker .goes, .worker (.attempt .noPort), .worker .goes,
      .worker (.attempt .noPort), .worker .goes, .worker (.attempt .noPort), .worker .goes,
      .worker .goes] rfl
  have set := (flag_set_iff examplePackage { sources := exampleSources } firstStart rfl).mpr
    ⟨fun _ => rfl, ⟨_, rfl⟩, rfl⟩
  exact ⟨_, reached, rfl, set _ reached rfl⟩

/-- A port of the SOCKS proxy that is no number. -/
def noNumber : Installation where
  prefs := .of [("pref_socks".toList, "socks".toList)] []
  folder _ := none

/-- The worker has ended, and the router can never go on. -/
theorem flag_not_set :
    ∃ s, Reaches step (FollowsUpgrade examplePackage { sources := exampleSources } noNumber) {} s ∧
      s.worker = .done ∧ s.isTorUpgradeAndConfigComplete = false ∧
      s.routers = [.awaitConfig] ∧ step s (.router 0 .goes) = none := by
  have reached : Reaches step
      (FollowsUpgrade examplePackage { sources := exampleSources } noNumber) {} _ :=
    reaches_of_run [.onStartCommand, .worker .fails] rfl
  exact ⟨_, reached, rfl, rfl, rfl, rfl⟩

end Orbot.Lifecycle
