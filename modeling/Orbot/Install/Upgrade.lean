import Orbot.Install.TorResourceInstaller
import Orbot.Lib.Transition
import Orbot.Service.Ports

/-! # When the installation is skipped

`torUpgradeAndConfig` takes the recorded version and the file of Tor for the
whole installation. The version is recorded after an installation that went
through, and is not taken back when a later one begins.
-/

namespace Orbot.Install

open Java (Text)
open Lib.Transition
open Service

/-- What the runs of the service leave for each other. -/
structure Installation where
  prefs : SharedPreferences
  folder : Folder
  isTorUpgradeAndConfigComplete : Bool := false

/-- What happens during one run. -/
structure Outcome where
  /-- where `installResources` throws if it is called -/
  failure : Option Failure := none
  sources : TorrcSources
  /-- `updateTorConfigFile` throws on its way to the file, for another reason
      than its port -/
  torrcThrows : Bool := false

namespace Installation

def version (s : Installation) : Option Text :=
  s.prefs.strings "BINARY_TOR_VERSION_INSTALLED".toList

/-- The condition for installing. -/
def NeedsInstall (s : Installation) : Prop :=
  s.version = none ∨ s.version ≠ some binaryTorVersion ∨ TorMissing s.folder

instance (s : Installation) : Decidable s.NeedsInstall := inferInstanceAs (Decidable (_ ∨ _))

/-- Whether it goes on, and what it leaves. -/
def upgrade (package : Package) (failure : Option Failure) (s : Installation) :
    Bool × Installation :=
  if s.NeedsInstall then
    let (success, folder) := installResources package failure s.folder
    if success then
      (true, { s with
        folder
        prefs := s.prefs.putString "BINARY_TOR_VERSION_INSTALLED".toList binaryTorVersion })
    else (false, { s with folder })
  else (true, s)

/-- The torrc, and the flag behind it. -/
def config (outcome : Outcome) (s : Installation) : Bool × Installation :=
  match updateTorConfigFile outcome.sources s.prefs with
  | .error _ => (false, s)
  | .ok _ =>
      if outcome.torrcThrows then (false, s)
      else (true, { s with isTorUpgradeAndConfigComplete := true })

/-- Whether it returns, and what it leaves. -/
def torUpgradeAndConfig (package : Package) (outcome : Outcome) (s : Installation) :
    Bool × Installation :=
  if s.isTorUpgradeAndConfigComplete then (true, s)
  else
    let (goesOn, s) := upgrade package outcome.failure s
    if goesOn then config outcome s else (false, s)

/-- The next run does not call `installResources`. -/
def Skips (s : Installation) : Prop := s.isTorUpgradeAndConfigComplete = true ∨ ¬ s.NeedsInstall

theorem not_needsInstall_iff {s : Installation} :
    ¬ s.NeedsInstall ↔ s.version = some binaryTorVersion ∧ ¬ TorMissing s.folder := by
  unfold NeedsInstall
  constructor
  · intro no
    obtain ⟨-, rest⟩ := not_or.mp no
    obtain ⟨recorded, there⟩ := not_or.mp rest
    exact ⟨not_not.mp recorded, there⟩
  · rintro ⟨recorded, there⟩ (none | other | missing)
    · cases recorded.symm.trans none
    · exact other recorded
    · exact there missing

end Installation

open Installation

/-! ## Runs -/

inductive UpgradeAction where
  | torUpgradeAndConfig (outcome : Outcome)
  /-- the process is started anew -/
  | newService

def upgradeStep (package : Package) (s : Installation) : UpgradeAction → Option Installation
  | .torUpgradeAndConfig outcome => some (torUpgradeAndConfig package outcome s).2
  | .newService => some { s with isTorUpgradeAndConfigComplete := false }

/-- The file of Tor is created and something is still to be written. -/
def Failure.LeavesTor (package : Package) : Failure → Prop
  | .deleting _ => False
  | .writing n => package.writesBeforeTor.length < n ∧ n < package.writes.length

/-- A run that installs under a version that is recorded already does not break
    off between the file of Tor and the end. -/
def Safe (package : Package) (s : Installation) : UpgradeAction → Prop
  | .torUpgradeAndConfig outcome =>
      s.isTorUpgradeAndConfigComplete = false → s.version = some binaryTorVersion →
        TorMissing s.folder → ∀ failure ∈ outcome.failure, ¬ failure.LeavesTor package
  | .newService => True

/-- A recorded version stands for everything, or Tor is missing. -/
structure Sound (package : Package) (s : Installation) : Prop where
  recorded : s.version = some binaryTorVersion → Complete package s.folder ∨ TorMissing s.folder
  flagged : s.isTorUpgradeAndConfigComplete = true → Complete package s.folder

namespace Sound

variable {package : Package} {s : Installation}

theorem complete (sound : Sound package s) (skips : s.Skips) : Complete package s.folder := by
  rcases skips with flagged | enough
  · exact sound.flagged flagged
  · obtain ⟨recorded, there⟩ := not_needsInstall_iff.mp enough
    exact (sound.recorded recorded).resolve_right there

theorem of_complete (complete : Complete package s.folder) : Sound package s :=
  ⟨fun _ => .inl complete, fun _ => complete⟩

end Sound

/-! ## What a run does -/

section Run

variable {package : Package} {s : Installation} {outcome : Outcome}

theorem upgrade_of_not (enough : ¬ s.NeedsInstall) (failure : Option Failure) :
    upgrade package failure s = (true, s) :=
  if_neg enough

theorem upgrade_of_none (needed : s.NeedsInstall) :
    upgrade package none s = (true, { s with
      folder := (installResources package none s.folder).2
      prefs := s.prefs.putString "BINARY_TOR_VERSION_INSTALLED".toList binaryTorVersion }) :=
  if_pos needed

theorem upgrade_of_some (needed : s.NeedsInstall) (failure : Failure) :
    upgrade package (some failure) s =
      (false, { s with folder := (installResources package (some failure) s.folder).2 }) := by
  rw [upgrade, if_pos needed]
  cases failure <;> rfl

/-- The torrc has no part in what is installed. -/
theorem config_folder (outcome : Outcome) (s : Installation) :
    (config outcome s).2.folder = s.folder := by
  unfold config
  cases updateTorConfigFile outcome.sources s.prefs with
  | error e => rfl
  | ok extraLines => cases outcome.torrcThrows <;> rfl

theorem torUpgradeAndConfig_of_goesOn (fresh : s.isTorUpgradeAndConfigComplete = false)
    (goesOn : (upgrade package outcome.failure s).1 = true) :
    torUpgradeAndConfig package outcome s =
      config outcome (upgrade package outcome.failure s).2 := by
  unfold torUpgradeAndConfig
  simp only [fresh, goesOn, Bool.false_eq_true, if_false, if_true]

theorem torUpgradeAndConfig_of_fails (fresh : s.isTorUpgradeAndConfigComplete = false)
    (fails : (upgrade package outcome.failure s).1 = false) :
    torUpgradeAndConfig package outcome s = (false, (upgrade package outcome.failure s).2) := by
  unfold torUpgradeAndConfig
  simp only [fresh, fails, Bool.false_eq_true, if_false]

/-- Where installing breaks off, everything is there or Tor is missing exactly
    outside of the dangerous part. -/
theorem failed_iff (missing : TorMissing s.folder) (failure : Failure) :
    (Complete package (installResources package (some failure) s.folder).2 ∨
        TorMissing (installResources package (some failure) s.folder).2) ↔
      ¬ failure.LeavesTor package := by
  cases failure with
  | deleting gone =>
      refine iff_of_true (.inr ?_) id
      simp only [installResources, TorMissing, ite_eq_left_iff]
      exact fun _ => missing
  | writing n =>
      simp only [installResources, complete_writing_iff, torMissing_writing_iff, Failure.LeavesTor]
      omega

/-- A run keeps the record sound exactly if it does not break off there. -/
theorem torUpgradeAndConfig_sound_iff (sound : Sound package s)
    (fresh : s.isTorUpgradeAndConfigComplete = false) :
    Sound package (torUpgradeAndConfig package outcome s).2 ↔
      Safe package s (.torUpgradeAndConfig outcome) := by
  by_cases needed : s.NeedsInstall
  · cases thrown : outcome.failure with
    | none =>
        have goesOn : (upgrade package outcome.failure s).1 = true := by
          rw [thrown, upgrade_of_none needed]
        apply iff_of_true
        · apply Sound.of_complete
          rw [torUpgradeAndConfig_of_goesOn fresh goesOn, config_folder, thrown,
            upgrade_of_none needed]
          exact complete_installed package s.folder
        · intro _ _ _ failure listed
          cases thrown.symm.trans listed
    | some failure =>
        have fails : (upgrade package outcome.failure s).1 = false := by
          rw [thrown, upgrade_of_some needed]
        rw [torUpgradeAndConfig_of_fails fresh fails, thrown, upgrade_of_some needed]
        constructor
        · intro kept _ recorded missing failure' listed
          obtain rfl := Option.some.inj (thrown.symm.trans listed)
          exact (failed_iff missing failure).mp (kept.recorded recorded)
        · intro safe
          constructor
          case recorded =>
            intro recorded
            have known : s.version = some binaryTorVersion := recorded
            have missing : TorMissing s.folder := by
              by_contra there
              exact not_needsInstall_iff.mpr ⟨known, there⟩ needed
            exact (failed_iff missing failure).mpr (safe fresh recorded missing failure thrown)
          case flagged =>
            intro flagged
            cases fresh.symm.trans flagged
  · have goesOn : (upgrade package outcome.failure s).1 = true := by
      rw [upgrade_of_not needed]
    apply iff_of_true
    · apply Sound.of_complete
      rw [torUpgradeAndConfig_of_goesOn fresh goesOn, config_folder, upgrade_of_not needed]
      exact sound.complete (.inr needed)
    · intro _ recorded missing
      exact absurd missing (not_needsInstall_iff.mp needed).2

theorem upgradeStep_sound {s' : Installation} {a : UpgradeAction} (sound : Sound package s)
    (safe : Safe package s a) (taken : upgradeStep package s a = some s') : Sound package s' := by
  cases a with
  | newService =>
      obtain rfl := Option.some.inj taken
      exact ⟨sound.recorded, fun flagged => by cases flagged⟩
  | torUpgradeAndConfig outcome =>
      obtain rfl := Option.some.inj taken
      by_cases flagged : s.isTorUpgradeAndConfigComplete = true
      · have early : torUpgradeAndConfig package outcome s = (true, s) := if_pos flagged
        rw [early]
        exact sound
      · exact (torUpgradeAndConfig_sound_iff sound (Bool.not_eq_true _ ▸ flagged)).mpr safe

end Run

/-- If no run that installs under a recorded version breaks off between the file
    of Tor and the end, every run that skips installing finds everything there. -/
theorem skipped_complete (package : Package) {start s : Installation}
    (fresh : start.isTorUpgradeAndConfigComplete = false)
    (recorded : start.version = some binaryTorVersion →
      Complete package start.folder ∨ TorMissing start.folder)
    (reached : Reaches (upgradeStep package) (Safe package) start s) (skips : s.Skips) :
    Complete package s.folder := by
  have initial : Sound package start :=
    ⟨recorded, fun flagged => by cases fresh.symm.trans flagged⟩
  have sound := reached.invariant initial fun _ _ _ sound safe taken =>
    upgradeStep_sound sound safe taken
  exact sound.complete skips

/-- Nine files of one byte. -/
def examplePackage : Package where
  raw _ := [0]
  assets _ := [0]
  cpuAbi := "armeabi-v7a".toList

/-- The version is recorded, and the files were removed. -/
def emptied : Installation where
  prefs := .of [("BINARY_TOR_VERSION_INSTALLED".toList, binaryTorVersion)] []
  folder _ := none

/-- The first run fails before it comes to Tor, the second installs. -/
theorem skipped_complete_emptied :
    ∃ s, Reaches (upgradeStep examplePackage) (Safe examplePackage) emptied s ∧
      Complete examplePackage s.folder := by
  have safe : Safe examplePackage emptied
      (.torUpgradeAndConfig { failure := some (.writing 5), sources := exampleSources }) := by
    intro _ _ _ failure listed
    obtain rfl := Option.some.inj listed
    exact fun leaves => absurd leaves.1 (by decide)
  have safe' : ∀ s, Safe examplePackage s (.torUpgradeAndConfig { sources := exampleSources }) := by
    intro _ _ _ _ failure listed
    cases listed
  have reached : Reaches (upgradeStep examplePackage) (Safe examplePackage) emptied _ :=
    (Reaches.here.next safe rfl).next (safe' _) rfl
  have missing : TorMissing emptied.folder := rfl
  exact ⟨_, reached, skipped_complete examplePackage rfl (fun _ => .inr missing) reached (.inl rfl)⟩

/-- A run breaks off in the file of Tor, and the next one skips the installation. -/
theorem skipped_incomplete :
    ∃ s, Reachable (upgradeStep examplePackage) emptied s ∧ TorMissing emptied.folder ∧
      s.Skips ∧ ¬ Complete examplePackage s.folder := by
  have reached : Reachable (upgradeStep examplePackage) emptied _ := reachable_of_run
    [.torUpgradeAndConfig { failure := some (.writing 7), sources := exampleSources }] rfl
  exact ⟨_, reached, rfl, .inr (by decide +kernel), by decide +kernel⟩

end Orbot.Install
