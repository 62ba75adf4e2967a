import Orbot.Java.Text
import Orbot.Lib.Writes

/-! # Installing the resources

`TorResourceInstaller.installResources` wipes the install folder and writes nine
files, one after another. It may throw at any point.
-/

namespace Orbot.Install

open Java (Text)
open Lib Writes

/-- What the resources and assets of the package unpack to. -/
structure Package where
  raw : Text → List UInt8
  assets : Text → List UInt8
  /-- `Build.CPU_ABI` -/
  cpuAbi : Text

/-- The files of `installFolder`, without `torrc.custom`. -/
abbrev Folder := Store Text UInt8

def streamToFile (stm : List UInt8) (outFile : Text) : List (Op Text UInt8) :=
  writeFile outFile stm

namespace Package

variable (package : Package)

def cpuPath : Text :=
  if Java.contains package.cpuAbi "x86".toList then "x86".toList else "armeabi".toList

/-- An executable is an asset under its own name. -/
def executable (key : Text) : Text × List UInt8 :=
  (key, package.assets (package.cpuPath ++ '/' :: key ++ ".mp3".toList))

/-- The files in the order they are written. -/
def resources : List (Text × List UInt8) :=
  [ ("torrc".toList, package.raw "torrc".toList),
    ("torpolipo.conf".toList, package.raw "torpolipo".toList),
    package.executable "obfs4proxy".toList,
    package.executable "tor".toList,
    package.executable "polipo".toList,
    package.executable "xtables".toList,
    package.executable "pdnsd".toList,
    ("geoip".toList, package.raw "geoip".toList),
    ("geoip6".toList, package.raw "geoip6".toList) ]

def writes : List (Op Text UInt8) :=
  package.resources.flatMap fun resource => streamToFile resource.2 resource.1

end Package

/-- Where `installResources` throws. -/
inductive Failure where
  /-- while the folder is wiped, with these files gone -/
  | deleting (gone : Text → Bool)
  /-- after the first `n` operations on the new files -/
  | writing (n : Nat)

/-- Whether it returns, and the folder it leaves. -/
def installResources (package : Package) (failure : Option Failure) (folder : Folder) :
    Bool × Folder :=
  match failure with
  | some (.deleting gone) => (false, fun file => if gone file then none else folder file)
  | some (.writing n) => (false, perform (package.writes.take n) fun _ => none)
  | none => (true, perform package.writes fun _ => none)

/-! ## What is there afterwards -/

/-- Every resource is there in full. -/
def Complete (package : Package) (folder : Folder) : Prop :=
  ∀ resource ∈ package.resources, folder resource.1 = some resource.2

def TorMissing (folder : Folder) : Prop := folder "tor".toList = none

instance (package : Package) (folder : Folder) : Decidable (Complete package folder) :=
  inferInstanceAs (Decidable (∀ resource ∈ package.resources, _))

instance (folder : Folder) : Decidable (TorMissing folder) := inferInstanceAs (Decidable (_ = _))

section Writes

variable (package : Package)

/-- The operations before the file of Tor is created. -/
def Package.writesBeforeTor : List (Op Text UInt8) :=
  (package.resources.take 3).flatMap fun resource => streamToFile resource.2 resource.1

theorem resources_distinct : (package.resources.map Prod.fst).Nodup := by
  have names : package.resources.map Prod.fst =
      ["torrc".toList, "torpolipo.conf".toList, "obfs4proxy".toList, "tor".toList,
        "polipo".toList, "xtables".toList, "pdnsd".toList, "geoip".toList, "geoip6".toList] := rfl
  rw [names]
  decide

theorem complete_installed (folder : Folder) :
    Complete package (installResources package none folder).2 :=
  perform_writeFiles (resources_distinct package) _

/-- Tor is missing after a failure up to the creation of its file. -/
theorem torMissing_writing_iff (n : Nat) :
    TorMissing (perform (package.writes.take n) fun _ => none) ↔
      n ≤ package.writesBeforeTor.length := by
  have absent : "tor".toList ∉ (package.resources.take 3).map Prod.fst := by
    have names : (package.resources.take 3).map Prod.fst =
        ["torrc".toList, "torpolipo.conf".toList, "obfs4proxy".toList] := rfl
    rw [names]
    decide
  let empty : Folder := fun _ => none
  have nothing : empty "tor".toList = none := rfl
  have created := isSome_take_iff n (package.executable "tor".toList).2 (package.resources.drop 4)
    absent nothing
  rw [TorMissing, ← Option.not_isSome_iff_eq_none, ← Nat.not_lt]
  exact not_congr created

/-- All is there after a failure exactly if that came behind the last operation. -/
theorem complete_writing_iff (n : Nat) :
    Complete package (perform (package.writes.take n) fun _ => none) ↔
      package.writes.length ≤ n := by
  let empty : Folder := fun _ => none
  have nothing : empty "geoip6".toList = none := rfl
  have distinct : ((package.resources.take 8 ++
      [("geoip6".toList, package.raw "geoip6".toList)]).map Prod.fst).Nodup :=
    resources_distinct package
  exact complete_take_iff n distinct nothing

end Writes

end Orbot.Install
