import Orbot.TransProxy.TorifiedApps

/-! # Which apps the VPN carries

`doLollipopAppRouting` allows the chosen apps one by one on the VPN service's
builder. Only where no app is chosen does it exclude the service's own package,
and so sends every other app through the VPN.
-/

namespace Orbot.Vpn

open Java (Text CharTables)
open TransProxy

/-- `compareToIgnoreCase` of the names. -/
def compareTo (tables : CharTables) (app another : TorifiedApp) : Bool :=
  app.name.map tables.foldCase ≤ another.name.map tables.foldCase

/-- The list of the VPN's own `TorifiedApp`, which is sorted without regard to
    case. -/
def getApps (tables : CharTables) (pMgr : PackageManager) (tordAppString : Text) :
    List TorifiedApp :=
  let apps := (pMgr.installedApplications.filter pMgr.usesInternet).map
    (torifiedApp pMgr (tordApps tordAppString))
  apps.mergeSort (compareTo tables)

inductive BuilderCall where
  | addAllowedApplication (packageName : Text)
  | addDisallowedApplication (packageName : Text)
  deriving Repr, DecidableEq

/-- The builder and the flag as the loop goes on. -/
structure Routing where
  calls : List BuilderCall := []
  perAppEnabled : Bool := false
  deriving Repr, DecidableEq

def routed (ownPackage : Text) (app : TorifiedApp) : Bool :=
  app.torified && app.packageName ≠ ownPackage

def Routing.visit (ownPackage : Text) (routing : Routing) (app : TorifiedApp) : Routing :=
  if routed ownPackage app then
    { calls := routing.calls ++ [.addAllowedApplication app.packageName], perAppEnabled := true }
  else routing

def doLollipopAppRouting (tables : CharTables) (pMgr : PackageManager)
    (tordAppString ownPackage : Text) : List BuilderCall :=
  let routing := (getApps tables pMgr tordAppString).foldl (Routing.visit ownPackage) {}
  if routing.perAppEnabled then routing.calls
  else routing.calls ++ [.addDisallowedApplication ownPackage]

/-! ## What the loop leaves -/

theorem foldl_routing (ownPackage : Text) (apps : List TorifiedApp) (routing : Routing) :
    apps.foldl (Routing.visit ownPackage) routing =
      { calls := routing.calls ++ (apps.filter (routed ownPackage)).map
          fun app => .addAllowedApplication app.packageName
        perAppEnabled := routing.perAppEnabled || apps.any (routed ownPackage) } := by
  induction apps generalizing routing with
  | nil => simp
  | cons app apps ih =>
      rw [List.foldl_cons, ih, Routing.visit]
      by_cases chosen : routed ownPackage app = true
      · simp [chosen]
      · simp [chosen]

/-- The packages of the apps the loop allows. -/
def allowedPackages (tables : CharTables) (pMgr : PackageManager)
    (tordAppString ownPackage : Text) : List Text :=
  ((getApps tables pMgr tordAppString).filter (routed ownPackage)).map
    TorifiedApp.packageName

theorem doLollipopAppRouting_eq (tables : CharTables) (pMgr : PackageManager)
    (tordAppString ownPackage : Text) :
    doLollipopAppRouting tables pMgr tordAppString ownPackage =
      if allowedPackages tables pMgr tordAppString ownPackage = [] then
        [.addDisallowedApplication ownPackage]
      else (allowedPackages tables pMgr tordAppString ownPackage).map .addAllowedApplication := by
  have enabled : ∀ apps : List TorifiedApp, apps.any (routed ownPackage) = true ↔
      ¬ (apps.filter (routed ownPackage)).map TorifiedApp.packageName = [] := by
    intro apps
    simp only [List.any_eq_true, List.map_eq_nil_iff, List.filter_eq_nil_iff, not_forall, not_not,
      exists_prop]
  rw [doLollipopAppRouting, foldl_routing, Bool.false_or]
  by_cases none : allowedPackages tables pMgr tordAppString ownPackage = []
  · have off := mt (enabled (getApps tables pMgr tordAppString)).mp (not_not.mpr none)
    have empty := List.map_eq_nil_iff.mp none
    simp only [off, if_false, none, if_true, empty, List.map_nil, List.nil_append,
      Bool.false_eq_true]
  · have on := (enabled (getApps tables pMgr tordAppString)).mpr none
    rw [if_pos on, if_neg none, allowedPackages, List.map_map, List.nil_append]
    rfl

/-! ## The user's choice -/

section Choice

variable (pMgr : PackageManager) (tordAppString ownPackage : Text)

/-- An installed package other than the service's own that can use the internet
    and whose user name is in the preference. -/
structure Chosen (packageName : Text) : Prop where
  notOwn : packageName ≠ ownPackage
  installed : ∃ aInfo ∈ pMgr.installedApplications, aInfo.packageName = packageName ∧
    (internetPermission ∈ (pMgr.requestedPermissions packageName).getD [] ∨
      aInfo.flags &&& flagSystem = 1#32) ∧
    pMgr.nameForUid aInfo.uid ∈ Java.tokens tordAppString '|'

theorem usesInternet_iff (aInfo : ApplicationInfo) :
    pMgr.usesInternet aInfo = true ↔
      internetPermission ∈ (pMgr.requestedPermissions aInfo.packageName).getD [] ∨
        aInfo.flags &&& flagSystem = 1#32 := by
  simp only [PackageManager.usesInternet, Bool.or_eq_true, List.any_eq_true, decide_eq_true_eq,
    exists_eq_right]

variable (tables : CharTables)

theorem mem_getApps {app : TorifiedApp} :
    app ∈ getApps tables pMgr tordAppString ↔
      ∃ aInfo ∈ pMgr.installedApplications, pMgr.usesInternet aInfo = true ∧
        torifiedApp pMgr (tordApps tordAppString) aInfo = app := by
  simp only [getApps, List.mem_mergeSort, List.mem_map, List.mem_filter, and_assoc]

theorem mem_allowedPackages {packageName : Text} :
    packageName ∈ allowedPackages tables pMgr tordAppString ownPackage ↔
      Chosen pMgr tordAppString ownPackage packageName := by
  simp only [allowedPackages, List.mem_map, List.mem_filter, mem_getApps, routed,
    Bool.and_eq_true, decide_eq_true_eq]
  constructor
  · rintro ⟨_, ⟨⟨aInfo, installed, internet, rfl⟩, torified, notOwn⟩, rfl⟩
    exact ⟨notOwn, aInfo, installed, rfl, (usesInternet_iff pMgr aInfo).mp internet,
      (torifiedApp_torified aInfo).mp torified⟩
  · rintro ⟨notOwn, aInfo, installed, rfl, internet, named⟩
    exact ⟨_, ⟨⟨aInfo, installed, (usesInternet_iff pMgr aInfo).mpr internet, rfl⟩,
      (torifiedApp_torified aInfo).mpr named, notOwn⟩, rfl⟩

/-- Sorting and filtering keep the package names apart. -/
theorem allowedPackages_nodup
    (distinct : (pMgr.installedApplications.map ApplicationInfo.packageName).Nodup) :
    (allowedPackages tables pMgr tordAppString ownPackage).Nodup := by
  have listed : ((getApps tables pMgr tordAppString).map TorifiedApp.packageName).Perm
      ((pMgr.installedApplications.filter pMgr.usesInternet).map ApplicationInfo.packageName) := by
    have sorted := (List.mergeSort_perm ((pMgr.installedApplications.filter pMgr.usesInternet).map
      (torifiedApp pMgr (tordApps tordAppString))) (compareTo tables)).map TorifiedApp.packageName
    rwa [List.map_map] at sorted
  have apart : ((pMgr.installedApplications.filter pMgr.usesInternet).map
      ApplicationInfo.packageName).Nodup :=
    distinct.sublist (List.Sublist.map _ List.filter_sublist)
  exact (listed.nodup_iff.mpr apart).sublist (List.Sublist.map _ List.filter_sublist)

end Choice

/-! ## The routing -/

def BuilderCall.allows : BuilderCall → Bool
  | .addAllowedApplication _ => true
  | .addDisallowedApplication _ => false

/-- The packages a builder carries: the allowed ones, or where none was allowed
    all that were not excluded. -/
def Carries (calls : List BuilderCall) (packageName : Text) : Prop :=
  if calls.any BuilderCall.allows then .addAllowedApplication packageName ∈ calls
  else .addDisallowedApplication packageName ∉ calls

/-- The builder is asked for exactly the chosen packages, each once, or else for
    all but the service's own; so that one is never carried. -/
theorem doLollipopAppRouting_chosen (tables : CharTables) (pMgr : PackageManager)
    (tordAppString ownPackage : Text)
    (distinct : (pMgr.installedApplications.map ApplicationInfo.packageName).Nodup) :
    ((∃ packageName, Chosen pMgr tordAppString ownPackage packageName) →
      (doLollipopAppRouting tables pMgr tordAppString ownPackage).Nodup ∧
      (∀ call, call ∈ doLollipopAppRouting tables pMgr tordAppString ownPackage ↔
        ∃ packageName, Chosen pMgr tordAppString ownPackage packageName ∧
          call = .addAllowedApplication packageName) ∧
      ∀ packageName, Carries (doLollipopAppRouting tables pMgr tordAppString ownPackage)
        packageName ↔ Chosen pMgr tordAppString ownPackage packageName) ∧
    ((¬ ∃ packageName, Chosen pMgr tordAppString ownPackage packageName) →
      doLollipopAppRouting tables pMgr tordAppString ownPackage =
        [.addDisallowedApplication ownPackage]) ∧
    ¬ Carries (doLollipopAppRouting tables pMgr tordAppString ownPackage) ownPackage := by
  have chosen := @mem_allowedPackages pMgr tordAppString ownPackage tables
  rw [doLollipopAppRouting_eq]
  by_cases none : allowedPackages tables pMgr tordAppString ownPackage = []
  · have nobody : ¬ ∃ packageName, Chosen pMgr tordAppString ownPackage packageName := by
      rintro ⟨packageName, picked⟩
      have member := chosen.mpr picked
      rw [none] at member
      cases member
    rw [if_pos none]
    refine ⟨fun somebody => absurd somebody nobody, fun _ => rfl, ?_⟩
    simp [Carries, BuilderCall.allows]
  · obtain ⟨first, member⟩ := List.exists_mem_of_ne_nil _ none
    have calls : ∀ call, call ∈ (allowedPackages tables pMgr tordAppString ownPackage).map
          BuilderCall.addAllowedApplication ↔
        ∃ packageName, Chosen pMgr tordAppString ownPackage packageName ∧
          call = .addAllowedApplication packageName := by
      intro call
      simp only [List.mem_map, chosen, eq_comm]
    have carried : ∀ packageName, Carries
        ((allowedPackages tables pMgr tordAppString ownPackage).map .addAllowedApplication)
        packageName ↔ Chosen pMgr tordAppString ownPackage packageName := by
      intro packageName
      have allows : ((allowedPackages tables pMgr tordAppString ownPackage).map
          BuilderCall.addAllowedApplication).any BuilderCall.allows = true :=
        List.any_eq_true.mpr ⟨_, List.mem_map_of_mem member, rfl⟩
      rw [Carries, if_pos allows, calls]
      simp only [BuilderCall.addAllowedApplication.injEq, exists_eq_right']
    rw [if_neg none]
    refine ⟨?_, ?_, ?_⟩
    · intro _
      apply And.intro _ ⟨calls, carried⟩
      have injective : Function.Injective BuilderCall.addAllowedApplication := by
        intro packageName another same
        exact BuilderCall.addAllowedApplication.inj same
      exact (allowedPackages_nodup pMgr tordAppString ownPackage tables distinct).map injective
    · intro nobody
      exact absurd ⟨first, chosen.mp member⟩ nobody
    · intro own
      exact ((carried ownPackage).mp own).notOwn rfl

/-- The embedding application and a viewer that shares its uid. -/
def sharedUid : PackageManager where
  installedApplications := embeddingApp.installedApplications ++
    [{ packageName := "com.upstream.viewer".toList, flags := 0#32, enabled := true
       uid := 10100, processName := "com.upstream.viewer".toList }]
  requestedPermissions _ := some [internetPermission]
  nameForUid _ := "com.upstream".toList
  applicationLabel _ := none

/-- The uid is torified: the viewer is carried, the service itself is not. -/
theorem doLollipopAppRouting_chosen_sharedUid :
    Carries (doLollipopAppRouting CharTables.ascii sharedUid "a|com.upstream|".toList
        "com.upstream.orbotexample".toList) "com.upstream.viewer".toList ∧
      ¬ Carries (doLollipopAppRouting CharTables.ascii sharedUid "a|com.upstream|".toList
        "com.upstream.orbotexample".toList) "com.upstream.orbotexample".toList := by
  have distinct : (sharedUid.installedApplications.map ApplicationInfo.packageName).Nodup := by
    decide
  have viewer : Chosen sharedUid "a|com.upstream|".toList "com.upstream.orbotexample".toList
      "com.upstream.viewer".toList :=
    ⟨by decide, _, List.mem_append_right _ (List.mem_singleton_self _), rfl, .inl (by decide),
      by decide⟩
  obtain ⟨somebody, -, own⟩ :=
    doLollipopAppRouting_chosen CharTables.ascii sharedUid _ _ distinct
  exact ⟨((somebody ⟨_, viewer⟩).2.2 _).mpr viewer, own⟩

end Orbot.Vpn
