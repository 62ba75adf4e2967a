import Orbot.TransProxy.TorTransProxy

/-! # Which iptables program a rule is issued through

Both searches share the field `mSysIptables`, with different caching policies.
What they answer over a history of calls depends only on which families of
programs are installed and on the family of the cached path. The small system
on `Option Family` below is that abstraction; the simulation connects it to
the object.
-/

namespace Orbot.TransProxy

open Java (Text)

/-! ## Calls and their answers -/

/-- The path search for one family. -/
def getPath (device : Device) (proxy : TorTransProxy) : Family → Option Text × TorTransProxy
  | .ipv4 => getIpTablesPath device proxy
  | .ipv6 => getIp6TablesPath device proxy

/-- The answers of a sequence of calls on one object. -/
def getPaths (device : Device) : TorTransProxy → List Family → List (Family × Option Text)
  | _, [] => []
  | proxy, family :: rest =>
      (family, (getPath device proxy family).1) ::
        getPaths device (getPath device proxy family).2 rest

/-- The object after a sequence of calls. -/
def afterPaths (device : Device) (proxy : TorTransProxy) (calls : List Family) : TorTransProxy :=
  calls.foldl (fun proxy family => (getPath device proxy family).2) proxy

def systemPaths : Family → List Text
  | .ipv4 => [systemXbinIptables, systemBinIptables]
  | .ipv6 => [systemXbinIp6tables, systemBinIp6tables]

/-- The path is one of the family's and the file is there. -/
def ExistingPath (device : Device) (family : Family) (path : Text) : Prop :=
  path ∈ systemPaths family ∧ device.fileExists path = true

/-- An existing path of the family, or null. -/
def RightPath (device : Device) (family : Family) (answer : Option Text) : Prop :=
  ∀ path, answer = some path → ExistingPath device family path

/-- An existing path of the family, not null. -/
def FoundPath (device : Device) (family : Family) (answer : Option Text) : Prop :=
  ∃ path, answer = some path ∧ ExistingPath device family path

def Device.installed (device : Device) (family : Family) : Bool :=
  (systemPaths family).any device.fileExists

/-! ## The cached family -/

/-- One search seen from outside: the IPv4 search fills an empty cache, the
    IPv6 search overwrites it whenever it finds something. -/
def searchFamily (has4 has6 : Bool) (cached : Option Family) : Family → Option Family
  | .ipv4 => if cached = none ∧ has4 then some .ipv4 else cached
  | .ipv6 => if has6 then some .ipv6 else cached

def searchFamilies (has4 has6 : Bool) : Option Family → List Family → List (Family × Option Family)
  | _, [] => []
  | cached, family :: rest =>
      (family, searchFamily has4 has6 cached family) ::
        searchFamilies has4 has6 (searchFamily has4 has6 cached family) rest

/-- No program, or one of the family asked for. -/
def RightFamily (asked : Family) (found : Option Family) : Prop :=
  found = none ∨ found = some asked

/-- No call for `later` comes after a call for `earlier`. -/
def NeverAfter (earlier later : Family) (calls : List Family) : Prop :=
  ¬ [earlier, later].Sublist calls

/-- When the searches tell the families apart. -/
def ToldApart (has4 has6 : Bool) (calls : List Family) : Prop :=
  (has6 = true → NeverAfter .ipv6 .ipv4 calls) ∧
    (has4 = true → has6 = false → NeverAfter .ipv4 .ipv6 calls)

theorem neverAfter_cons_self {earlier later : Family} (calls : List Family) :
    NeverAfter earlier later (earlier :: calls) ↔ later ∉ calls := by
  simp only [NeverAfter, List.cons_sublist_cons, List.singleton_sublist]

theorem neverAfter_cons_ne {earlier later first : Family} (calls : List Family)
    (different : first ≠ earlier) :
    NeverAfter earlier later (first :: calls) ↔ NeverAfter earlier later calls := by
  have apart : earlier ≠ first := different.symm
  simp only [NeverAfter, List.cons_sublist_cons', apart, false_and, or_false]

/-- Every answer from here on is right. -/
def RightFrom (has4 has6 : Bool) (cached : Option Family) (calls : List Family) : Prop :=
  ∀ answer ∈ searchFamilies has4 has6 cached calls, RightFamily answer.1 answer.2

@[simp] theorem rightFrom_nil (has4 has6 : Bool) (cached : Option Family) :
    RightFrom has4 has6 cached [] := by
  intro answer member
  cases member

@[simp] theorem rightFrom_cons (has4 has6 : Bool) (cached : Option Family) (family : Family)
    (rest : List Family) :
    RightFrom has4 has6 cached (family :: rest) ↔
      RightFamily family (searchFamily has4 has6 cached family) ∧
        RightFrom has4 has6 (searchFamily has4 has6 cached family) rest := by
  simp only [RightFrom, searchFamilies, List.forall_mem_cons]

/-- With an IPv6 path cached and IPv6 programs installed, nothing but the IPv6
    search is ever right again. -/
theorem rightFrom_ipv6 (has4 : Bool) (calls : List Family) :
    RightFrom has4 true (some .ipv6) calls ↔ .ipv4 ∉ calls := by
  induction calls with
  | nil => simp
  | cons family rest ih =>
      cases family with
      | ipv4 => simp [searchFamily, RightFamily]
      | ipv6 => simp [searchFamily, RightFamily, ih]

/-- With an IPv4 path cached and no IPv6 program installed, nothing but the
    IPv4 search is ever right again. -/
theorem rightFrom_ipv4 (has4 : Bool) (calls : List Family) :
    RightFrom has4 false (some .ipv4) calls ↔ .ipv6 ∉ calls := by
  induction calls with
  | nil => simp
  | cons family rest ih =>
      cases family with
      | ipv4 => simp [searchFamily, RightFamily, ih]
      | ipv6 => simp [searchFamily, RightFamily]

/-- With IPv6 programs installed, the cache may hold nothing or an IPv4 path
    until the first IPv6 search. -/
theorem rightFrom_installed6 (has4 : Bool) (calls : List Family) (cached : Option Family)
    (not6 : cached ≠ some .ipv6) :
    RightFrom has4 true cached calls ↔ NeverAfter .ipv6 .ipv4 calls := by
  induction calls generalizing cached with
  | nil => simp [NeverAfter]
  | cons family rest ih =>
      cases family with
      | ipv4 =>
          have still : searchFamily has4 true cached .ipv4 ≠ some .ipv6 := by
            simp only [searchFamily]
            split_ifs
            · decide
            · exact not6
          have right : RightFamily .ipv4 (searchFamily has4 true cached .ipv4) := by
            rcases answer : searchFamily has4 true cached .ipv4 with _ | found
            · exact .inl rfl
            · cases found with
              | ipv4 => exact .inr rfl
              | ipv6 => exact absurd answer still
          rw [rightFrom_cons, neverAfter_cons_ne rest (by decide), ih _ still]
          exact and_iff_right right
      | ipv6 =>
          rw [rightFrom_cons, neverAfter_cons_self]
          exact (and_iff_right (.inr rfl)).trans (rightFrom_ipv6 has4 rest)

/-- Without IPv6 programs an empty cache is filled by the first IPv4 search
    that finds something. -/
theorem rightFrom_missing6 (has4 : Bool) (calls : List Family) :
    RightFrom has4 false none calls ↔ (has4 = true → NeverAfter .ipv4 .ipv6 calls) := by
  induction calls with
  | nil => simp [NeverAfter]
  | cons family rest ih =>
      cases family with
      | ipv4 =>
          rw [rightFrom_cons, neverAfter_cons_self]
          cases has4 with
          | false => simpa [searchFamily, RightFamily] using ih
          | true => simpa [searchFamily, RightFamily] using rightFrom_ipv4 true rest
      | ipv6 =>
          rw [rightFrom_cons, neverAfter_cons_ne rest (by decide)]
          simpa [searchFamily, RightFamily] using ih

theorem rightFrom_start (has4 has6 : Bool) (calls : List Family) :
    RightFrom has4 has6 none calls ↔ ToldApart has4 has6 calls := by
  cases has6 with
  | true => simpa [ToldApart] using rightFrom_installed6 has4 calls none (by decide)
  | false => simpa [ToldApart] using rightFrom_missing6 has4 calls

/-- The cache after a history of searches on a fresh object. -/
def cachedAfter (has4 has6 : Bool) (calls : List Family) : Option Family :=
  calls.foldl (searchFamily has4 has6) none

/-- Which family is cached after a history is decided by which searches it
    contains, not by their order, as far as IPv6 is concerned. -/
theorem cachedAfter_spec (has4 has6 : Bool) (calls : List Family) :
    (cachedAfter has4 has6 calls = some .ipv6 ↔ has6 = true ∧ .ipv6 ∈ calls) ∧
      (has6 = false → (cachedAfter has4 has6 calls = none ↔ ¬ (has4 = true ∧ .ipv4 ∈ calls))) := by
  induction calls using List.reverseRecOn with
  | nil => simp [cachedAfter]
  | append_singleton calls family ih =>
      have step : cachedAfter has4 has6 (calls ++ [family]) =
          searchFamily has4 has6 (cachedAfter has4 has6 calls) family := by
        simp only [cachedAfter, List.foldl_append, List.foldl_cons, List.foldl_nil]
      rw [step]
      cases family <;> cases has4 <;> cases has6 <;>
        rcases cached : cachedAfter _ _ calls with _ | _ | _ <;>
          simp_all [searchFamily]

/-- An IPv4 path is cached only where an IPv4 program is installed. -/
theorem cachedAfter_ipv4 {has4 has6 : Bool} {calls : List Family}
    (cached : cachedAfter has4 has6 calls = some .ipv4) : has4 = true := by
  induction calls using List.reverseRecOn with
  | nil => simp [cachedAfter] at cached
  | append_singleton calls family ih =>
      simp only [cachedAfter, List.foldl_append, List.foldl_cons, List.foldl_nil] at cached ih
      cases family with
      | ipv4 =>
          simp only [searchFamily] at cached
          split_ifs at cached with filled
          · exact filled.2
          · exact ih cached
      | ipv6 =>
          simp only [searchFamily] at cached
          split_ifs at cached
          · cases cached
          · exact ih cached

/-! ## The object follows the abstraction -/

/-- The answer is an existing path of the cached family, or null. -/
def Caches (device : Device) : Option Family → Option Text → Prop
  | none, answer => answer = none
  | some family, answer => FoundPath device family answer

theorem systemPaths_disjoint {family family' : Family} {path : Text}
    (member : path ∈ systemPaths family) (member' : path ∈ systemPaths family') :
    family = family' := by
  have apart : ∀ p ∈ systemPaths .ipv4, p ∉ systemPaths .ipv6 := by decide
  cases family <;> cases family'
  · rfl
  · exact absurd member' (apart path member)
  · exact absurd member (apart path member')
  · rfl

theorem rightPath_iff {device : Device} {cached : Option Family} {answer : Option Text}
    (caches : Caches device cached answer) (family : Family) :
    RightPath device family answer ↔ RightFamily family cached := by
  cases cached with
  | none =>
      obtain rfl : answer = none := caches
      simp [RightPath, RightFamily]
  | some found =>
      obtain ⟨path, rfl, existing⟩ := caches
      constructor
      · intro right
        have same := systemPaths_disjoint existing.1 (right path rfl).1
        exact .inr (congrArg some same)
      · rintro (impossible | same)
        · cases impossible
        · obtain rfl := Option.some.inj same
          rintro _ ⟨⟩
          exact existing

theorem foundPath_iff {device : Device} {cached : Option Family} {answer : Option Text}
    (caches : Caches device cached answer) (family : Family) :
    FoundPath device family answer ↔ cached = some family := by
  cases cached with
  | none =>
      obtain rfl : answer = none := caches
      simp [FoundPath]
  | some found =>
      obtain ⟨path, rfl, existing⟩ := caches
      constructor
      · rintro ⟨_, ⟨⟩, right⟩
        exact congrArg some (systemPaths_disjoint existing.1 right.1)
      · intro same
        obtain rfl := Option.some.inj same
        exact ⟨path, rfl, existing⟩

section Simulation

variable {device : Device} (system : device.useSystemIpTables = true)
include system

/-- One call: the answer is the new content of the field, and its family is the
    one the abstraction predicts. -/
theorem getPath_simulates {cached : Option Family} {proxy : TorTransProxy}
    (caches : Caches device cached proxy.mSysIptables) (family : Family) :
    Caches device (searchFamily (device.installed .ipv4) (device.installed .ipv6) cached family)
        (getPath device proxy family).1 ∧
      (getPath device proxy family).2.mSysIptables = (getPath device proxy family).1 := by
  cases family with
  | ipv4 =>
      simp only [getPath, getIpTablesPath, system, if_true, findSystemIPTables, Device.installed,
        systemPaths, List.any_cons, List.any_nil, Bool.or_false, searchFamily]
      refine ⟨?_, trivial⟩
      cases cached with
      | none =>
          have empty : proxy.mSysIptables = none := caches
          cases xbin : device.fileExists systemXbinIptables <;>
            cases bin : device.fileExists systemBinIptables <;>
              simp [empty, Caches, FoundPath, ExistingPath, systemPaths, xbin, bin]
      | some found =>
          obtain ⟨path, held, existing⟩ := caches
          simp only [held, reduceCtorEq, if_false, false_and]
          exact ⟨path, rfl, existing⟩
  | ipv6 =>
      simp only [getPath, getIp6TablesPath, system, if_true, findSystemIP6Tables, Device.installed,
        systemPaths, List.any_cons, List.any_nil, Bool.or_false, searchFamily]
      refine ⟨?_, trivial⟩
      cases xbin : device.fileExists systemXbinIp6tables <;>
        cases bin : device.fileExists systemBinIp6tables <;>
          simp [Caches, FoundPath, ExistingPath, systemPaths, xbin, bin]
      exact caches

/-- A whole history on one object answers as the abstraction predicts, by any
    standard that goes by the family of the program found. -/
theorem getPaths_forall_iff {good : Family → Option Text → Prop}
    {goodFamily : Family → Option Family → Prop}
    (agree : ∀ {cached answer}, Caches device cached answer →
      ∀ family, good family answer ↔ goodFamily family cached)
    {cached : Option Family} {proxy : TorTransProxy}
    (caches : Caches device cached proxy.mSysIptables) (calls : List Family) :
    (∀ answer ∈ getPaths device proxy calls, good answer.1 answer.2) ↔
      ∀ answer ∈ searchFamilies (device.installed .ipv4) (device.installed .ipv6) cached calls,
        goodFamily answer.1 answer.2 := by
  induction calls generalizing cached proxy with
  | nil => simp [getPaths, searchFamilies]
  | cons family rest ih =>
      obtain ⟨answered, stored⟩ := getPath_simulates system caches family
      rw [getPaths, List.forall_mem_cons, searchFamilies, List.forall_mem_cons, agree answered,
        ih (by rw [stored]; exact answered)]

theorem afterPaths_simulates {proxy : TorTransProxy} (fresh : proxy.mSysIptables = none)
    (calls : List Family) :
    Caches device (cachedAfter (device.installed .ipv4) (device.installed .ipv6) calls)
      (afterPaths device proxy calls).mSysIptables := by
  induction calls using List.reverseRecOn with
  | nil => exact fresh
  | append_singleton calls family ih =>
      obtain ⟨answered, stored⟩ := getPath_simulates system ih family
      simp only [cachedAfter, afterPaths, List.foldl_append, List.foldl_cons, List.foldl_nil]
        at answered stored ⊢
      rw [stored]
      exact answered

end Simulation

/-! ## The operations -/

/-- Every rule of a family is issued through a program of that family that is
    there. -/
def RightTools (device : Device) (issued : List Command) : Prop :=
  ∀ c ∈ issued, FoundPath device c.family c.tool

/-- `setTransparentProxyingAll` asks for the IPv6 path first. -/
theorem rightTools_all_iff (device : Device) (ports : ServicePorts) (proxy : TorTransProxy)
    (enable : Bool) :
    RightTools device (setTransparentProxyingAll device ports proxy enable).issued ↔
      ∀ answer ∈ getPaths device proxy [.ipv6, .ipv4], FoundPath device answer.1 answer.2 := by
  rw [(setTransparentProxyingAll_spec device ports proxy enable).1]
  simp [RightTools, getPaths, getPath, allRules]

/-- The commands of one app are right when both paths are. -/
theorem rightTools_appCommands {device : Device} {tool4 tool6 : Option Text} {enable : Bool}
    {transPort : Int} {app : TorifiedApp} :
    (∀ c ∈ appCommands tool4 tool6 enable transPort app, FoundPath device c.family c.tool) ↔
      FoundPath device .ipv6 tool6 ∧ FoundPath device .ipv4 tool4 := by
  simp only [appCommands, List.forall_mem_cons, List.not_mem_nil, false_imp_iff, implies_true,
    and_true, and_self]

/-- `setTransparentProxyingByApp` asks for the IPv4 path first and for the IPv6
    path once for each selected app. -/
theorem rightTools_byApp_iff (device : Device) (proxy : TorTransProxy)
    (apps : List TorifiedApp) (enable : Bool) :
    RightTools device (setTransparentProxyingByApp device proxy apps enable).issued ↔
      ∀ answer ∈ getPaths device proxy
          (if selected enable apps = [] then [.ipv4] else [.ipv4, .ipv6]),
        FoundPath device answer.1 answer.2 := by
  rw [(setTransparentProxyingByApp_spec device proxy apps enable).1, RightTools,
    List.forall_mem_cons, List.forall_mem_flatMap]
  simp only [rightTools_appCommands]
  cases chosen : selected enable apps with
  | nil => simp [getPaths, getPath]
  | cons app rest =>
      simp only [getPaths, getPath, reduceCtorEq, if_false, List.forall_mem_cons]
      constructor
      · rintro ⟨path4, ⟨path6, _⟩, _⟩
        exact ⟨path4, path6, by simp⟩
      · rintro ⟨path4, path6, _⟩
        exact ⟨path4, ⟨path6, path4⟩, fun _ _ => ⟨path6, path4⟩⟩

/-- When every rule of per-app mode has its program: an IPv4 program is
    installed, no IPv6 path is cached at the start, and if any app is selected
    an IPv6 program is installed, so that the IPv6 search does not fall back to
    the IPv4 path found just before. -/
def ByAppToldApart (has4 has6 : Bool) (history : List Family) (chosen : List TorifiedApp) : Prop :=
  has4 = true ∧ ¬ (has6 = true ∧ .ipv6 ∈ history) ∧ (chosen = [] ∨ has6 = true)

/-- Once the IPv6 search has found its program, the IPv4 search answers with the
    same one. -/
theorem searchFamilies_ipv6_ipv4 (has4 has6 : Bool) (cached : Option Family) :
    ¬ ∀ answer ∈ searchFamilies has4 has6 cached [.ipv6, .ipv4],
      answer.2 = some answer.1 := by
  intro right
  simp only [searchFamilies, List.forall_mem_cons] at right
  obtain ⟨found6, found4, _⟩ := right
  rw [found6] at found4
  simp [searchFamily] at found4

theorem searchFamilies_byApp_iff (has4 has6 : Bool) (history : List Family)
    (chosen : List TorifiedApp) :
    (∀ answer ∈ searchFamilies has4 has6 (cachedAfter has4 has6 history)
        (if chosen = [] then [.ipv4] else [.ipv4, .ipv6]), answer.2 = some answer.1) ↔
      ByAppToldApart has4 has6 history chosen := by
  obtain ⟨cached6, cachedNone⟩ := cachedAfter_spec has4 has6 history
  simp only [ByAppToldApart]
  rw [← cached6]
  rcases cached : cachedAfter has4 has6 history with _ | _ | _
  · by_cases empty : chosen = [] <;> cases has4 <;> cases has6 <;>
      simp [empty, searchFamilies, searchFamily]
  · -- an IPv4 path is cached, so an IPv4 program is installed
    have installed : has4 = true := cachedAfter_ipv4 cached
    by_cases empty : chosen = [] <;> cases has6 <;>
      simp [empty, installed, searchFamilies, searchFamily]
  · by_cases empty : chosen = [] <;> simp [empty, searchFamilies, searchFamily]

/-- For system iptables, after any history of searches on the object: exactly
    when the searches keep IPv4 and IPv6 programs apart; that whole-device mode
    never issues every rule through a program of its family; and exactly when
    per-app mode does. -/
theorem tools_told_apart_iff (device : Device) (system : device.useSystemIpTables = true)
    (proxy : TorTransProxy) (fresh : proxy.mSysIptables = none) (history : List Family)
    (ports : ServicePorts) (apps : List TorifiedApp) (enable : Bool) :
    let has4 := device.installed .ipv4
    let has6 := device.installed .ipv6
    ((∀ answer ∈ getPaths device proxy history, RightPath device answer.1 answer.2) ↔
        ToldApart has4 has6 history) ∧
      ¬ RightTools device (setTransparentProxyingAll device ports
          (afterPaths device proxy history) enable).issued ∧
      (RightTools device (setTransparentProxyingByApp device
          (afterPaths device proxy history) apps enable).issued ↔
        ByAppToldApart has4 has6 history (selected enable apps)) := by
  intro has4 has6
  have start : Caches device none proxy.mSysIptables := fresh
  have caches := afterPaths_simulates system fresh history
  refine ⟨?_, ?_, ?_⟩
  · rw [getPaths_forall_iff system rightPath_iff start]
    exact rightFrom_start has4 has6 history
  · rw [rightTools_all_iff, getPaths_forall_iff system foundPath_iff caches]
    exact searchFamilies_ipv6_ipv4 has4 has6 _
  · rw [rightTools_byApp_iff, getPaths_forall_iff system foundPath_iff caches]
    exact searchFamilies_byApp_iff has4 has6 history _

/-- A device with one program of each family. -/
def bothInstalled : Device where
  fileExists path := path ∈ [systemXbinIptables, systemXbinIp6tables]
  useSystemIpTables := true
  fileXtables := "/data/data/app/app_bin/xtables".toList
  torUid := 10100

def webApp : TorifiedApp where
  uid := 10101
  username := "u0_a101".toList
  torified := true

/-- There every rule for one app is issued through a program of its family. -/
theorem tools_told_apart_iff_bothInstalled :
    selected true [webApp] = [webApp] ∧
      RightTools bothInstalled
        (setTransparentProxyingByApp bothInstalled {} [webApp] true).issued :=
  ⟨by decide, (tools_told_apart_iff bothInstalled rfl {} rfl [] {} _ true).2.2.mpr
    ⟨by decide, by decide, .inr (by decide)⟩⟩

/-- Tools are confused: the IPv4 search answers with an IPv6 program, and
    whole-device mode issues its IPv4 rules through it. -/
theorem tools_confused :
    ¬ (∀ answer ∈ getPaths bothInstalled {} [.ipv6, .ipv4],
        RightPath bothInstalled answer.1 answer.2) ∧
      ¬ RightTools bothInstalled (setTransparentProxyingAll bothInstalled {} {} true).issued := by
  constructor
  · intro right
    have answer := right (.ipv4, some systemXbinIp6tables) (by decide) _ rfl
    exact absurd answer.1 (by decide)
  · intro right
    obtain ⟨path, same, answer⟩ := (rightTools_all_iff _ _ _ _).mp right
      (.ipv4, some systemXbinIp6tables) (by decide)
    rw [← Option.some.inj same] at answer
    exact absurd answer.1 (by decide)

end Orbot.TransProxy
