import Orbot.Service.Ports

/-! # Hidden services and client cookies

They are the last part of what `processSettingsImpl` writes, and two runs with
other preferences are to write the same part. The handler for the relay settings
returns before it.
-/

namespace Orbot.Service

open Java (Text)
open TransProxy

/-- These are the lines of the row, with the path of its directory. -/
def BlockOf (sources : TorrcSources) (row : HiddenServiceRow) (block : List TorrcLine) : Prop :=
  ∃ hsDirPath, sources.hiddenServiceDir row.port = some hsDirPath ∧
    block = serviceBlock row hsDirPath

/-- The part has one block for each row, in order, and one entry for each cookie. -/
def SpellsServices (sources : TorrcSources) (part : List Text) : Prop :=
  ∃ blocks, List.Forall₂ (BlockOf sources) (serviceRows sources) blocks ∧
    part = (blocks.flatten ++ clientCookieLines (cookieRows sources)).map TorrcLine.text

/-- The same sources without rows. -/
def withoutRows (sources : TorrcSources) : TorrcSources :=
  { sources with hiddenServices := none, clientCookies := none }

/-- Both runs write the rows behind everything else, and write the same. -/
def ServicesIndependent (sources : TorrcSources) (prefs prefs' : SharedPreferences) : Prop :=
  ∃ part, SpellsServices sources part ∧
    processSettingsImpl sources prefs = processSettingsImpl (withoutRows sources) prefs ++ part ∧
    processSettingsImpl sources prefs' = processSettingsImpl (withoutRows sources) prefs' ++ part

/-- The relay settings are used, and cause an exception. -/
structure RelayFails (sources : TorrcSources) (prefs : SharedPreferences) : Prop where
  relay : prefs.getBoolean "pref_or".toList false = true
  noBridges : prefs.bridgesEnabled sources.language = false
  reachable : prefs.getBoolean "pref_reachable_addresses".toList false = false
  throws : (∃ e, Java.parseInt sources.tables (prefs.getString "pref_or_port".toList
    "9001".toList) = .error e) ∨ sources.writeDNSFile = none

/-- The part that is written, as far as the loop over the rows gets. -/
def partEntries (sources : TorrcSources) : List Text := (servicePart sources).map TorrcLine.text

/-! ## Where the part stands -/

section Part

variable (sources : TorrcSources) (prefs : SharedPreferences)

theorem relayLines_none_iff :
    relayLines sources prefs = none ↔
      (∃ e, Java.parseInt sources.tables (prefs.getString "pref_or_port".toList
        "9001".toList) = .error e) ∨ sources.writeDNSFile = none := by
  unfold relayLines
  cases Java.parseInt sources.tables (prefs.getString "pref_or_port".toList "9001".toList) with
  | error e => simp
  | ok orPort =>
      cases sources.writeDNSFile with
      | none => simp
      | some dnsFile => simp

theorem relayEntries_none_iff : relayEntries sources prefs = none ↔ RelayFails sources prefs := by
  unfold relayEntries
  constructor
  · intro none
    split_ifs at none with used
    simp only [Bool.and_eq_true, Bool.not_eq_true'] at used
    exact ⟨used.1.1, used.1.2, used.2, (relayLines_none_iff sources prefs).mp none⟩
  · intro fails
    rw [if_pos (by rw [fails.relay, fails.noBridges, fails.reachable]; decide)]
    exact (relayLines_none_iff sources prefs).mpr fails.throws

/-- The rows stand at the end, if the relay settings do not end the method. -/
theorem processSettingsImpl_services :
    processSettingsImpl sources prefs = processSettingsImpl (withoutRows sources) prefs ++
      if relayEntries sources prefs = none then [] else partEntries sources := by
  have settings : settingsLines sources prefs = settingsLines (withoutRows sources) prefs ++
      if relayEntries sources prefs = none then [] else servicePart sources := by
    have route : routeLines (withoutRows sources) prefs = routeLines sources prefs := rfl
    have relay : relayEntries (withoutRows sources) prefs = relayEntries sources prefs := rfl
    have bare : servicePart (withoutRows sources) = [] := rfl
    rw [settingsLines, settingsLines, route, serviceLines, serviceLines, relay, bare]
    cases relayEntries sources prefs with
    | none => simp
    | some relay => simp
  rw [processSettingsImpl, settings, List.map_append, apply_ite (List.map TorrcLine.text)]
  rfl

end Part

/-! ## When the part is complete -/

section Blocks

variable {sources : TorrcSources}

/-- Every row has its block if and only if every directory has a path. -/
theorem blocks_iff (rows : List HiddenServiceRow) :
    (∃ blocks, List.Forall₂ (BlockOf sources) rows blocks) ↔
      ∀ row ∈ rows, sources.hiddenServiceDir row.port ≠ none := by
  induction rows with
  | nil => simp
  | cons row rows ih =>
      rw [List.forall_mem_cons, ← ih, Option.ne_none_iff_exists']
      constructor
      · rintro ⟨blocks, spelled⟩
        cases spelled with
        | cons first others =>
            obtain ⟨hsDirPath, found, -⟩ := first
            exact ⟨⟨hsDirPath, found⟩, _, others⟩
      · rintro ⟨⟨hsDirPath, found⟩, blocks, others⟩
        exact ⟨_, .cons ⟨hsDirPath, found, rfl⟩ others⟩

/-- The loop writes these blocks. -/
theorem hiddenServiceLines_blocks {rows : List HiddenServiceRow}
    {blocks : List (List TorrcLine)}
    (spelled : List.Forall₂ (BlockOf sources) rows blocks) :
    hiddenServiceLines sources rows = blocks.flatten := by
  induction spelled with
  | nil => rfl
  | cons first others ih =>
      obtain ⟨hsDirPath, found, rfl⟩ := first
      rw [hiddenServiceLines, found, List.flatten_cons, ← ih]

theorem spellsServices_iff (part : List Text) :
    SpellsServices sources part ↔
      (∀ row ∈ serviceRows sources, sources.hiddenServiceDir row.port ≠ none) ∧
        part = partEntries sources := by
  rw [← blocks_iff]
  constructor
  · rintro ⟨blocks, spelled, same⟩
    rw [← hiddenServiceLines_blocks spelled] at same
    exact ⟨⟨blocks, spelled⟩, same⟩
  · rintro ⟨⟨blocks, spelled⟩, same⟩
    rw [partEntries, servicePart, hiddenServiceLines_blocks spelled] at same
    exact ⟨blocks, spelled, same⟩

theorem partEntries_nil_iff
    (paths : ∀ row ∈ serviceRows sources, sources.hiddenServiceDir row.port ≠ none) :
    partEntries sources = [] ↔ serviceRows sources = [] ∧ cookieRows sources = [] := by
  rw [partEntries, List.map_eq_nil_iff, servicePart, List.append_eq_nil_iff, clientCookieLines,
    List.map_eq_nil_iff]
  apply and_congr_left
  intro _
  cases rows : serviceRows sources with
  | nil => simp [hiddenServiceLines]
  | cons row others =>
      rw [rows] at paths
      obtain ⟨hsDirPath, found⟩ :=
        Option.ne_none_iff_exists'.mp (paths row (List.mem_cons_self ..))
      rw [hiddenServiceLines, found]
      exact iff_of_false (List.cons_ne_nil _ _) (List.cons_ne_nil row others)

end Blocks

/-- Nothing of the part is lost: there is nothing to write, or the relay settings
    of neither run fail. -/
def PartKept (sources : TorrcSources) (prefs prefs' : SharedPreferences) : Prop :=
  (serviceRows sources = [] ∧ cookieRows sources = []) ∨
    (¬RelayFails sources prefs ∧ ¬RelayFails sources prefs')

/-- The part is complete and the same in both runs if and only if every directory
    has a path and no relay settings fail over rows. -/
theorem servicesIndependent_iff (sources : TorrcSources) (prefs prefs' : SharedPreferences) :
    ServicesIndependent sources prefs prefs' ↔
      (∀ row ∈ serviceRows sources, sources.hiddenServiceDir row.port ≠ none) ∧
        PartKept sources prefs prefs' := by
  have appended (prefs : SharedPreferences) (part : List Text) :
      processSettingsImpl sources prefs = processSettingsImpl (withoutRows sources) prefs ++ part ↔
        part = if relayEntries sources prefs = none then [] else partEntries sources := by
    rw [processSettingsImpl_services, List.append_cancel_left_eq]
    exact eq_comm
  simp only [ServicesIndependent, spellsServices_iff, appended, PartKept,
    ← relayEntries_none_iff]
  constructor
  · rintro ⟨part, ⟨paths, rfl⟩, first, second⟩
    constructor
    · exact paths
    · by_cases empty : partEntries sources = []
      · exact .inl ((partEntries_nil_iff paths).mp empty)
      · right
        constructor
        · intro fails
          rw [if_pos fails] at first
          exact empty first
        · intro fails
          rw [if_pos fails] at second
          exact empty second
  · rintro ⟨paths, none | ⟨first, second⟩⟩
    · have empty := (partEntries_nil_iff paths).mpr none
      refine ⟨partEntries sources, ⟨paths, rfl⟩, ?_, ?_⟩
      · rw [empty, ite_self]
      · rw [empty, ite_self]
    · exact ⟨partEntries sources, ⟨paths, rfl⟩, (if_neg first).symm, (if_neg second).symm⟩

/-- A relay port that is no number leaves the hidden service out. -/
theorem relay_port_drops_services :
    ¬∀ sources prefs prefs', (∀ row ∈ serviceRows sources,
      sources.hiddenServiceDir row.port ≠ none) → ServicesIndependent sources prefs prefs' := by
  intro claimed
  let sources : TorrcSources :=
    { exampleSources with
      hiddenServiceDir := fun _ => some "/data/data/app/hs".toList
      hiddenServices := some [⟨some "web".toList, 8080, 80, 0⟩] }
  let prefs := SharedPreferences.of [("pref_or_port".toList, "onion".toList)]
    [("pref_or".toList, true)]
  obtain ⟨part, spelled, appended, -⟩ :=
    claimed sources prefs (.of [] []) (fun _ _ => Option.some_ne_none _)
  have same : processSettingsImpl sources prefs =
      processSettingsImpl (withoutRows sources) prefs := by decide +kernel
  have empty := List.self_eq_append_right.mp (same.symm.trans appended)
  rw [empty, spellsServices_iff] at spelled
  exact absurd spelled.2 (by decide)

end Orbot.Service
