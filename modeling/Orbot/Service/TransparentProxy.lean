import Mathlib.Data.List.Flatten
import Mathlib.Data.List.Perm.Subperm
import Orbot.Lib.Ledger
import Orbot.Lib.Transition
import Orbot.Service.Prefs
import Orbot.TransProxy.TorifiedApps

/-! # Switching transparent proxying on and off

`TorService.enableTransparentProxy` and `disableTransparentProxy`, and the
calls that lead to them. Rules are only ever deleted by rendering them once
more, from the ports, the mode and the object of that moment. The state
therefore also keeps, for the statements alone, what is switched on since the
last disabling and every rule any enabling has added.
-/

namespace Orbot.Service

open Java (Text CharTables RuntimeException)
open TransProxy
open Lib

/-! ## The service -/

/-- What one operation reads of the preferences and of the service. -/
structure Settings where
  prefs : SharedPreferences
  mPortSOCKS : Int := socksProxyPortDefault

/-- The HTTP port of the service is never assigned. -/
def Settings.ports (settings : Settings) : ServicePorts :=
  { mPortHTTP := httpProxyPortDefault, mPortSOCKS := settings.mPortSOCKS }

/-- What stays the same for the life of the service. -/
structure Machine where
  tables : CharTables
  device : Device
  pMgr : PackageManager

/-- `PREFS_KEY_TORIFIED` -/
def Settings.torified (settings : Settings) : Text :=
  settings.prefs.getString "PrefTord".toList []

def Machine.apps (m : Machine) (settings : Settings) : List TorifiedApp :=
  getApps m.pMgr settings.torified

/-- "we just want the port for this" -/
def portText (pref : Text) : Except RuntimeException Text :=
  if Java.indexOf pref ':' ≠ -1 then Java.get (Java.split pref ':') 1 else .ok pref

/-- The ports are set one after the other; the flag says whether both were
    set, otherwise an exception ends the operation. -/
def setPorts (m : Machine) (settings : Settings) (proxy : TorTransProxy) : TorTransProxy × Bool :=
  let transProxy :=
    settings.prefs.getString "pref_transport".toList (number torTransproxyPortDefault)
  let dnsPort := settings.prefs.getString "pref_dnsport".toList (number torTransproxyPortDefault)
  match portText transProxy, portText dnsPort with
  | .ok transProxy, .ok dnsPort =>
      match Java.parseInt m.tables transProxy with
      | .error _ => (proxy, false)
      | .ok port =>
          match Java.parseInt m.tables dnsPort with
          | .error _ => ({ proxy with mTransProxyPort := port }, false)
          | .ok port' => ({ proxy with mTransProxyPort := port, mDNSPort := port' }, true)
  | _, _ => (proxy, false)

/-- The commands of `enableTransparentProxy` once the ports are set. -/
def enableCommands (m : Machine) (settings : Settings) (proxy : TorTransProxy) : Outcome :=
  let outcome :=
    if settings.prefs.transparentProxyAll then
      setTransparentProxyingAll m.device settings.ports proxy true
    else setTransparentProxyingByApp m.device proxy (m.apps settings) true
  if outcome.lastExit = 0 ∧ settings.prefs.transparentTethering = true then
    let tethering := enableTetheringRules m.device outcome.proxy
    { tethering with issued := outcome.issued ++ tethering.issued }
  else outcome

def enableTransparentProxy (m : Machine) (settings : Settings)
    (mTransProxy : Option TorTransProxy) : Outcome :=
  let (proxy, ready) := setPorts m settings (mTransProxy.getD {})
  if ready then enableCommands m settings proxy
  else { proxy := proxy, issued := [], lastExit := -1 }

/-- The object is dropped afterwards. -/
def disableTransparentProxy (m : Machine) (settings : Settings)
    (mTransProxy : Option TorTransProxy) : Outcome :=
  let all := setTransparentProxyingAll m.device settings.ports (mTransProxy.getD {}) false
  let byApp := setTransparentProxyingByApp m.device all.proxy (m.apps settings) false
  { byApp with issued := all.issued ++ byApp.issued }

/-! ## Histories of calls -/

inductive Operation where
  | enable (settings : Settings)
  | disable (settings : Settings)

inductive Call where
  | enableTransparentProxy (settings : Settings)
  | disableTransparentProxy (settings : Settings)
  /-- a change of the network connection -/
  | networkRefresh (settings : Settings)
  | processTransparentProxying (settings : Settings)

def Call.operations : Call → List Operation
  | .enableTransparentProxy settings => [.enable settings]
  | .disableTransparentProxy settings => [.disable settings]
  | .networkRefresh settings =>
      if settings.prefs.useRoot && settings.prefs.useTransparentProxying &&
          settings.prefs.transProxyNetworkRefresh
      then [.disable settings, .enable settings] else []
  | .processTransparentProxying settings =>
      if settings.prefs.useRoot then
        if settings.prefs.useTransparentProxying then [.enable settings] else [.disable settings]
      else []

/-- How a mode was switched on. -/
structure SwitchedOn where
  transPort : Int
  dnsPort : Int
  settings : Settings

/-- The modes switched on since the last disabling. -/
structure Ledger where
  wholeDevice : Option SwitchedOn := none
  perApp : Option SwitchedOn := none

def Ledger.mode (ledger : Ledger) (transparentProxyAll : Bool) : Option SwitchedOn :=
  if transparentProxyAll then ledger.wholeDevice else ledger.perApp

def Ledger.record (ledger : Ledger) (on : SwitchedOn) : Ledger :=
  if on.settings.prefs.transparentProxyAll then { ledger with wholeDevice := some on }
  else { ledger with perApp := some on }

structure TorService where
  mTransProxy : Option TorTransProxy := none
  rules : Ruleset
  /-- what is left of the call that is running -/
  pending : List Operation := []
  ledger : Ledger := {}
  /-- every rule added by an enabling so far -/
  added : Ruleset := []
  /-- the last completed operation was a disabling -/
  disabled : Bool := false

def TorService.proxy (s : TorService) : TorTransProxy := s.mTransProxy.getD {}

def Operation.outcome (m : Machine) (s : TorService) : Operation → Outcome
  | .enable settings => enableTransparentProxy m settings s.mTransProxy
  | .disable settings => disableTransparentProxy m settings s.mTransProxy

def Operation.execute (m : Machine) (s : TorService) (op : Operation) : TorService :=
  let outcome := op.outcome m s
  let rules := s.rules.execAll m.device outcome.issued
  match op with
  | .enable settings =>
      let (proxy, ready) := setPorts m settings s.proxy
      { s with
        mTransProxy := some outcome.proxy
        rules := rules
        ledger :=
          if ready then s.ledger.record ⟨proxy.mTransProxyPort, proxy.mDNSPort, settings⟩
          else s.ledger
        added := s.added ++ outcome.issued.map Command.entry
        disabled := false }
  | .disable _ => { s with mTransProxy := none, rules := rules, ledger := {}, disabled := true }

theorem execute_disable_rules (m : Machine) (s : TorService) (settings : Settings) :
    ((Operation.disable settings).execute m s).rules =
      s.rules.execAll m.device (disableTransparentProxy m settings s.mTransProxy).issued := rfl

/-- Calls follow one another; a call runs its operations one at a time. -/
inductive Event where
  | call (call : Call)
  | proceed

def step (m : Machine) (s : TorService) : Event → Option TorService
  | .call call => if s.pending.isEmpty then some { s with pending := call.operations } else none
  | .proceed =>
      match s.pending with
      | [] => none
      | op :: rest => some { op.execute m s with pending := rest }

/-! ## When additions and deletions balance -/

/-- Tethering is on, and the mode reports success: per-app mode with no app
    selected does not. -/
def Machine.tethers (m : Machine) (settings : Settings) : Bool :=
  settings.prefs.transparentTethering &&
    (settings.prefs.transparentProxyAll || !(capturedUids (m.apps settings)).isEmpty)

/-- An enabling adds no tethering rule, and its mode is not switched on yet
    since the last disabling; a disabling finds the ports with which the rules
    in place were added. The rules of per-app mode mention the trans port only
    where an app is selected. An enabling whose ports do not parse adds
    nothing. -/
def Operation.Balanced (m : Machine) (s : TorService) : Operation → Prop
  | .enable settings =>
      (setPorts m settings s.proxy).2 = true →
        m.tethers settings = false ∧ (s.ledger.mode settings.prefs.transparentProxyAll).isNone
  | .disable settings =>
      (∀ on ∈ s.ledger.wholeDevice, on.transPort = s.proxy.mTransProxyPort ∧
        on.dnsPort = s.proxy.mDNSPort ∧ on.settings.mPortSOCKS = settings.mPortSOCKS) ∧
      (∀ on ∈ s.ledger.perApp, on.dnsPort = s.proxy.mDNSPort ∧
        (capturedUids (m.apps on.settings) ≠ [] → on.transPort = s.proxy.mTransProxyPort))

def Balanced (m : Machine) (s : TorService) : Event → Prop
  | .call _ => True
  | .proceed => ∀ op ∈ s.pending.head?, op.Balanced m s

/-- Every command of the operation that is run succeeds. -/
def Executed (m : Machine) (s : TorService) : Event → Prop
  | .call _ => True
  | .proceed => ∀ op ∈ s.pending.head?, AllSucceed m.device (op.outcome m s).issued

abbrev ReachesBalanced (m : Machine) : TorService → TorService → Prop :=
  Transition.Reaches (step m) fun s event => Executed m s event ∧ Balanced m s event

/-- A rule some transparent proxy operation can add. -/
def TransproxyEntry (device : Device) (e : Slot × Rule) : Prop :=
  ∃ (ports : ServicePorts) (proxy : TorTransProxy) (apps : List TorifiedApp) (enable : Bool),
    e ∈ allEntries device ports proxy ∨ e ∈ byAppEntries proxy apps enable ∨
      e ∈ tetheringEntries proxy

/-! ## The rules an operation touches -/

section Touched

variable (m : Machine) (settings : Settings)

theorem allEntries_congr (device : Device) {ports ports' : ServicePorts}
    {proxy proxy' : TorTransProxy} (trans : proxy.mTransProxyPort = proxy'.mTransProxyPort)
    (dns : proxy.mDNSPort = proxy'.mDNSPort) (same : ports = ports') :
    allEntries device ports proxy = allEntries device ports' proxy' := by
  simp only [allEntries, allRules, trans, dns, same]

/-- The rules of the mode that is switched on. -/
def modeEntries (proxy : TorTransProxy) : Ruleset :=
  if settings.prefs.transparentProxyAll then allEntries m.device settings.ports proxy
  else byAppEntries proxy (m.apps settings) true

/-- What the call for the mode appends, returns, and leaves in the object. -/
theorem mode_spec (proxy : TorTransProxy) :
    let outcome :=
      if settings.prefs.transparentProxyAll then
        setTransparentProxyingAll m.device settings.ports proxy true
      else setTransparentProxyingByApp m.device proxy (m.apps settings) true
    outcome.issued.map Command.entry = modeEntries m settings proxy ∧
      (∀ c ∈ outcome.issued, c.action = .append) ∧
      tetheringEntries outcome.proxy = tetheringEntries proxy ∧
      (outcome.lastExit = 0 ∧ settings.prefs.transparentTethering = true ↔
        m.tethers settings = true) := by
  cases mode : settings.prefs.transparentProxyAll with
  | true =>
      obtain ⟨_, trans, dns, code⟩ :=
        setTransparentProxyingAll_spec m.device settings.ports proxy true
      refine ⟨?_, ?_, ?_, ?_⟩
      · simp only [modeEntries, mode, if_true, setTransparentProxyingAll_entries]
      · exact setTransparentProxyingAll_action m.device settings.ports proxy true
      · simp only [if_true, tetheringEntries, trans, dns]
      · simp [code, Machine.tethers, mode]
  | false =>
      obtain ⟨_, trans, dns, code⟩ :=
        setTransparentProxyingByApp_spec m.device proxy (m.apps settings) true
      refine ⟨?_, ?_, ?_, ?_⟩
      · simp only [modeEntries, mode, Bool.false_eq_true, if_false,
          setTransparentProxyingByApp_entries]
      · exact setTransparentProxyingByApp_action m.device proxy (m.apps settings) true
      · simp only [Bool.false_eq_true, if_false, tetheringEntries, trans, dns]
      · -- with no app selected the return value is -1
        by_cases none : selected true (m.apps settings) = []
        · simp [code, none, Machine.tethers, mode, capturedUids]
        · simp [code, none, Machine.tethers, mode, capturedUids]

/-- An enabling appends the rules of its mode, and behind them the tethering
    rules. -/
theorem enableCommands_spec (proxy : TorTransProxy) :
    (enableCommands m settings proxy).issued.map Command.entry =
        modeEntries m settings proxy ++
          (if m.tethers settings then tetheringEntries proxy else []) ∧
      ∀ c ∈ (enableCommands m settings proxy).issued, c.action = .append := by
  obtain ⟨entries, appends, tethering, code⟩ := mode_spec m settings proxy
  by_cases tethers : m.tethers settings = true
  · simp only [enableCommands, if_pos (code.mpr tethers), if_pos tethers, List.map_append, entries,
      enableTetheringRules_entries, tethering, true_and]
    intro c member
    rcases List.mem_append.mp member with first | second
    · exact appends c first
    · exact enableTetheringRules_action m.device _ c second
  · simp only [enableCommands, if_neg (mt code.mp tethers), if_neg tethers, entries,
      List.append_nil, true_and]
    exact appends

/-- A disabling deletes the rules of both modes, as they would be added now,
    and in per-app mode those of every app. -/
theorem disableTransparentProxy_spec (mTransProxy : Option TorTransProxy) :
    (disableTransparentProxy m settings mTransProxy).issued.map Command.entry =
        allEntries m.device settings.ports (mTransProxy.getD {}) ++
          byAppEntries (mTransProxy.getD {}) (m.apps settings) false ∧
      ∀ c ∈ (disableTransparentProxy m settings mTransProxy).issued, c.action = .delete := by
  obtain ⟨_, trans, dns, _⟩ := setTransparentProxyingAll_spec m.device settings.ports
    (mTransProxy.getD {}) false
  constructor
  · simp only [disableTransparentProxy, List.map_append, setTransparentProxyingAll_entries,
      setTransparentProxyingByApp_entries, byAppEntries, trans, dns]
  · intro c member
    rcases List.mem_append.mp member with all | byApp
    · exact setTransparentProxyingAll_action _ _ _ false c all
    · exact setTransparentProxyingByApp_action _ _ _ false c byApp

/-- What an enabling in per-app mode added, a disabling deletes, whichever
    apps are torified by then. -/
theorem byAppEntries_subperm (settings' : Settings) {proxy proxy' : TorTransProxy}
    (dns : proxy.mDNSPort = proxy'.mDNSPort)
    (trans : capturedUids (m.apps settings) ≠ [] → proxy.mTransProxyPort = proxy'.mTransProxyPort) :
    (byAppEntries proxy (m.apps settings) true).Subperm
      (byAppEntries proxy' (m.apps settings') false) := by
  have uids := capturedUids_sublist m.pMgr settings.torified settings'.torified
  apply List.Sublist.subperm
  rw [byAppEntries, byAppEntries, dns]
  apply List.Sublist.cons_cons
  by_cases none : capturedUids (m.apps settings) = []
  · have empty : (selected true (m.apps settings)).map TorifiedApp.uid = [] := none
    simp only [empty, List.flatMap_nil, List.nil_sublist]
  · rw [trans none]
    exact uids.flatMap _

end Touched

/-! ## The invariant -/

def SwitchedOn.proxy (on : SwitchedOn) : TorTransProxy :=
  { mTransProxyPort := on.transPort, mDNSPort := on.dnsPort }

/-- The rules in place for the modes switched on. -/
def Ledger.entries (m : Machine) (ledger : Ledger) : Ruleset :=
  ledger.wholeDevice.elim [] (fun on => allEntries m.device on.settings.ports on.proxy) ++
    ledger.perApp.elim [] (fun on => byAppEntries on.proxy (m.apps on.settings) true)

/-- Behind the base stand the rules of the modes switched on, in some order. -/
structure Accounted (m : Machine) (base : Ruleset) (s : TorService) : Prop where
  behind : ∃ recent : Ruleset, s.rules = base ++ recent ∧ recent.Perm (s.ledger.entries m)
  known : ∀ e ∈ s.added, TransproxyEntry m.device e
  settled : s.disabled = true → s.ledger = {}

section Invariant

variable {m : Machine} {base : Ruleset} {s : TorService}

/-- Switching on a mode that was off appends its rules to those in place. -/
theorem Ledger.entries_record (m : Machine) (ledger : Ledger) (on : SwitchedOn) {added : Ruleset}
    (fresh : (ledger.mode on.settings.prefs.transparentProxyAll).isNone)
    (entries : added = modeEntries m on.settings on.proxy) :
    (ledger.entries m ++ added).Perm ((ledger.record on).entries m) := by
  rw [modeEntries] at entries
  cases mode : on.settings.prefs.transparentProxyAll with
  | true =>
      simp only [mode, Ledger.mode, if_true, Option.isNone_iff_eq_none] at fresh
      simp only [mode, if_true] at entries
      simp only [Ledger.entries, Ledger.record, mode, fresh, entries, if_true, Option.elim_none,
        Option.elim_some, List.nil_append]
      exact List.perm_append_comm
  | false =>
      simp only [mode, Ledger.mode, Bool.false_eq_true, if_false,
        Option.isNone_iff_eq_none] at fresh
      simp only [mode, Bool.false_eq_true, if_false] at entries
      simp only [Ledger.entries, Ledger.record, mode, fresh, entries, Bool.false_eq_true, if_false,
        Option.elim_none, Option.elim_some, List.append_nil, List.Perm.refl]

theorem Accounted.enable (inv : Accounted m base s) {settings : Settings}
    (succeed : AllSucceed m.device ((Operation.enable settings).outcome m s).issued)
    (balanced : (Operation.enable settings).Balanced m s) :
    Accounted m base ((Operation.enable settings).execute m s) := by
  obtain ⟨recent, rules, perm⟩ := inv.behind
  rcases set : setPorts m settings s.proxy with ⟨proxy, ready⟩
  have set' : setPorts m settings (s.mTransProxy.getD {}) = (proxy, ready) := set
  cases ready with
  | false =>
      have silent : ((Operation.enable settings).outcome m s).issued = [] := by
        simp only [Operation.outcome, enableTransparentProxy, set', Bool.false_eq_true, if_false]
      constructor
      · exact ⟨recent, by simp only [Operation.execute, silent, Ruleset.execAll, List.foldl_nil,
          rules], by simpa only [Operation.execute, set, Bool.false_eq_true, if_false] using perm⟩
      · simpa only [Operation.execute, silent, List.map_nil, List.append_nil] using inv.known
      · intro disabled
        exact absurd disabled (by simp [Operation.execute])
  | true =>
      obtain ⟨plain, fresh⟩ := balanced (by rw [set])
      have outcome : (Operation.enable settings).outcome m s = enableCommands m settings proxy := by
        simp only [Operation.outcome, enableTransparentProxy, set', if_true]
      rw [outcome] at succeed
      obtain ⟨entries, appends⟩ := enableCommands_spec m settings proxy
      rw [plain, if_neg Bool.false_ne_true, List.append_nil] at entries
      constructor
      · refine ⟨recent ++ (enableCommands m settings proxy).issued.map Command.entry, ?_, ?_⟩
        · simp only [Operation.execute, outcome, Ruleset.execAll_appends _ succeed appends, rules,
            List.append_assoc]
        · have record := Ledger.entries_record m s.ledger
            ⟨proxy.mTransProxyPort, proxy.mDNSPort, settings⟩ fresh entries
          simp only [Operation.execute, set, if_true]
          exact (perm.append_right _).trans record
      · intro e member
        simp only [Operation.execute, outcome, entries] at member
        rcases List.mem_append.mp member with old | new
        · exact inv.known e old
        · rw [modeEntries] at new
          cases mode : settings.prefs.transparentProxyAll with
          | true =>
              rw [mode, if_pos rfl] at new
              exact ⟨settings.ports, proxy, [], true, .inl new⟩
          | false =>
              rw [mode, if_neg (by simp)] at new
              exact ⟨settings.ports, proxy, m.apps settings, true, .inr (.inl new)⟩
      · intro disabled
        exact absurd disabled (by simp [Operation.execute])

/-- A disabling that finds the ports unchanged deletes all that is in place. -/
theorem Ledger.entries_subperm (m : Machine) {ledger : Ledger} (settings : Settings)
    {proxy : TorTransProxy}
    (wholeDevice : ∀ on ∈ ledger.wholeDevice, on.transPort = proxy.mTransProxyPort ∧
      on.dnsPort = proxy.mDNSPort ∧ on.settings.mPortSOCKS = settings.mPortSOCKS)
    (perApp : ∀ on ∈ ledger.perApp, on.dnsPort = proxy.mDNSPort ∧
      (capturedUids (m.apps on.settings) ≠ [] → on.transPort = proxy.mTransProxyPort)) :
    (ledger.entries m).Subperm
      (allEntries m.device settings.ports proxy ++ byAppEntries proxy (m.apps settings) false) := by
  apply List.Subperm.append
  · cases all : ledger.wholeDevice with
    | none => exact List.nil_subperm
    | some on =>
        obtain ⟨trans, dns, socks⟩ := wholeDevice on all
        have ports : on.settings.ports = settings.ports := by
          rw [Settings.ports, Settings.ports, socks]
        rw [Option.elim_some, allEntries_congr m.device trans dns ports]
  · cases byApp : ledger.perApp with
    | none => exact List.nil_subperm
    | some on =>
        obtain ⟨dns, trans⟩ := perApp on byApp
        exact byAppEntries_subperm m on.settings settings dns trans

theorem Accounted.disable (clean : ∀ e ∈ base, ¬ TransproxyEntry m.device e)
    (inv : Accounted m base s) {settings : Settings}
    (succeed : AllSucceed m.device ((Operation.disable settings).outcome m s).issued)
    (balanced : (Operation.disable settings).Balanced m s) :
    Accounted m base ((Operation.disable settings).execute m s) := by
  simp only [Operation.outcome] at succeed
  obtain ⟨recent, rules, perm⟩ := inv.behind
  obtain ⟨entries, deletes⟩ := disableTransparentProxy_spec m settings s.mTransProxy
  have fresh : ∀ e ∈ allEntries m.device settings.ports s.proxy ++
      byAppEntries s.proxy (m.apps settings) false, e ∉ base := by
    intro e member inBase
    rcases List.mem_append.mp member with all | byApp
    · exact clean e inBase ⟨settings.ports, s.proxy, [], false, .inl all⟩
    · exact clean e inBase ⟨settings.ports, s.proxy, m.apps settings, false, .inr (.inl byApp)⟩
  have covered := (perm.subperm).trans
    (Ledger.entries_subperm m settings balanced.1 balanced.2)
  have restored : ((Operation.disable settings).execute m s).rules = base := calc
    _ = s.rules.execAll m.device (disableTransparentProxy m settings s.mTransProxy).issued :=
      execute_disable_rules m s settings
    _ = s.rules.diff (allEntries m.device settings.ports s.proxy ++
          byAppEntries s.proxy (m.apps settings) false) := by
      rw [Ruleset.execAll_deletes _ succeed deletes, entries, ← List.diff_eq_foldl]
      rfl
    _ = base := by rw [rules, Lib.Ledger.diff_restores fresh covered]
  exact ⟨⟨[], by rw [restored, List.append_nil], .refl _⟩, inv.known, fun _ => rfl⟩

/-- The operations keep the invariant, whatever calls they belong to. -/
theorem Accounted.step (clean : ∀ e ∈ base, ¬ TransproxyEntry m.device e)
    (inv : Accounted m base s) {event : Event} (executed : Executed m s event)
    (balanced : Balanced m s event) {s' : TorService} (taken : step m s event = some s') :
    Accounted m base s' := by
  cases event with
  | call call =>
      simp only [Service.step] at taken
      split_ifs at taken
      obtain rfl := Option.some.inj taken
      exact ⟨inv.behind, inv.known, inv.settled⟩
  | proceed =>
      cases pending : s.pending with
      | nil => simp [Service.step, pending] at taken
      | cons op rest =>
          have succeed := executed op (by simp [pending])
          have balances := balanced op (by simp [pending])
          simp only [Service.step, pending] at taken
          obtain rfl := Option.some.inj taken
          have kept : Accounted m base (op.execute m s) := by
            cases op with
            | enable settings => exact inv.enable succeed balances
            | disable settings => exact inv.disable clean succeed balances
          exact ⟨kept.behind, kept.known, kept.settled⟩

end Invariant

/-- In every history of calls whose additions and deletions balance, no rule
    added by an earlier enabling is left right after a disabling. -/
theorem disable_leaves_no_rule (m : Machine) (base : Ruleset)
    (clean : ∀ e ∈ base, ¬ TransproxyEntry m.device e) (mTransProxy : Option TorTransProxy)
    (s : TorService)
    (reached : ReachesBalanced m { mTransProxy, rules := base } s)
    (disabled : s.disabled = true) : ∀ e ∈ s.added, e ∉ s.rules := by
  have start : Accounted m base { mTransProxy, rules := base } :=
    ⟨⟨[], by simp, .refl _⟩, by simp, by simp⟩
  have inv := reached.invariant start fun s event s' inv allowed taken =>
    Accounted.step clean inv allowed.1 allowed.2 taken
  obtain ⟨recent, rules, perm⟩ := inv.behind
  rw [inv.settled disabled] at perm
  have nothing : recent = [] := List.perm_nil.mp perm
  intro e member remains
  rw [rules, nothing, List.append_nil] at remains
  exact clean e remains (inv.known e member)

/-! ## Runs -/

/-- With the bundled binary, the default, every command succeeds. -/
theorem executed_of_bundled {m : Machine} (bundled : m.device.useSystemIpTables = false)
    (s : TorService) (event : Event) : Executed m s event := by
  cases event with
  | call => trivial
  | proceed =>
      intro op _ c member
      cases op with
      | disable settings =>
          rcases List.mem_append.mp member with all | byApp
          · exact allSucceed_all bundled _ _ false c all
          · exact allSucceed_byApp bundled _ _ false c byApp
      | enable settings =>
          simp only [Operation.outcome, enableTransparentProxy, enableCommands] at member
          split_ifs at member
          · rcases List.mem_append.mp member with all | tethering
            · exact allSucceed_all bundled _ _ true c all
            · exact allSucceed_tethering bundled _ c tethering
          · exact allSucceed_all bundled _ _ true c member
          · rcases List.mem_append.mp member with byApp | tethering
            · exact allSucceed_byApp bundled _ _ true c byApp
            · exact allSucceed_tethering bundled _ c tethering
          · exact allSucceed_byApp bundled _ _ true c member
          · simp at member

/-- Nothing a disabling deletes is in a PREROUTING chain. -/
theorem disableTransparentProxy_chain (m : Machine) (settings : Settings)
    (mTransProxy : Option TorTransProxy) :
    ∀ e ∈ (disableTransparentProxy m settings mTransProxy).issued.map Command.entry,
      e.1.chain = .output := by
  rw [(disableTransparentProxy_spec m settings mTransProxy).1]
  intro e member
  rcases List.mem_append.mp member with all | byApp
  · rcases List.mem_cons.mp all with rfl | listed
    · rfl
    · obtain ⟨_, _, rfl⟩ := List.mem_map.mp listed
      rfl
  · rcases List.mem_cons.mp byApp with rfl | listed
    · rfl
    · obtain ⟨uid, _, entry⟩ := List.mem_flatMap.mp listed
      simp only [appEntries, List.mem_cons, List.not_mem_nil, or_false] at entry
      rcases entry with rfl | rfl | rfl <;> rfl

/-- So a rule of a PREROUTING chain is there after every disabling. -/
theorem prerouting_survives (m : Machine) (s : TorService) (settings : Settings)
    (succeed : AllSucceed m.device ((Operation.disable settings).outcome m s).issued)
    {e : Slot × Rule} (present : e ∈ s.rules) (prerouting : e.1.chain = .prerouting) :
    e ∈ ((Operation.disable settings).execute m s).rules := by
  have spared : e ∉ (disableTransparentProxy m settings s.mTransProxy).issued.map
      Command.entry := by
    intro deleted
    have output := disableTransparentProxy_chain m settings s.mTransProxy e deleted
    rw [prerouting] at output
    exact absurd output (by decide)
  have deletes := (disableTransparentProxy_spec m settings s.mTransProxy).2
  simp only [Operation.outcome] at succeed
  rw [execute_disable_rules, Ruleset.execAll_deletes _ succeed deletes, ← List.diff_eq_foldl]
  exact List.mem_diff_of_mem present spared

def exampleMachine : Machine := ⟨CharTables.ascii, bundledDevice, embeddingApp⟩

def portPrefs : List (Text × Text) :=
  [("pref_transport".toList, "9040".toList), ("pref_dnsport".toList, "5400".toList)]

def exampleSettings : Settings :=
  { prefs := .of portPrefs [("pref_transparent_all".toList, true)] }

/-- The service after one call that runs one operation. -/
def afterCall (m : Machine) (s : TorService) (op : Operation) : TorService :=
  { op.execute m { s with pending := [op] } with pending := [] }

theorem afterCall_rules (m : Machine) (s : TorService) (op : Operation) :
    (afterCall m s op).rules = (op.execute m { s with pending := [op] }).rules := rfl

theorem reaches_afterCall {m : Machine} {ok : TorService → Event → Prop} {start s : TorService}
    (call : Call) {op : Operation} (single : call.operations = [op])
    (reached : Transition.Reaches (step m) ok start s) (idle : s.pending = [])
    (called : ok s (.call call)) (proceeds : ok { s with pending := [op] } .proceed) :
    Transition.Reaches (step m) ok start (afterCall m s op) := by
  have pending : Transition.Reaches (step m) ok start { s with pending := [op] } :=
    reached.next called (by rw [step, idle, single]; rfl)
  exact pending.next proceeds rfl

def switchedOn (settings : Settings) : TorService :=
  afterCall exampleMachine { rules := [] } (.enable settings)

def switchedOff (settings : Settings) : TorService :=
  afterCall exampleMachine (switchedOn settings) (.disable settings)

theorem reaches_switchedOff {ok : TorService → Event → Prop} (settings : Settings)
    (called : ∀ s call, ok s (.call call))
    (enables : ok { rules := [], pending := [.enable settings] } .proceed)
    (disables : ok { switchedOn settings with pending := [.disable settings] } .proceed) :
    Transition.Reaches (step exampleMachine) ok { rules := [] } (switchedOff settings) :=
  have on : Transition.Reaches (step exampleMachine) ok { rules := [] } (switchedOn settings) :=
    reaches_afterCall (.enableTransparentProxy settings) rfl .here rfl (called _ _) enables
  reaches_afterCall (.disableTransparentProxy settings) rfl on rfl (called _ _) disables

theorem disable_leaves_no_rule_wholeDevice :
    (switchedOff exampleSettings).added ≠ [] ∧
      ∀ e ∈ (switchedOff exampleSettings).added, e ∉ (switchedOff exampleSettings).rules := by
  have executed := executed_of_bundled (m := exampleMachine) rfl
  have off : ReachesBalanced exampleMachine { rules := [] } (switchedOff exampleSettings) := by
    refine reaches_switchedOff exampleSettings (fun s call => ⟨executed s _, trivial⟩)
      ⟨executed _ _, ?_⟩ ⟨executed _ _, ?_⟩
    · rintro _ ⟨⟩ _
      exact ⟨by decide, rfl⟩
    · rintro _ ⟨⟩
      constructor
      · rintro _ ⟨⟩
        exact ⟨rfl, rfl, rfl⟩
      · rintro _ ⟨⟩
  exact ⟨by decide, disable_leaves_no_rule exampleMachine [] (by simp) none _ off rfl⟩

def tetheringSettings : Settings :=
  { prefs := .of portPrefs [("pref_transparent_all".toList, true),
      ("pref_transparent_tethering".toList, true)] }

/-- The rule that redirects what comes in over USB. -/
def usbEntry : Slot × Rule :=
  (⟨.ipv4, .nat, .prerouting⟩, ⟨[.inInterface "usb0".toList, .proto .tcp], .redirect 9040⟩)

/-- Tethering rules are left behind. -/
theorem tethering_rules_remain :
    Transition.Reaches (step exampleMachine) (Executed exampleMachine) { rules := [] }
        (switchedOff tetheringSettings) ∧
      (switchedOff tetheringSettings).disabled = true ∧
      usbEntry ∈ (switchedOff tetheringSettings).added ∧
      usbEntry ∈ (switchedOff tetheringSettings).rules := by
  have executed := executed_of_bundled (m := exampleMachine) rfl
  refine ⟨reaches_switchedOff tetheringSettings (fun s call => executed s _) (executed _ _)
    (executed _ _), rfl, by decide, ?_⟩
  have present : usbEntry ∈ (switchedOn tetheringSettings).rules := by decide
  rw [switchedOff, afterCall_rules]
  exact prerouting_survives _ _ _ (executed _ .proceed _ rfl) present rfl

end Orbot.Service
