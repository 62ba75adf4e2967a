import Orbot.Lib.Transition
import Orbot.Service.Bridges

/-! # Changing the bridge

`OrbotManager.setBridge` stores the bridge in the preferences and, with Tor on,
has Tor reload its configuration. Between the two stands torrc.custom, which
only `TorService.updateTorConfigFile` writes.
-/

namespace Orbot.Manager

open Java (Text RuntimeException)
open Service Lib.Transition

/-! ## `setBridge` -/

/-- `OrbotConstants.BRIDGES` -/
inductive BRIDGES where
  | directly
  | community
  | cloud
  deriving Repr, DecidableEq

def BRIDGES.value : BRIDGES → Text
  | .directly => []
  | .community => "obfs4".toList
  | .cloud => "meek".toList

def putBridge (prefs : SharedPreferences) (bridge : BRIDGES) : SharedPreferences :=
  (prefs.putBoolean "pref_bridges_enabled".toList (bridge ≠ .directly)).putString
    "pref_bridges_list".toList bridge.value

/-- The preferences afterwards, and whether a CMD_SIGNAL_HUP is sent. -/
def setBridge (language : Text) (torStatus : Status) (prefs : SharedPreferences)
    (bridge : BRIDGES) : SharedPreferences × Bool :=
  let changed := putBridge prefs bridge
  (changed, torStatus = .on && changed.getBridgesList language ≠ [])

/-! ## Bridge options -/

def bridgeOptionNames : List OptionName := [.useBridges, .clientTransportPlugin, .bridge]

def isSign (c : Char) : Bool := c = '+' || c = '/'

/-- `UseBridges`, `ClientTransportPlugin` and `Bridge` lines, in any case of the
    letters. A sign before an option says what to do with the ones before it. -/
def isBridgeOption (line : Text) : Bool :=
  match words line with
  | [] => false
  | option :: _ =>
      bridgeOptionNames.any fun name => lower (option.dropWhile isSign) = lower name.text

def bridgeOptions (lines : List Text) : List Text := lines.filter isBridgeOption

/-- The line has other files read. -/
def isInclude (line : Text) : Bool := (words line).head?.map lower = some "%include".toList

/-- What one write of torrc.custom reads besides the preferences. It varies from
    write to write, but for what belongs to the installation. -/
structure Reading (sources : TorrcSources) where
  now : TorrcSources
  language : now.language = sources.language
  fileObfsclient : now.fileObfsclient = sources.fileObfsclient
  recodeLatin1 : now.recodeLatin1 = sources.recodeLatin1
  bridgeDefaults : loadBridgeDefaults now = loadBridgeDefaults sources

/-- A written torrc.custom, with the preferences it was written from. -/
structure TorrcCustom (sources : TorrcSources) where
  prefs : SharedPreferences
  reading : Reading sources
  extraLines : List Text
  written : updateTorConfigFile reading.now prefs = .ok extraLines

/-- The bridge options in its text. -/
def TorrcCustom.options {sources : TorrcSources} (torrc : TorrcCustom sources) : List Text :=
  bridgeOptions ((torrcText torrc.extraLines).splitOn '\n')

/-- A random choice of the default bridges. -/
structure Choice where
  shuffle : List Bridge → List Bridge
  shuffle_perm : ∀ bridges, (shuffle bridges).Perm bridges

def choosing (sources : TorrcSources) (choice : Choice) : TorrcSources :=
  { sources with shuffle := choice.shuffle, shuffle_perm := choice.shuffle_perm }

/-- The options are those of the preferences, up to the choice. -/
def Generated (sources : TorrcSources) (prefs : SharedPreferences) (options : List Text) : Prop :=
  ∃ choice, options = bridgeOptions (writtenSettings (choosing sources choice) prefs)

/-! ## The three copies -/

/-- The setting in the preferences, in torrc.custom, and in the Tor that runs. -/
structure Copies (sources : TorrcSources) where
  prefs : SharedPreferences
  torrcCustom : Option (TorrcCustom sources) := none
  loaded : Option (TorrcCustom sources) := none
  torStatus : Status := .off
  /-- CMD_SIGNAL_HUP intents that are not handled yet -/
  hups : Nat := 0

/-- The bridges asked for, if they are enabled. -/
def bridgeSetting (language : Text) (prefs : SharedPreferences) : Option Text :=
  if prefs.bridgesEnabled language then some (prefs.getBridgesList language) else none

inductive Action (sources : TorrcSources) where
  | setBridge (bridge : BRIDGES)
  /-- preferences that have nothing to do with bridges are edited -/
  | edit (prefs : SharedPreferences)
  | updateTorConfigFile (reading : Reading sources)
  /-- a Tor is launched and reads torrc.custom -/
  | launch
  /-- Tor ends -/
  | exit
  /-- the manager handles a message with this status -/
  | status (torStatus : Status)
  | requestTorRereadConfig

def step {sources : TorrcSources} (s : Copies sources) : Action sources → Option (Copies sources)
  | .setBridge bridge =>
      let (prefs, hup) := setBridge sources.language s.torStatus s.prefs bridge
      some { s with prefs, hups := s.hups + hup.toNat }
  | .edit prefs =>
      if bridgeSetting sources.language prefs = bridgeSetting sources.language s.prefs then
        some { s with prefs }
      else none
  | .updateTorConfigFile reading =>
      match written : updateTorConfigFile reading.now s.prefs with
      | .ok extraLines =>
          some { s with torrcCustom := some ⟨s.prefs, reading, extraLines, written⟩ }
      | .error _ => none
  | .launch => s.torrcCustom.map fun torrc => { s with loaded := some torrc }
  | .exit => some { s with loaded := none }
  | .status torStatus => some { s with torStatus }
  | .requestTorRereadConfig =>
      if s.hups = 0 then none
      else some { s with
        hups := s.hups - 1
        -- without a Tor there is nothing that reloads
        loaded := s.loaded.map fun torrc => s.torrcCustom.getD torrc }

/-- With Tor on and every HUP handled, Tor has loaded the bridge options of the
    preferences. -/
def TakesEffect {sources : TorrcSources} (s : Copies sources) : Prop :=
  s.torStatus = .on → s.hups = 0 → ∀ torrc, s.loaded = some torrc →
    Generated sources s.prefs torrc.options

/-- The settings for these preferences are plain lines. -/
def PlainSettings (sources : TorrcSources) (prefs : SharedPreferences) : Prop :=
  ∀ line ∈ settingsLines sources prefs, line.Plain

/-- No string adds a bridge option: what is written for the preferences are plain
    lines, and the user's own torrc at the end has none. -/
structure PlainTorrc (sources : TorrcSources) (prefs : SharedPreferences) : Prop where
  strings : PlainStrings sources prefs
  custom : ∀ line ∈ (customTorrc prefs).splitOn '\n',
    isBridgeOption line = false ∧ isInclude line = false

theorem PlainTorrc.settings {sources : TorrcSources} {prefs : SharedPreferences}
    (plain : PlainTorrc sources prefs) : PlainSettings sources prefs :=
  fun line member => plain.strings line (List.mem_append_right _ member)

/-- A call leaves the setting of a Tor that runs as it is; a Tor is launched with the
    setting of the preferences; and neither in a torrc.custom that is written nor in
    the preferences while a Tor runs does a string add bridge options. -/
def KeepsSetting {sources : TorrcSources} (s : Copies sources) : Action sources → Prop
  | .setBridge bridge => s.loaded.isSome →
      bridgeSetting sources.language (putBridge s.prefs bridge) =
        bridgeSetting sources.language s.prefs
  | .edit prefs => s.loaded.isSome → PlainSettings sources prefs
  | .updateTorConfigFile reading => PlainTorrc reading.now s.prefs
  | .launch =>
      s.torrcCustom.map (fun torrc => bridgeSetting sources.language torrc.prefs) =
          some (bridgeSetting sources.language s.prefs) ∧
        PlainSettings sources s.prefs
  | .exit | .status _ | .requestTorRereadConfig => True

/-! ## The options among plain lines -/

def isBridgeKeyword : Keyword → Bool
  | .own name => bridgeOptionNames.contains name
  | .proxy _ | .proxyAuthenticator _ => false

/-- No bridge option ends like the options of a proxy. -/
theorem not_bridgeOption_of_ends (front : Text) {suffix : Text} {c : Char}
    (ends : (lower suffix).getLast? = some c) (unsigned : suffix.dropWhile isSign = suffix)
    (other : ∀ name ∈ bridgeOptionNames, (lower name.text).getLast? ≠ some c) :
    (bridgeOptionNames.any fun name =>
      lower ((front ++ suffix).dropWhile isSign) = lower name.text) = false := by
  have behind : ∃ rest, (front ++ suffix).dropWhile isSign = rest ++ suffix := by
    rw [List.dropWhile_append, unsigned]
    split_ifs
    · exact ⟨[], rfl⟩
    · exact ⟨_, rfl⟩
  obtain ⟨rest, same⟩ := behind
  rw [same, List.any_eq_false]
  intro name member equal
  have last := congrArg List.getLast? (of_decide_eq_true equal)
  rw [lower, List.map_append, ← lower, ← lower, List.getLast?_append, ends] at last
  exact other name member last.symm

theorem isBridgeOption_text {line : TorrcLine} (known : line.keyword.Known) :
    isBridgeOption line.text = isBridgeKeyword line.keyword := by
  have read : words line.text = line.keyword.text :: words line.argumentText :=
    known.words_cons _
  simp only [isBridgeOption, read]
  cases line.keyword with
  | own name => cases name <;> rfl
  | proxy proxyType =>
      exact not_bridgeOption_of_ends proxyType (c := 'y') (by decide) (by decide) (by decide)
  | proxyAuthenticator proxyType =>
      exact not_bridgeOption_of_ends proxyType (c := 'r') (by decide) (by decide) (by decide)

/-- The lines that are bridge options. -/
def bridgeOptionLines (lines : List TorrcLine) : List TorrcLine :=
  lines.filter fun line => isBridgeKeyword line.keyword

theorem bridgeOptions_plain {lines : List TorrcLine} (plain : ∀ line ∈ lines, line.Plain) :
    bridgeOptions (lines.map TorrcLine.text) = (bridgeOptionLines lines).map TorrcLine.text := by
  rw [bridgeOptions, List.filter_map, bridgeOptionLines]
  congr 1
  apply List.filter_congr
  exact fun line member => isBridgeOption_text (plain line member).known

theorem bridgeOptionLines_append (lines later : List TorrcLine) :
    bridgeOptionLines (lines ++ later) = bridgeOptionLines lines ++ bridgeOptionLines later :=
  List.filter_append ..

theorem bridgeOptionLines_eq_nil {names : List OptionName} {lines : List TorrcLine}
    (sets : SetsOnly names lines) (apart : ∀ name ∈ bridgeOptionNames, name ∉ names) :
    bridgeOptionLines lines = [] := by
  rw [bridgeOptionLines, List.filter_eq_nil_iff]
  intro line member isOption
  obtain ⟨name, known, keyword⟩ := sets.exists_keyword member
  rw [keyword] at isOption
  exact apart name (List.contains_iff_mem.mp isOption) known

theorem bridgeOptionLines_bridgeLines (sources : TorrcSources) (list : Text) :
    bridgeOptionLines (bridgeLines sources list) = bridgeLines sources list := by
  rw [bridgeOptionLines, List.filter_eq_self]
  intro line member
  obtain ⟨name, known, keyword⟩ := (bridgeLines_setsOnly sources list).exists_keyword member
  have options : ∀ name ∈ bridgeSectionOptions, bridgeOptionNames.contains name = true := by decide
  rw [keyword]
  exact options name known

theorem bridgeOptionLines_proxyLines (sources : TorrcSources) (prefs : SharedPreferences) :
    bridgeOptionLines (proxyLines sources prefs) = [] := by
  rw [bridgeOptionLines, List.filter_eq_nil_iff]
  intro line member isOption
  have isProxy := proxyLines_isProxy sources prefs line member
  cases keyword : line.keyword with
  | own name =>
      rw [keyword] at isOption isProxy
      have apart : ∀ name ∈ bridgeOptionNames, (Keyword.own name).isProxy = false := by decide
      rw [apart name (List.contains_iff_mem.mp isOption)] at isProxy
      cases isProxy
  | proxy proxyType | proxyAuthenticator proxyType =>
      rw [keyword] at isOption
      cases isOption

/-- The bridge options of the settings. -/
def routeOptions (sources : TorrcSources) (prefs : SharedPreferences) : List TorrcLine :=
  if prefs.bridgesEnabled sources.language then
    useBridgesLine true :: bridgeLines sources (bridgeList sources prefs)
  else [useBridgesLine false]

theorem bridgeOptionLines_settings (sources : TorrcSources) (prefs : SharedPreferences) :
    bridgeOptionLines (settingsLines sources prefs) = routeOptions sources prefs := by
  have geoIP := bridgeOptionLines_eq_nil (geoIPLines_setsOnly sources) (by decide)
  have nodes := bridgeOptionLines_eq_nil (nodeLines_setsOnly prefs) (by decide)
  have services := bridgeOptionLines_eq_nil (serviceLines_setsOnly sources prefs) (by decide)
  rw [settingsLines, routeLines, routeOptions, bridgeOptionLines_append, bridgeOptionLines_append,
    bridgeOptionLines_append, geoIP, nodes, services, List.append_nil, List.append_nil,
    List.append_nil]
  split_ifs
  · exact congrArg _ (bridgeOptionLines_bridgeLines sources _)
  · exact congrArg _ (bridgeOptionLines_proxyLines sources prefs)

/-! ## What the options depend on -/

section Reading

variable {sources : TorrcSources}

def Reading.choice (reading : Reading sources) : Choice :=
  ⟨reading.now.shuffle, reading.now.shuffle_perm⟩

theorem bridgesEnabled_congr {language : Text} {prefs prefs' : SharedPreferences}
    (same : bridgeSetting language prefs = bridgeSetting language prefs') :
    prefs.bridgesEnabled language = prefs'.bridgesEnabled language := by
  unfold bridgeSetting at same
  split_ifs at same with enabled enabled' enabled'
  · rw [enabled, enabled']
  · rw [Bool.eq_false_of_not_eq_true enabled, Bool.eq_false_of_not_eq_true enabled']

/-- Of what a write reads only the choice has an effect on the bridge options, and of
    the preferences only the setting. -/
theorem routeOptions_congr (reading : Reading sources) {prefs prefs' : SharedPreferences}
    (setting : bridgeSetting sources.language prefs = bridgeSetting sources.language prefs') :
    routeOptions reading.now prefs = routeOptions (choosing sources reading.choice) prefs' := by
  have enabled := bridgesEnabled_congr setting
  have language : (choosing sources reading.choice).language = sources.language := rfl
  rw [routeOptions, routeOptions, reading.language, language, enabled]
  split_ifs with on
  · unfold bridgeSetting at setting
    rw [if_pos (enabled.trans on), if_pos on, Option.some.injEq] at setting
    have list : bridgeList reading.now prefs =
        bridgeList (choosing sources reading.choice) prefs' := by
      rw [bridgeList, reading.recodeLatin1, reading.language, setting]
      rfl
    have defaults : loadBridgeDefaults (choosing sources reading.choice) =
        loadBridgeDefaults reading.now := reading.bridgeDefaults.symm
    have pulled (type : Text) : getBridges reading.now type =
        getBridges (choosing sources reading.choice) type := by
      rw [getBridges, getBridges, defaults]
      rfl
    have plugin : (choosing sources reading.choice).fileObfsclient =
        reading.now.fileObfsclient := reading.fileObfsclient.symm
    rw [list, bridgeLines, bridgeLines, bridgeEntries, bridgeEntries, pulled, plugin]
  · rfl

theorem routeOptions_putBridge {prefs : SharedPreferences} {bridge : BRIDGES}
    (same : bridgeSetting sources.language (putBridge prefs bridge) =
      bridgeSetting sources.language prefs) :
    routeOptions sources (putBridge prefs bridge) = routeOptions sources prefs := by
  let reading : Reading sources := ⟨sources, rfl, rfl, rfl, rfl⟩
  exact routeOptions_congr reading same

/-- The settings besides the bridge options. -/
def otherSettings (sources : TorrcSources) (prefs : SharedPreferences) : List TorrcLine :=
  (if prefs.bridgesEnabled sources.language then [] else proxyLines sources prefs) ++
    otherLines sources prefs

theorem plainSettings_iff (sources : TorrcSources) (prefs : SharedPreferences) :
    PlainSettings sources prefs ↔
      (∀ line ∈ routeOptions sources prefs, line.Plain) ∧
        ∀ line ∈ otherSettings sources prefs, line.Plain := by
  rw [PlainSettings, ← List.forall_mem_append, settingsLines, routeLines, routeOptions,
    otherSettings, otherLines]
  split_ifs
  · simp only [List.append_assoc, List.cons_append, List.nil_append]
  · simp only [List.append_assoc, List.cons_append, List.nil_append]

theorem hiddenServiceLines_choosing (choice : Choice) (rows : List HiddenServiceRow) :
    hiddenServiceLines (choosing sources choice) rows = hiddenServiceLines sources rows := by
  induction rows with
  | nil => rfl
  | cons row rows ih =>
      rw [hiddenServiceLines, ih, hiddenServiceLines]
      rfl

theorem otherSettings_choosing (choice : Choice) (prefs : SharedPreferences) :
    otherSettings (choosing sources choice) prefs = otherSettings sources prefs := by
  have part : servicePart (choosing sources choice) = servicePart sources :=
    congrArg (· ++ clientCookieLines (cookieRows sources)) (hiddenServiceLines_choosing choice _)
  rw [otherSettings, otherLines, serviceLines, part]
  rfl

/-- Another choice of the default bridges leaves plain settings plain, if the bridge
    options are. -/
theorem PlainSettings.choosing {prefs : SharedPreferences} (plain : PlainSettings sources prefs)
    (choice : Choice)
    (options : ∀ line ∈ routeOptions (choosing sources choice) prefs, line.Plain) :
    PlainSettings (choosing sources choice) prefs := by
  rw [plainSettings_iff] at plain ⊢
  exact ⟨options, (otherSettings_choosing choice prefs).symm ▸ plain.2⟩

/-- Choosing a bridge has no effect on the other settings, as long as bridges stay
    on or off. -/
theorem otherSettings_putBridge {prefs : SharedPreferences} {bridge : BRIDGES}
    (enabled : (putBridge prefs bridge).bridgesEnabled sources.language =
      prefs.bridgesEnabled sources.language) :
    otherSettings sources (putBridge prefs bridge) = otherSettings sources prefs := by
  have proxies : proxyLines sources (putBridge prefs bridge) = proxyLines sources prefs := rfl
  have nodes : nodeLines (putBridge prefs bridge) = nodeLines prefs := rfl
  have reachable : reachableLines (putBridge prefs bridge) = reachableLines prefs := rfl
  have relay : relayEntries sources (putBridge prefs bridge) = relayEntries sources prefs := by
    unfold relayEntries
    rw [enabled]
    rfl
  rw [otherSettings, enabled, proxies, otherLines, nodes, serviceLines, reachable, relay]
  rfl

/-- A call that keeps the setting keeps the settings plain. -/
theorem PlainSettings.putBridge {prefs : SharedPreferences} {bridge : BRIDGES}
    (plain : PlainSettings sources prefs)
    (same : bridgeSetting sources.language (putBridge prefs bridge) =
      bridgeSetting sources.language prefs) : PlainSettings sources (putBridge prefs bridge) := by
  rw [plainSettings_iff] at plain ⊢
  rwa [routeOptions_putBridge same, otherSettings_putBridge (bridgesEnabled_congr same)]

theorem bridgeOptions_writtenSettings {sources : TorrcSources} {prefs : SharedPreferences}
    (plain : PlainSettings sources prefs) :
    bridgeOptions (writtenSettings sources prefs) =
      (routeOptions sources prefs).map TorrcLine.text := by
  rw [writtenSettings, torrcText_splitOn, processSettingsImpl, flatMap_splitOn_of_plain plain,
    ← bridgeOptionLines_settings, ← bridgeOptions_plain plain, bridgeOptions, List.filter_append]
  exact List.append_nil _

theorem TorrcCustom.options_eq (torrc : TorrcCustom sources)
    (plain : PlainTorrc torrc.reading.now torrc.prefs) :
    torrc.options = (routeOptions torrc.reading.now torrc.prefs).map TorrcLine.text := by
  have custom : bridgeOptions ((customTorrc torrc.prefs).splitOn '\n') = [] :=
    List.filter_eq_nil_iff.mpr fun line member => by
      rw [(plain.custom line member).1]
      exact Bool.false_ne_true
  have header := bridgeOptionLines_eq_nil (headerLines_setsOnly torrc.reading.now torrc.prefs
    ((socksPortValue torrc.reading.now torrc.prefs).toOption.getD [])) (by decide)
  rw [TorrcCustom.options, updateTorConfigFile_layout torrc.written, torrcText_splitOn,
    List.flatMap_append, flatMap_splitOn_of_plain plain.strings, List.flatMap_singleton,
    bridgeOptions, List.filter_append, List.filter_append, ← bridgeOptions, ← bridgeOptions, custom,
    bridgeOptions_plain plain.strings, layout, bridgeOptionLines_append, header,
    bridgeOptionLines_settings, List.append_nil]
  exact List.append_nil _

/-- The bridge options of any settings begin with the line for `UseBridges`. -/
theorem bridgeOptions_head (sources : TorrcSources) (prefs : SharedPreferences) :
    (bridgeOptions (writtenSettings sources prefs)).head? =
      some (useBridgesLine (prefs.bridgesEnabled sources.language)).text := by
  rw [writtenSettings, torrcText_splitOn, processSettingsImpl, settingsLines, routeLines]
  cases prefs.bridgesEnabled sources.language <;> rfl

theorem routeOptions_head (sources : TorrcSources) (prefs : SharedPreferences) :
    ((routeOptions sources prefs).map TorrcLine.text).head? =
      some (useBridgesLine (prefs.bridgesEnabled sources.language)).text := by
  rw [routeOptions]
  cases prefs.bridgesEnabled sources.language <;> rfl

theorem TorrcCustom.not_generated (torrc : TorrcCustom sources)
    (plain : PlainTorrc torrc.reading.now torrc.prefs) {prefs : SharedPreferences}
    (switched :
      torrc.prefs.bridgesEnabled sources.language ≠ prefs.bridgesEnabled sources.language) :
    ¬ Generated sources prefs torrc.options := by
  rintro ⟨choice, same⟩
  have heads := congrArg List.head? same
  have language : (choosing sources choice).language = sources.language := rfl
  rw [torrc.options_eq plain, routeOptions_head, bridgeOptions_head, torrc.reading.language,
    language, Option.some.injEq] at heads
  have distinct : ∀ a b, (useBridgesLine a).text = (useBridgesLine b).text → a = b := by decide
  exact switched (distinct _ _ heads)

/-- A torrc.custom has the options of all preferences with its setting. -/
theorem TorrcCustom.generated (torrc : TorrcCustom sources)
    (plain : PlainTorrc torrc.reading.now torrc.prefs) {prefs : SharedPreferences}
    (settings : PlainSettings sources prefs)
    (setting : bridgeSetting sources.language torrc.prefs = bridgeSetting sources.language prefs) :
    Generated sources prefs torrc.options := by
  have options := routeOptions_congr torrc.reading setting
  have chosen := settings.choosing torrc.reading.choice
    (options ▸ ((plainSettings_iff _ _).mp plain.settings).1)
  refine ⟨torrc.reading.choice, ?_⟩
  rw [torrc.options_eq plain, options, bridgeOptions_writtenSettings chosen]

end Reading

/-! ## Runs -/

section Runs

variable {sources : TorrcSources}

/-- One of the two copies outside the preferences. -/
def Copies.Holds (s : Copies sources) (torrc : TorrcCustom sources) : Prop :=
  s.torrcCustom = some torrc ∨ s.loaded = some torrc

/-- No string adds a bridge option to the copies; and while a Tor runs they have the
    setting of the preferences, in which no string does either. -/
structure Current (s : Copies sources) : Prop where
  plain : ∀ torrc, s.Holds torrc → PlainTorrc torrc.reading.now torrc.prefs
  settings : s.loaded.isSome → PlainSettings sources s.prefs
  setting : s.loaded.isSome → ∀ torrc, s.Holds torrc →
    bridgeSetting sources.language torrc.prefs = bridgeSetting sources.language s.prefs

namespace Current

variable {s s' : Copies sources}

theorem initial (prefs : SharedPreferences) : Current ({ prefs } : Copies sources) where
  plain torrc holds := by simp [Copies.Holds] at holds
  settings running := by simp at running
  setting running := by simp at running

/-- The steps that only move copies. -/
theorem of_holds (current : Current s) (prefs : s'.prefs = s.prefs)
    (running : s'.loaded.isSome → s.loaded.isSome)
    (holds : ∀ torrc, s'.Holds torrc → s.Holds torrc) : Current s' where
  plain torrc held := current.plain torrc (holds torrc held)
  settings runs := prefs ▸ current.settings (running runs)
  setting runs torrc held := prefs ▸ current.setting (running runs) torrc (holds torrc held)

theorem setBridge (current : Current s) {bridge : BRIDGES}
    (keeps : KeepsSetting s (.setBridge bridge)) (hups : Nat) :
    Current { s with prefs := putBridge s.prefs bridge, hups } where
  plain := current.plain
  settings running := (current.settings running).putBridge (keeps running)
  setting running torrc holds := (current.setting running torrc holds).trans (keeps running).symm

theorem edit (current : Current s) {prefs : SharedPreferences}
    (setting : bridgeSetting sources.language prefs = bridgeSetting sources.language s.prefs)
    (keeps : KeepsSetting s (.edit prefs)) : Current { s with prefs } where
  plain := current.plain
  settings running := keeps running
  setting running torrc holds := (current.setting running torrc holds).trans setting.symm

theorem update (current : Current s) {torrc : TorrcCustom sources} (read : torrc.prefs = s.prefs)
    (keeps : KeepsSetting s (.updateTorConfigFile torrc.reading)) :
    Current { s with torrcCustom := some torrc } where
  plain torrc' holds := by
    rcases holds with written | loaded
    · rw [← Option.some.inj written, read]
      exact keeps
    · exact current.plain torrc' (.inr loaded)
  settings running := current.settings running
  setting running torrc' holds := by
    rcases holds with written | loaded
    · rw [← Option.some.inj written, read]
    · exact current.setting running torrc' (.inr loaded)

theorem launch (current : Current s) {torrc : TorrcCustom sources}
    (written : s.torrcCustom = some torrc) (keeps : KeepsSetting s .launch) :
    Current { s with loaded := some torrc } where
  plain torrc' holds := by
    rcases holds with held | loaded
    · exact current.plain torrc' (.inl held)
    · exact Option.some.inj loaded ▸ current.plain torrc (.inl written)
  settings _ := keeps.2
  setting _ torrc' holds := by
    have only : torrc' = torrc := by
      rcases holds with held | loaded
      · exact Option.some.inj (held.symm.trans written)
      · exact (Option.some.inj loaded).symm
    have same := keeps.1
    rw [written] at same
    rw [only]
    exact Option.some.inj same

theorem reread (current : Current s) (hups : Nat) :
    Current { s with hups, loaded := s.loaded.map fun torrc => s.torrcCustom.getD torrc } := by
  refine current.of_holds rfl (fun runs => by simpa using runs) fun torrc holds => ?_
  rcases holds with held | loaded
  · exact .inl held
  · obtain ⟨before, ran, rfl⟩ := Option.map_eq_some_iff.mp loaded
    cases written : s.torrcCustom with
    | none => exact .inr ran
    | some torrc => exact .inl written

theorem step (current : Current s) {a : Action sources} (keeps : KeepsSetting s a)
    (taken : Manager.step s a = some s') : Current s' := by
  cases a with
  | setBridge bridge =>
      rw [← Option.some.inj taken]
      exact current.setBridge keeps _
  | edit prefs =>
      simp only [Manager.step, Option.ite_none_right_eq_some, Option.some.injEq] at taken
      obtain ⟨setting, rfl⟩ := taken
      exact current.edit setting keeps
  | updateTorConfigFile reading =>
      simp only [Manager.step] at taken
      split at taken
      next => exact Option.some.inj taken ▸ current.update rfl keeps
      next => cases taken
  | launch =>
      obtain ⟨torrc, written, rfl⟩ := Option.map_eq_some_iff.mp taken
      exact current.launch written keeps
  | exit =>
      rw [← Option.some.inj taken]
      exact current.of_holds rfl nofun fun torrc holds => holds.imp id nofun
  | status torStatus =>
      rw [← Option.some.inj taken]
      exact current.of_holds rfl id fun _ => id
  | requestTorRereadConfig =>
      simp only [Manager.step, Option.ite_none_left_eq_some, Option.some.injEq] at taken
      exact taken.2 ▸ current.reread _

theorem takesEffect (current : Current s) : TakesEffect s := fun _ _ torrc loaded =>
  torrc.generated (current.plain torrc (.inr loaded))
    (current.settings (Option.isSome_of_mem loaded))
    (current.setting (Option.isSome_of_mem loaded) torrc (.inr loaded))

end Current

/-- In a run in which no call changes the setting of a Tor that runs, every Tor is
    launched with the setting of the preferences, and no string adds bridge options,
    Tor has what they ask for. -/
theorem bridge_change_takes_effect {prefs : SharedPreferences} {s : Copies sources}
    (reached : Reaches step KeepsSetting { prefs } s) : TakesEffect s :=
  (reached.invariant (Current.initial prefs) fun _ _ _ current keeps taken =>
    current.step keeps taken).takesEffect

/-- A call that switches bridges on or off while a Tor runs: neither of the two
    copies a reload can load has the options of the new preferences. -/
theorem switch_not_loaded {s : Copies sources} (current : Current s) (running : s.loaded.isSome)
    {bridge : BRIDGES} (switched : (putBridge s.prefs bridge).bridgesEnabled sources.language ≠
      s.prefs.bridgesEnabled sources.language) :
    ∀ torrc, s.Holds torrc → ¬ Generated sources (putBridge s.prefs bridge) torrc.options := by
  intro torrc holds
  have before := bridgesEnabled_congr (current.setting running torrc holds)
  exact torrc.not_generated (current.plain torrc holds)
    fun same => switched (same.symm.trans before)

theorem step_updateTorConfigFile (s : Copies sources) (reading : Reading sources)
    {extraLines : List Text} (written : updateTorConfigFile reading.now s.prefs = .ok extraLines) :
    step s (.updateTorConfigFile reading) =
      some { s with torrcCustom := some ⟨s.prefs, reading, extraLines, written⟩ } := by
  simp only [step]
  split
  next lines same =>
    obtain rfl : lines = extraLines := Except.ok.inj (same.symm.trans written)
    rfl
  next failed => cases failed.symm.trans written

/-- Tor is on with this torrc.custom. -/
def Copies.on (torrc : TorrcCustom sources) : Copies sources where
  prefs := torrc.prefs
  torrcCustom := some torrc
  loaded := some torrc
  torStatus := .on

/-- A start that succeeds. -/
theorem reaches_on {start : Copies sources} (torrc : TorrcCustom sources)
    (plain : PlainTorrc torrc.reading.now torrc.prefs)
    (settings : PlainSettings sources torrc.prefs)
    (reached : Reaches step KeepsSetting start { prefs := torrc.prefs }) :
    Reaches step KeepsSetting start (.on torrc) := by
  have written := step_updateTorConfigFile { prefs := torrc.prefs } torrc.reading torrc.written
  have updated := reached.next
    (show KeepsSetting _ (.updateTorConfigFile torrc.reading) from plain) written
  have launched := updated.next (show KeepsSetting _ .launch from ⟨rfl, settings⟩) rfl
  exact launched.next (show KeepsSetting _ (.status .on) from trivial) rfl

end Runs

def exampleReading : Reading exampleSources := ⟨exampleSources, rfl, rfl, rfl, rfl⟩

/-- The community bridges are chosen before Tor is started, and again with Tor on. -/
theorem bridge_change_takes_effect_again :
    ∃ s : Copies exampleSources, Reaches step KeepsSetting { prefs := .of [] [] } s ∧
      s.torStatus = .on ∧ s.hups = 0 ∧ s.loaded.isSome ∧ TakesEffect s := by
  let prefs := putBridge (.of [] []) .community
  obtain ⟨extraLines, written⟩ := updateTorConfigFile_writes
    (show socksPortValue exampleSources prefs = .ok "9050".toList by rfl)
  let torrc : TorrcCustom exampleSources := ⟨prefs, exampleReading, extraLines, written⟩
  have chosen : Reaches step KeepsSetting { prefs := .of [] [] }
      ({ prefs } : Copies exampleSources) := .next (a := .setBridge .community) .here nofun rfl
  have plain : PlainTorrc exampleSources prefs :=
    ⟨by unfold PlainStrings; decide +kernel, by decide +kernel⟩
  have on := reaches_on torrc plain plain.settings chosen
  have again := on.next (show KeepsSetting _ (.setBridge .community) from fun _ => rfl) rfl
  have reached := again.next (show KeepsSetting _ .requestTorRereadConfig from trivial) rfl
  exact ⟨_, reached, rfl, rfl, rfl, bridge_change_takes_effect reached⟩

/-- The community bridges are chosen with Tor on. -/
theorem bridge_change_lost : ¬ ∀ (sources : TorrcSources) (prefs : SharedPreferences)
    (s : Copies sources), Reachable step { prefs } s → TakesEffect s := by
  intro always
  obtain ⟨extraLines, written⟩ := updateTorConfigFile_writes
    (show socksPortValue exampleSources (.of [] []) = .ok "9050".toList by rfl)
  let torrc : TorrcCustom exampleSources := ⟨.of [] [], exampleReading, extraLines, written⟩
  have plain : PlainTorrc exampleSources (.of [] []) :=
    ⟨by unfold PlainStrings; decide +kernel, by decide +kernel⟩
  have on := reaches_on torrc plain plain.settings .here
  have current := on.invariant (Current.initial _) fun _ _ _ current keeps taken =>
    current.step keeps taken
  have running : Reachable step { prefs := .of [] [] } (Copies.on torrc) :=
    on.imp fun _ _ _ _ => trivial
  have reached := (running.next (a := .setBridge .community) trivial rfl).next
    (a := .requestTorRereadConfig) trivial rfl
  have switched : (putBridge (.of [] []) .community).bridgesEnabled exampleSources.language ≠
      (SharedPreferences.of [] []).bridgesEnabled exampleSources.language := by decide
  exact switch_not_loaded current rfl switched torrc (.inr rfl)
    (always _ _ _ reached rfl rfl torrc rfl)

end Orbot.Manager
