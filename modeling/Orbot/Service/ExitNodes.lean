import Orbot.Lib.LastMatch
import Orbot.Service.TorrcLayout

/-! # The exit policy

`TorService.setExitNode` changes the exit nodes twice: by commands to the Tor
that is running, and in the preferences the next torrc is built from.
-/

namespace Orbot.Service

open Java (Text RuntimeException)
open Lib.LastMatch

/-! ## Changing the exit nodes -/

/-- The commands sent over the control connection. -/
inductive ConfCommand where
  | setConf (key value : Text)
  | resetConf (keys : List Text)
  deriving Repr, DecidableEq

def setExitNode (fileGeoIP fileGeoIP6 : Text) (connected : Bool) (prefs : SharedPreferences)
    (newExits : Text) : SharedPreferences × List ConfCommand :=
  if newExits = [] then
    (prefs.remove "pref_exit_nodes".toList,
      if connected then
        [.resetConf ["ExitNodes".toList, "StrictNodes".toList],
          .setConf "DisableNetwork".toList "1".toList, .setConf "DisableNetwork".toList "0".toList]
      else [])
  else
    (prefs.putString "pref_exit_nodes".toList newExits,
      if connected then
        [.setConf "GeoIPFile".toList fileGeoIP, .setConf "GeoIPv6File".toList fileGeoIP6,
          .setConf "ExitNodes".toList newExits, .setConf "StrictNodes".toList "1".toList,
          .setConf "DisableNetwork".toList "1".toList, .setConf "DisableNetwork".toList "0".toList]
      else [])

/-! ## The policy in force -/

/-- The options of a running Tor that are not at their defaults. -/
abbrev TorConfig := Text → Option Text

/-- An accepted command. -/
def ConfCommand.apply (config : TorConfig) : ConfCommand → TorConfig
  | .setConf key value => fun option => if option = key then some value else config option
  | .resetConf keys => fun option => if option ∈ keys then none else config option

structure ExitPolicy where
  exitNodes : Option Text
  strictNodes : Text
  deriving Repr, DecidableEq

/-- By default there are no exit nodes, and nothing is strict. -/
def TorConfig.exitPolicy (config : TorConfig) : ExitPolicy where
  exitNodes := config "ExitNodes".toList
  strictNodes := (config "StrictNodes".toList).getD "0".toList

/-! ## What Tor reads -/

def policyOptions : List OptionName := [.exitNodes, .strictNodes]

/-- There are no quotes or escapes in the argument, and the line goes on to its end. -/
def Unquoted (argument : Text) : Prop := ∀ c ∈ argument, c ≠ '\n' ∧ c ≠ '"' ∧ c ≠ '\\'

instance (argument : Text) : Decidable (Unquoted argument) :=
  List.decidableBAll _ argument

/-- A value that is read as it stands: no comment is in it, no blanks around it. -/
structure PlainValue (s : Text) : Prop where
  nonempty : s ≠ []
  unquoted : Unquoted s
  noComment : '#' ∉ s
  first : s.head?.all (' ' < ·)
  last : s.getLast?.all (' ' < ·)

/-- A line of a known option without quotes and escapes. -/
structure TorrcLine.Readable (line : TorrcLine) : Prop where
  known : line.keyword.Known
  unquoted : Unquoted line.argumentText

instance (line : TorrcLine) : Decidable line.Readable :=
  decidable_of_iff (line.keyword.Known ∧ Unquoted line.argumentText)
    ⟨fun ⟨known, unquoted⟩ => ⟨known, unquoted⟩, fun ⟨known, unquoted⟩ => ⟨known, unquoted⟩⟩

/-- How Tor reads a torrc. Nothing is assumed about lines that are quoted, continued
    or commented, and the torrc of the user may have such lines. -/
structure TorrcReader where
  /-- the options that are set, under their names in Tor, in order -/
  read : Text → List (Text × Text)
  policy : ∀ name ∈ policyOptions, ∀ value rest, PlainValue value →
    read (name.text ++ ' ' :: value ++ '\n' :: rest) = (name.text, value) :: read rest
  /-- a line of another option sets neither of the two -/
  other : ∀ (line : TorrcLine) (rest : Text), line.Readable →
    (∀ name ∈ policyOptions, line.keyword ≠ .own name) →
    ∃ settings, read (line.text ++ '\n' :: rest) = settings ++ read rest ∧
      ∀ s ∈ settings, ∀ name ∈ policyOptions, s.1 ≠ name.text
  empty : read ['\n'] = []

/-- The value, if the setting is one of this option. -/
def valueOf (option : Text) (s : Text × Text) : Option Text :=
  if s.1 = option then some s.2 else none

namespace TorrcReader

variable (tor : TorrcReader)

/-- What an option is set to last. -/
def settingOf (option text : Text) : Option Text := setting (valueOf option) (tor.read text)

/-- A Tor started with this torrc. An option that is set to nothing is at its
    default. -/
def config (text : Text) : TorConfig := fun option => (tor.settingOf option text).filter (· ≠ [])

end TorrcReader

/-! ## The condition -/

/-- Every line of the torrc but those of the exit nodes and of the user can be read,
    and so can the nodes that are chosen. -/
structure PolicyReadable (sources : TorrcSources) (prefs : SharedPreferences) (newExits : Text) :
    Prop where
  lines : ∀ line ∈ layout sources prefs, line.keyword ≠ .own .exitNodes → line.Readable
  exits : newExits ≠ [] → PlainValue newExits

def strictPreference (prefs : SharedPreferences) : Text :=
  if prefs.getBoolean "pref_strict_nodes".toList false then "1".toList else "0".toList

/-- What the torrc of the user, at the end, sets an option to. -/
def customSetting (tor : TorrcReader) (prefs : SharedPreferences) (name : OptionName) :
    Option Text :=
  tor.settingOf name.text (customTorrc prefs ++ ['\n'])

/-- `StrictNodes`, by its preference or else by the torrc of the user, is on exactly
    if exit nodes are chosen, and that torrc sets no other exit nodes. -/
structure KeepsPolicy (tor : TorrcReader) (prefs : SharedPreferences) (newExits : Text) :
    Prop where
  strict : (customSetting tor prefs .strictNodes).getD (strictPreference prefs) ∈
    if newExits = [] then ["0".toList, []] else ["1".toList]
  exits : ∀ exits, customSetting tor prefs .exitNodes = some exits → exits = newExits

/-! ## The lines of the torrc -/

/-- The lines before the one of the exit nodes. -/
def linesBefore (sources : TorrcSources) (prefs : SharedPreferences) : List TorrcLine :=
  headerLines sources prefs ((socksPortValue sources prefs).toOption.getD []) ++
    routeLines sources prefs ++ nodeEntries .entryNodes "pref_entrance_nodes".toList prefs

def excludeEntries (prefs : SharedPreferences) : List TorrcLine :=
  nodeEntries .excludeNodes "pref_exclude_nodes".toList prefs

theorem layout_eq (sources : TorrcSources) (prefs : SharedPreferences) :
    layout sources prefs = linesBefore sources prefs ++
      nodeEntries .exitNodes "pref_exit_nodes".toList prefs ++ excludeEntries prefs ++
        strictLine prefs :: serviceLines sources prefs := by
  rw [layout, settingsLines, nodeLines, linesBefore, excludeEntries]
  simp only [List.append_assoc, List.singleton_append]

/-- No line sets an option of the policy. -/
def NoPolicy (lines : List TorrcLine) : Prop :=
  ∀ line ∈ lines, ∀ name ∈ policyOptions, line.keyword ≠ .own name

namespace NoPolicy

theorem of_setsOnly {names : List OptionName} {lines : List TorrcLine} (sets : SetsOnly names lines)
    (apart : ∀ name ∈ policyOptions, name ∉ names) : NoPolicy lines :=
  fun _ member name inPolicy => sets.keyword_ne (apart name inPolicy) member

theorem append {lines later : List TorrcLine} (first : NoPolicy lines) (second : NoPolicy later) :
    NoPolicy (lines ++ later) :=
  List.forall_mem_append.mpr ⟨first, second⟩

variable (sources : TorrcSources) (prefs : SharedPreferences)

theorem routeLines : NoPolicy (routeLines sources prefs) := by
  refine .append ?_ (.of_setsOnly (geoIPLines_setsOnly sources) (by decide))
  split_ifs
  · refine List.forall_mem_cons.mpr ⟨by decide, ?_⟩
    exact of_setsOnly (bridgeLines_setsOnly sources _) (by decide)
  · refine List.forall_mem_cons.mpr ⟨by decide, fun line member name inPolicy keyword => ?_⟩
    have isProxy := proxyLines_isProxy sources prefs line member
    have apart : ∀ name ∈ policyOptions, (Keyword.own name).isProxy = false := by decide
    rw [keyword, apart name inPolicy] at isProxy
    cases isProxy

theorem linesBefore : NoPolicy (linesBefore sources prefs) := by
  have entries : SetsOnly [.entryNodes]
      (nodeEntries .entryNodes "pref_entrance_nodes".toList prefs) :=
    nodeEntries_setsOnly prefs (List.mem_singleton_self _) _
  refine .append (.append ?_ (routeLines sources prefs)) (.of_setsOnly entries (by decide))
  exact .of_setsOnly (headerLines_setsOnly sources prefs _) (by decide)

theorem excludeEntries : NoPolicy (excludeEntries prefs) :=
  .of_setsOnly (nodeEntries_setsOnly prefs (List.mem_singleton_self _) _) (by decide)

theorem serviceLines : NoPolicy (serviceLines sources prefs) :=
  .of_setsOnly (serviceLines_setsOnly sources prefs) (by decide)

end NoPolicy

/-! ## What the other lines depend on -/

section Agree

variable {sources : TorrcSources} {prefs prefs' : SharedPreferences}
  (agree : prefs.AgreeBut "pref_exit_nodes".toList prefs')
include agree

theorem headerLines_agree (socksPortPref : Text) :
    headerLines sources prefs' socksPortPref = headerLines sources prefs socksPortPref := by
  unfold headerLines SharedPreferences.useVpn SharedPreferences.transparentTethering
    SharedPreferences.useDebugLogging
  rw [agree.getString (by decide), agree.getString (by decide)]
  simp only [agree.getBoolean]

theorem socksPortValue_agree : socksPortValue sources prefs' = socksPortValue sources prefs := by
  rw [socksPortValue, agree.getString (by decide), socksPortValue]

theorem bridgeList_agree : bridgeList sources prefs' = bridgeList sources prefs := by
  rw [bridgeList, SharedPreferences.getBridgesList, agree.getString (by decide)]
  rfl

theorem proxyLines_agree : proxyLines sources prefs' = proxyLines sources prefs := by
  unfold proxyLines outboundProxy SharedPreferences.useVpn
  simp only [agree.getBoolean]
  rw [agree.strings "pref_proxy_type".toList (by decide),
    agree.strings "pref_proxy_host".toList (by decide),
    agree.strings "pref_proxy_port".toList (by decide),
    agree.strings "pref_proxy_username".toList (by decide),
    agree.strings "pref_proxy_password".toList (by decide)]

theorem routeLines_agree : routeLines sources prefs' = routeLines sources prefs := by
  unfold routeLines SharedPreferences.bridgesEnabled
  rw [bridgeList_agree agree, proxyLines_agree agree, agree.getBoolean]

theorem nodeEntries_agree (name : OptionName) {key : Text}
    (other : key ≠ "pref_exit_nodes".toList) :
    nodeEntries name key prefs' = nodeEntries name key prefs := by
  rw [nodeEntries, agree.getString other, nodeEntries]

theorem linesBefore_agree : linesBefore sources prefs' = linesBefore sources prefs := by
  unfold linesBefore
  rw [headerLines_agree agree, socksPortValue_agree agree, routeLines_agree agree,
    nodeEntries_agree agree _ (by decide)]

theorem strictLine_agree : strictLine prefs' = strictLine prefs := by
  rw [strictLine, agree.getBoolean, strictLine]

theorem serviceLines_agree : serviceLines sources prefs' = serviceLines sources prefs := by
  unfold serviceLines reachableLines relayEntries relayLines SharedPreferences.bridgesEnabled
  rw [agree.getString (by decide), agree.getString (by decide), agree.getString (by decide)]
  simp only [agree.getBoolean]

theorem customTorrc_agree : customTorrc prefs' = customTorrc prefs := by
  rw [customTorrc, agree.getString (by decide), customTorrc]

end Agree

/-! ## What the torrc sets -/

namespace TorrcReader

variable (tor : TorrcReader)

theorem settingOf_policy {name : OptionName} (inPolicy : name ∈ policyOptions) {value : Text}
    (plain : PlainValue value) (option rest : Text) :
    tor.settingOf option (name.text ++ ' ' :: value ++ '\n' :: rest) =
      (tor.settingOf option rest).or (if name.text = option then some value else none) := by
  rw [settingOf, tor.policy name inPolicy value rest plain, ← List.singleton_append,
    setting_append, setting_singleton]
  rfl

/-- Lines of other options make no difference. -/
theorem settingOf_other {lines : List TorrcLine} (readable : ∀ line ∈ lines, line.Readable)
    (none : NoPolicy lines) {name : OptionName} (inPolicy : name ∈ policyOptions) (rest : Text) :
    tor.settingOf name.text (torrcText (lines.map TorrcLine.text) ++ rest) =
      tor.settingOf name.text rest := by
  induction lines with
  | nil => rfl
  | cons line lines ih =>
      obtain ⟨lineReadable, othersReadable⟩ := List.forall_mem_cons.mp readable
      obtain ⟨lineNone, othersNone⟩ := List.forall_mem_cons.mp none
      have text : torrcText ((line :: lines).map TorrcLine.text) ++ rest =
          line.text ++ '\n' :: (torrcText (lines.map TorrcLine.text) ++ rest) := by
        simp [torrcText]
      obtain ⟨settings, read, apart⟩ := tor.other line
        (torrcText (lines.map TorrcLine.text) ++ rest) lineReadable lineNone
      have unset : setting (valueOf name.text) settings = .none := by
        rw [setting, List.getLast?_eq_none_iff, List.filterMap_eq_nil_iff]
        exact fun s member => if_neg (apart s member name inPolicy)
      rw [text, settingOf, read, setting_append, unset, Option.or_none, ← settingOf,
        ih othersReadable othersNone]

end TorrcReader

/-! ## Both ways -/

section Both

variable (fileGeoIP fileGeoIP6 : Text) (prefs : SharedPreferences) (newExits : Text)

/-- The accepted commands bring the chosen policy into force, whatever was. -/
theorem live_exitPolicy (config : TorConfig) :
    TorConfig.exitPolicy
        ((setExitNode fileGeoIP fileGeoIP6 true prefs newExits).2.foldl ConfCommand.apply config) =
      if newExits = [] then ⟨none, "0".toList⟩ else ⟨some newExits, "1".toList⟩ := by
  by_cases none : newExits = []
  · simp only [setExitNode, if_pos none, if_true]
    rfl
  · simp only [setExitNode, if_neg none, if_true]
    rfl

theorem setExitNode_agree :
    prefs.AgreeBut "pref_exit_nodes".toList
      (setExitNode fileGeoIP fileGeoIP6 true prefs newExits).1 := by
  by_cases none : newExits = []
  · simp only [setExitNode, if_pos none]
    exact prefs.remove_agree _
  · simp only [setExitNode, if_neg none]
    exact prefs.putString_agree _ _

theorem setExitNode_entries :
    nodeEntries .exitNodes "pref_exit_nodes".toList
        (setExitNode fileGeoIP fileGeoIP6 true prefs newExits).1 =
      if newExits = [] then [] else [.string .exitNodes newExits] := by
  unfold nodeEntries SharedPreferences.getString
  by_cases none : newExits = []
  · simp only [setExitNode, if_pos none, SharedPreferences.remove_strings, Option.getD_none]
  · simp only [setExitNode, if_neg none, SharedPreferences.putString_strings, Option.getD_some]

/-- The text of the torrc after a restart, around the lines of the policy. -/
theorem restarted_text {sources : TorrcSources} {after : List Text}
    (restarted : updateTorConfigFile sources
      (setExitNode fileGeoIP fileGeoIP6 true prefs newExits).1 = .ok after) :
    torrcText after = torrcText ((linesBefore sources prefs).map TorrcLine.text) ++
      (torrcText ((if newExits = [] then [] else [.string .exitNodes newExits]).map
          TorrcLine.text) ++
        (torrcText ((excludeEntries prefs).map TorrcLine.text) ++
          (OptionName.strictNodes.text ++ ' ' :: strictPreference prefs ++ '\n' ::
            (torrcText ((serviceLines sources prefs).map TorrcLine.text) ++
              (customTorrc prefs ++ ['\n']))))) := by
  have agree := setExitNode_agree fileGeoIP fileGeoIP6 prefs newExits
  have strict : (strictLine prefs).text =
      OptionName.strictNodes.text ++ ' ' :: strictPreference prefs := by
    unfold strictLine strictPreference
    split_ifs <;> exact TorrcLine.text_constant ..
  rw [updateTorConfigFile_layout restarted, layout_eq, linesBefore_agree agree,
    setExitNode_entries, excludeEntries, nodeEntries_agree agree _ (by decide), ← excludeEntries,
    strictLine_agree agree, serviceLines_agree agree, customTorrc_agree agree]
  simp only [torrcText, List.map_append, List.map_cons, List.flatMap_append, List.flatMap_cons,
    strict, List.append_assoc, List.flatMap_nil, List.append_nil, List.nil_append,
    List.cons_append]

theorem strictPreference_plain : PlainValue (strictPreference prefs) := by
  unfold strictPreference
  split_ifs
  · exact ⟨by decide, by decide, by decide, by decide, by decide⟩
  · exact ⟨by decide, by decide, by decide, by decide, by decide⟩

section Restart

variable {sources : TorrcSources} {after : List Text}
  (readable : PolicyReadable sources prefs newExits)
  (restarted : updateTorConfigFile sources
    (setExitNode fileGeoIP fileGeoIP6 true prefs newExits).1 = .ok after)
include readable restarted

/-- What the torrc after a restart sets an option of the policy to. -/
theorem restarted_setting (tor : TorrcReader) {name : OptionName}
    (inPolicy : name ∈ policyOptions) :
    tor.settingOf name.text (torrcText after) =
      ((customSetting tor prefs name).or
        (if OptionName.strictNodes.text = name.text then some (strictPreference prefs)
          else none)).or
      (if newExits ≠ [] ∧ OptionName.exitNodes.text = name.text then some newExits else none) := by
  have lines {part : List TorrcLine} (inLayout : part ⊆ layout sources prefs)
      (none : NoPolicy part) : ∀ line ∈ part, line.Readable :=
    fun line member => readable.lines line (inLayout member) (none line member _ (by decide))
  rw [layout_eq] at lines
  have before := lines (fun _ member => by simp [member]) (NoPolicy.linesBefore sources prefs)
  have exclude := lines (fun _ member => by simp [member]) (NoPolicy.excludeEntries prefs)
  have services := lines (fun _ member => by simp [member]) (NoPolicy.serviceLines sources prefs)
  have behind (rest : Text) : tor.settingOf name.text
      (torrcText ((if newExits = [] then [] else [.string .exitNodes newExits]).map
        TorrcLine.text) ++ rest) = (tor.settingOf name.text rest).or
      (if newExits ≠ [] ∧ OptionName.exitNodes.text = name.text then some newExits else none) := by
    by_cases none : newExits = []
    · simp [none, torrcText]
    · have text : torrcText ([.string .exitNodes newExits].map TorrcLine.text) ++ rest =
          OptionName.exitNodes.text ++ ' ' :: newExits ++ '\n' :: rest := by
        simp [torrcText, TorrcLine.text_string]
      rw [if_neg none, text, tor.settingOf_policy (by decide) (readable.exits none)]
      simp only [ne_eq, none, not_false_eq_true, true_and]
  rw [restarted_text _ _ _ _ restarted,
    tor.settingOf_other before (NoPolicy.linesBefore sources prefs) inPolicy, behind,
    tor.settingOf_other exclude (NoPolicy.excludeEntries prefs) inPolicy,
    tor.settingOf_policy (by decide) (strictPreference_plain prefs),
    tor.settingOf_other services (NoPolicy.serviceLines sources prefs) inPolicy, customSetting]

theorem restarted_strictNodes (tor : TorrcReader) :
    tor.settingOf "StrictNodes".toList (torrcText after) =
      some ((customSetting tor prefs .strictNodes).getD (strictPreference prefs)) := by
  have strict := restarted_setting fileGeoIP fileGeoIP6 prefs newExits readable restarted tor
    (show .strictNodes ∈ policyOptions by decide)
  have other : ¬ (newExits ≠ [] ∧ OptionName.exitNodes.text = OptionName.strictNodes.text) :=
    fun both => absurd both.2 (by decide)
  rw [if_pos rfl, if_neg other, Option.or_none] at strict
  refine strict.trans ?_
  cases customSetting tor prefs .strictNodes <;> rfl

theorem restarted_exitNodes (tor : TorrcReader) :
    tor.settingOf "ExitNodes".toList (torrcText after) =
      (customSetting tor prefs .exitNodes).or
        (if newExits = [] then none else some newExits) := by
  have exits := restarted_setting fileGeoIP fileGeoIP6 prefs newExits readable restarted tor
    (show .exitNodes ∈ policyOptions by decide)
  rw [if_neg (by decide), Option.or_none] at exits
  refine exits.trans (congrArg _ ?_)
  by_cases none : newExits = []
  · rw [if_pos none, if_neg fun both => both.1 none]
  · rw [if_neg none, if_pos ⟨none, rfl⟩]

end Restart

end Both

/-- The policy Tor runs with after `setExitNode`, whatever torrc it was started
    with, is the one of the next torrc exactly if the preferences keep it. -/
theorem exit_policy_kept_iff (tor : TorrcReader) (fileGeoIP fileGeoIP6 : Text)
    (sources : TorrcSources) (prefs : SharedPreferences) (newExits : Text)
    (before after : List Text) (readable : PolicyReadable sources prefs newExits)
    (restarted : updateTorConfigFile sources
      (setExitNode fileGeoIP fileGeoIP6 true prefs newExits).1 = .ok after) :
    TorConfig.exitPolicy ((setExitNode fileGeoIP fileGeoIP6 true prefs newExits).2.foldl
        ConfCommand.apply (tor.config (torrcText before))) =
      (tor.config (torrcText after)).exitPolicy ↔ KeepsPolicy tor prefs newExits := by
  have strict := restarted_strictNodes fileGeoIP fileGeoIP6 prefs newExits readable restarted tor
  have exits := restarted_exitNodes fileGeoIP fileGeoIP6 prefs newExits readable restarted tor
  have policy : KeepsPolicy tor prefs newExits ↔
      (∀ exits, customSetting tor prefs .exitNodes = some exits → exits = newExits) ∧
      (customSetting tor prefs .strictNodes).getD (strictPreference prefs) ∈
        if newExits = [] then ["0".toList, []] else ["1".toList] :=
    ⟨fun ⟨strict, exits⟩ => ⟨exits, strict⟩, fun ⟨exits, strict⟩ => ⟨strict, exits⟩⟩
  rw [live_exitPolicy, policy, TorConfig.exitPolicy, TorrcReader.config, TorrcReader.config,
    strict, exits]
  generalize (customSetting tor prefs .strictNodes).getD (strictPreference prefs) = strictValue
  by_cases none : newExits = []
  · rw [if_pos none, if_pos none, if_pos none, ExitPolicy.mk.injEq, Option.or_none, none]
    apply and_congr
    · cases customSetting tor prefs .exitNodes with
      | none => simp
      | some custom => by_cases empty : custom = [] <;> simp [empty, Option.filter_some]
    · by_cases empty : strictValue = [] <;> simp [empty, Option.filter_some, eq_comm]
  · rw [if_neg none, if_neg none, if_neg none, ExitPolicy.mk.injEq]
    apply and_congr
    · cases customSetting tor prefs .exitNodes with
      | none => simp [none, Option.filter_some]
      | some custom =>
          by_cases empty : custom = [] <;> simp [none, empty, Option.filter_some, eq_comm]
    · by_cases empty : strictValue = [] <;> simp [empty, Option.filter_some, eq_comm]

/-! ## A reader -/

def readLine (line : Text) : Option (Text × Text) :=
  match line.dropWhile (· ≠ ' ') with
  | [] => none
  | _ :: value => some (line.takeWhile (· ≠ ' '), value)

theorem readLine_append {keyword : Text} (noBlank : ' ' ∉ keyword) (argument : Text) :
    readLine (keyword ++ ' ' :: argument) = some (keyword, argument) := by
  rw [readLine, Java.dropWhile_ne_append noBlank, Java.takeWhile_ne_append noBlank]

def readLines (text : Text) : List (Text × Text) := (text.splitOn '\n').filterMap readLine

theorem readLines_cons {keyword argument : Text} (noBlank : ' ' ∉ keyword)
    (oneLine : '\n' ∉ keyword ++ ' ' :: argument) (rest : Text) :
    readLines (keyword ++ ' ' :: argument ++ '\n' :: rest) =
      (keyword, argument) :: readLines rest := by
  rw [readLines, Java.splitOn_append oneLine, List.filterMap_cons_some (readLine_append noBlank _)]
  rfl

theorem oneLine_of_unquoted {keyword argument : Text} (oneLine : '\n' ∉ keyword)
    (unquoted : Unquoted argument) : '\n' ∉ keyword ++ ' ' :: argument := by
  simp only [List.mem_append, List.mem_cons, not_or]
  exact ⟨oneLine, by decide, fun inside => (unquoted _ inside).1 rfl⟩

/-- Only the lines of the policy open with its options. -/
theorem keyword_text_ne {keyword : Keyword} {name : OptionName} (inPolicy : name ∈ policyOptions)
    (other : keyword ≠ .own name) : keyword.text ≠ name.text := by
  cases keyword with
  | own name' =>
      have distinct : ∀ name ∈ policyOptions, name'.text = name.text → name' = name := by
        cases name' <;> decide
      exact fun same => other (congrArg _ (distinct name inPolicy same))
  | proxy proxyType | proxyAuthenticator proxyType =>
      have last : ∀ name ∈ policyOptions, name.text.getLast? = some 's' := by decide
      intro same
      have ends := congrArg List.getLast? same
      rw [last name inPolicy, Keyword.text, List.getLast?_append] at ends
      simp at ends

/-- A reader for torrcs without quotes, escapes and comments. -/
def plainReader : TorrcReader where
  read := readLines
  policy name _ value rest plain :=
    readLines_cons name.noBlank (oneLine_of_unquoted name.noLineFeed plain.unquoted) rest
  other line rest readable none := by
    refine ⟨[(line.keyword.text, line.argumentText)], ?_, ?_⟩
    · exact readLines_cons readable.known.noBlank
        (oneLine_of_unquoted readable.known.noLineFeed readable.unquoted) rest
    · rintro s member name inPolicy
      rw [List.mem_singleton.mp member]
      exact keyword_text_ne inPolicy (none name inPolicy)
  empty := rfl

def strictPrefs : SharedPreferences := .of [] [("pref_strict_nodes".toList, true)]

/-- Strict nodes and exit nodes of one country. -/
theorem exit_policy_kept_iff_strict :
    ∃ after, updateTorConfigFile exampleSources
        (setExitNode [] [] true strictPrefs "{us}".toList).1 = .ok after ∧
      (plainReader.config (torrcText after)).exitPolicy = ⟨some "{us}".toList, "1".toList⟩ := by
  have readable : PolicyReadable exampleSources strictPrefs "{us}".toList := by
    constructor
    case lines => decide +kernel
    case exits => exact fun _ => ⟨by decide, by decide, by decide, by decide, by decide⟩
  have kept : KeepsPolicy plainReader strictPrefs "{us}".toList := by
    refine ⟨by decide +kernel, ?_⟩
    have custom : customSetting plainReader strictPrefs .exitNodes = none := by decide +kernel
    rw [custom]
    exact fun _ found => nomatch found
  obtain ⟨after, restarted⟩ := updateTorConfigFile_writes (show socksPortValue exampleSources
    (setExitNode [] [] true strictPrefs "{us}".toList).1 = .ok "9050".toList by rfl)
  have same := (exit_policy_kept_iff plainReader [] [] exampleSources strictPrefs "{us}".toList []
    after readable restarted).mpr kept
  rw [live_exitPolicy, if_neg (by decide)] at same
  exact ⟨after, restarted, same.symm⟩

/-- Without the preference for strict nodes the restriction is loosened by a
    restart, however Tor reads the rest. -/
theorem exit_policy_loosened :
    ∃ before after, updateTorConfigFile exampleSources (.of [] []) = .ok before ∧
      updateTorConfigFile exampleSources
        (setExitNode [] [] true (.of [] []) "{us}".toList).1 = .ok after ∧
      ∀ tor : TorrcReader, TorConfig.exitPolicy
          ((setExitNode [] [] true (.of [] []) "{us}".toList).2.foldl ConfCommand.apply
            (tor.config (torrcText before))) ≠
        (tor.config (torrcText after)).exitPolicy := by
  obtain ⟨before, running⟩ := updateTorConfigFile_writes (show socksPortValue exampleSources
    (.of [] []) = .ok "9050".toList by rfl)
  obtain ⟨after, restarted⟩ := updateTorConfigFile_writes (show socksPortValue exampleSources
    (setExitNode [] [] true (.of [] []) "{us}".toList).1 = .ok "9050".toList by rfl)
  have readable : PolicyReadable exampleSources (.of [] []) "{us}".toList := by
    constructor
    case lines => decide +kernel
    case exits => exact fun _ => ⟨by decide, by decide, by decide, by decide, by decide⟩
  refine ⟨before, after, running, restarted, fun tor same => ?_⟩
  have custom : customSetting tor (.of [] []) .strictNodes = none := by
    have noCustom : customTorrc (.of [] []) = [] := by decide
    rw [customSetting, TorrcReader.settingOf, noCustom, List.nil_append, tor.empty]
    rfl
  have strict := restarted_strictNodes [] [] (.of [] []) "{us}".toList readable restarted tor
  rw [custom] at strict
  rw [live_exitPolicy, if_neg (by decide)] at same
  have loosened : "1".toList = ((tor.settingOf "StrictNodes".toList
      (torrcText after)).filter (· ≠ [])).getD "0".toList := congrArg ExitPolicy.strictNodes same
  rw [strict] at loosened
  exact absurd loosened (by decide)

end Orbot.Service
