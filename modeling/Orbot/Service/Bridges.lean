import Orbot.Lib.Fields
import Orbot.Service.TorrcLayout

/-! # The bridge section of the torrc

What a usable bridge section is for Tor, and when the one the service writes is
usable. The plugin lines follow from substrings of the bridge list, the bridge
lines from its lines or, if it is short, from the default bridges of one type.
Strings with a line feed anywhere in the settings can add lines of both kinds.
-/

namespace Orbot.Service

open Java (Text)
open TransProxy
open Lib.Fields (fields)

/-! ## Bridge lines -/

def isBlank (c : Char) : Bool := c = ' ' || c = '\t' || c = '\r' || c = '\n'

/-- The words of a line, or of an argument. -/
abbrev words (s : Text) : List Text := fields isBlank s

/-- A transport name is a C identifier; an address never is. -/
def isTransportName : Text → Bool
  | [] => false
  | c :: rest => (c.isAlpha || c = '_') && rest.all fun d => d.isAlphanum || d = '_'

/-- The transport in front of a bridge line, if there is one. -/
def transportOf : List Text → Option Text
  | [] => none
  | name :: _ => if isTransportName name then some name else none

/-- The field in the place of the address. -/
def addressOf : List Text → Option Text
  | [] => none
  | name :: rest => if isTransportName name then rest.head? else some name

inductive Host : Text → Prop where
  | ipv4 {a b c d : Text} : Octet a → Octet b → Octet c → Octet d →
      Host (a ++ '.' :: b ++ '.' :: c ++ '.' :: d)
  | ipv6 {body : Text} : body ≠ [] →
      (∀ c ∈ body, c.isDigit ∨ ('a' ≤ c ∧ c ≤ 'f') ∨ ('A' ≤ c ∧ c ≤ 'F') ∨ c = ':' ∨ c = '.') →
      Host ('[' :: body ++ [']'])

/-- The address of a bridge: the port may be left out. -/
inductive Address : Text → Prop where
  | host {host : Text} : Host host → Address host
  | port {host port : Text} : Host host → PortNumber port → Address (host ++ ':' :: port)

def HasAddress (args : List Text) : Prop :=
  ∃ address, addressOf args = some address ∧ Address address

/-- The arguments of a `Bridge` line. The case of the letters of an option does
    not matter. -/
def bridgeOf (line : Text) : Option (List Text) :=
  match words line with
  | [] => none
  | option :: args => if lower option = "bridge".toList then some args else none

/-- The transport of a `ClientTransportPlugin` line. -/
def pluginOf (line : Text) : Option Text :=
  match words line with
  | [] => none
  | option :: args => if lower option = "clienttransportplugin".toList then args.head? else none

/-- There is a bridge, and each has an address, and a transport that is plugged in
    if it has one. -/
structure Fits (bridges : List (List Text)) (plugins : List Text) : Prop where
  bridge : bridges ≠ []
  address : ∀ args ∈ bridges, HasAddress args
  plugin : ∀ args ∈ bridges, ∀ transport, transportOf args = some transport → transport ∈ plugins

/-- The bridge section of a text with these lines can be used. -/
structure Usable (lines : List Text) : Prop where
  useBridges : "UseBridges 1".toList ∈ lines
  fits : Fits (lines.filterMap bridgeOf) (lines.filterMap pluginOf)

/-- The lines of the text `processSettingsImpl` writes. -/
def writtenSettings (sources : TorrcSources) (prefs : SharedPreferences) : List Text :=
  (torrcText (processSettingsImpl sources prefs)).splitOn '\n'

/-! ## The condition -/

/-- The transports there are plugin lines for. -/
def Pluggable (transport : Text) : Prop :=
  transport = "obfs3".toList ∨ transport = "obfs4".toList ∨ transport = "meek_lite".toList

structure Supported (line : Text) : Prop where
  address : HasAddress (words line)
  transport : ∀ transport, transportOf (words line) = some transport →
    Pluggable transport

/-- A list of more than five characters has a line that is not empty, and each
    such line is supported. -/
def ListFits (list : Text) : Prop :=
  (∃ line ∈ Java.splitLineEnds list, line ≠ []) ∧
    ∀ line ∈ Java.splitLineEnds list, line ≠ [] → Supported line

/-- A shorter list names a transport, and there are default bridges of the type
    it stands for, each with an address. -/
def DefaultsFit (sources : TorrcSources) (list : Text) : Prop :=
  (Java.contains list "meek".toList ∨ Java.contains list "obfs3".toList ∨
      Java.contains list "obfs4".toList) ∧
    pickedBridges sources (defaultType list) ≠ [] ∧
    ∀ b ∈ pickedBridges sources (defaultType list),
      ∃ address, (words b.config).head? = some address ∧ Address address

/-- The transports plugin lines are written for. -/
def pluginNames (list : Text) : List Text :=
  (if Java.contains list "obfs3".toList || Java.contains list "obfs4".toList then
      ["obfs3".toList, "obfs4".toList]
    else []) ++
  (if Java.contains list "meek".toList then ["meek_lite".toList] else [])

/-- What is written behind `Bridge`. -/
def bridgeArguments (sources : TorrcSources) (list : Text) : List Text :=
  if list.length > 5 then
    ((Java.splitLineEnds list).filter (· ≠ [])).map fun line =>
      (Java.tokens line ' ').flatMap (· ++ [' '])
  else (pickedBridges sources (defaultType list)).map fun b => b.type ++ ' ' :: b.config

/-- The lines that stand behind a line feed in a string. -/
def TorrcLine.added (line : TorrcLine) : List Text := (line.argumentText.splitOn '\n').tail

def addedLines (sources : TorrcSources) (prefs : SharedPreferences) : List Text :=
  (settingsLines sources prefs).flatMap TorrcLine.added

/-- The list, or the default bridges it stands for, fit. Where strings add lines,
    the bridges and plugins in these count too. -/
def BridgesFit (sources : TorrcSources) (prefs : SharedPreferences) : Prop :=
  let list := bridgeList sources prefs
  let added := addedLines sources prefs
  if added = [] then
    if list.length > 5 then ListFits list else DefaultsFit sources list
  else
    Fits
      ((bridgeArguments sources list).map (fun args => words (args.takeWhile (· ≠ '\n'))) ++
        added.filterMap bridgeOf)
      (pluginNames list ++ added.filterMap pluginOf)

/-! ## Words -/

theorem words_append (s rest : Text) : words (s ++ ' ' :: rest) = words s ++ words rest :=
  Lib.Fields.fields_append_cons s rest (by decide)

/-- Tokens with a blank behind each are read as the words of the line. -/
theorem words_tokens (line : Text) :
    words ((Java.tokens line ' ').flatMap (· ++ [' '])) = words line := by
  have none : words [] = [] := Lib.Fields.fields_nil isBlank
  induction line using Java.splitOn_induction ' ' with
  | single s absent =>
      by_cases empty : s = []
      · rw [empty, Java.tokens_nil, List.flatMap_nil]
      · rw [Java.tokens_of_not_mem absent empty, List.flatMap_singleton, words_append, none,
          List.append_nil]
  | cons s rest absent ih =>
      rw [Java.tokens_append, List.flatMap_append, words_append, ← ih]
      by_cases empty : s = []
      · rw [empty, Java.tokens_nil, List.flatMap_nil, List.nil_append, none, List.nil_append]
      · rw [Java.tokens_of_not_mem absent empty, List.flatMap_singleton, List.append_assoc,
          List.singleton_append, words_append]

theorem isBlank_toLower {c : Char} (blank : isBlank c = true) : isBlank c.toLower = true := by
  simp only [isBlank, Bool.or_eq_true, decide_eq_true_eq] at blank
  rcases blank with ((rfl | rfl) | rfl) | rfl <;> decide

/-- A known keyword is a word. -/
theorem Keyword.Known.isWord {keyword : Keyword} (known : keyword.Known) :
    keyword.text ≠ [] ∧ ∀ c ∈ keyword.text, isBlank c = false := by
  suffices single : keyword.text ≠ [] ∧ keyword.text.any isBlank = false from
    ⟨single.1, fun c inside => Bool.eq_false_of_not_eq_true (List.any_eq_false.mp single.2 c inside)⟩
  have types : ∀ proxyType ∈ proxyTypes, proxyType.any isBlank = false := by decide
  have word {proxyType : Text} (typed : lower proxyType ∈ proxyTypes) :
      proxyType.any isBlank = false := by
    refine List.any_eq_false.mpr fun c inside blank => ?_
    have lowered := List.any_eq_false.mp (types _ typed) c.toLower (List.mem_map_of_mem inside)
    exact lowered (isBlank_toLower blank)
  cases keyword with
  | own name => cases name <;> decide
  | proxy proxyType | proxyAuthenticator proxyType =>
      refine ⟨List.append_ne_nil_of_right_ne_nil _ (by decide), ?_⟩
      rw [Keyword.text, List.any_append, word known]
      decide

theorem Keyword.Known.words_cons {keyword : Keyword} (known : keyword.Known) (s : Text) :
    words (keyword.text ++ ' ' :: s) = keyword.text :: words s := by
  rw [words_append, words, Lib.Fields.fields_single known.isWord.1 known.isWord.2,
    List.singleton_append]

theorem infix_of_mem_words {s field : Text} (member : field ∈ words s) : field <:+: s :=
  Java.infix_of_mem_splitOnP (List.mem_filter.mp member).1

theorem mem_of_transportOf {args : List Text} {transport : Text}
    (named : transportOf args = some transport) : transport ∈ args := by
  cases args with
  | nil => cases named
  | cons name rest =>
      simp only [transportOf, Option.ite_none_right_eq_some, Option.some.injEq] at named
      exact named.2 ▸ List.mem_cons_self ..

/-! ## The lines of the text -/

namespace TorrcLine

/-- The line of the text that opens with the keyword. -/
def firstLine (line : TorrcLine) : Text :=
  line.keyword.text ++ ' ' :: line.argumentText.takeWhile (· ≠ '\n')

theorem text_splitOn {line : TorrcLine} (oneLine : '\n' ∉ line.keyword.text) :
    line.text.splitOn '\n' = line.firstLine :: line.added := by
  have front : '\n' ∉ line.keyword.text ++ [' '] := by
    simpa using oneLine
  have split := Java.splitOn_append_left front line.argumentText
  rw [List.append_assoc, List.append_assoc] at split
  exact split

theorem words_firstLine {line : TorrcLine} (known : line.keyword.Known) :
    words line.firstLine =
      line.keyword.text :: words (line.argumentText.takeWhile (· ≠ '\n')) :=
  known.words_cons _

theorem bridgeOf_firstLine {line : TorrcLine} {name : OptionName}
    (keyword : line.keyword = .own name) : bridgeOf line.firstLine =
      if name = .bridge then some (words (line.argumentText.takeWhile (· ≠ '\n'))) else none := by
  have only : lower name.text = "bridge".toList ↔ name = .bridge := by cases name <;> decide
  have known : line.keyword.Known := keyword ▸ trivial
  simp only [bridgeOf, words_firstLine known, keyword, Keyword.text, only]

theorem pluginOf_firstLine {line : TorrcLine} {name : OptionName}
    (keyword : line.keyword = .own name) : pluginOf line.firstLine =
      if name = .clientTransportPlugin then (words (line.argumentText.takeWhile (· ≠ '\n'))).head?
      else none := by
  have only : lower name.text = "clienttransportplugin".toList ↔ name = .clientTransportPlugin := by
    cases name <;> decide
  have known : line.keyword.Known := keyword ▸ trivial
  simp only [pluginOf, words_firstLine known, keyword, Keyword.text, only]

end TorrcLine

/-- The settings besides the bridge section. -/
def otherLines (sources : TorrcSources) (prefs : SharedPreferences) : List TorrcLine :=
  geoIPLines sources ++ nodeLines prefs ++ serviceLines sources prefs

def otherOptions : List OptionName := geoIPOptions ++ nodeOptions ++ serviceOptions

theorem otherLines_setsOnly (sources : TorrcSources) (prefs : SharedPreferences) :
    SetsOnly otherOptions (otherLines sources prefs) := by
  refine .append (.append ?_ ?_) ?_
  · exact (geoIPLines_setsOnly sources).mono (by decide)
  · exact (nodeLines_setsOnly prefs).mono (by decide)
  · exact (serviceLines_setsOnly sources prefs).mono (by decide)

section Lines

variable {sources : TorrcSources} {prefs : SharedPreferences}
  (enabled : prefs.bridgesEnabled sources.language = true)
include enabled

theorem settingsLines_bridges : settingsLines sources prefs =
    useBridgesLine true :: bridgeLines sources (bridgeList sources prefs) ++
      otherLines sources prefs := by
  rw [settingsLines, routeLines, if_pos enabled, otherLines]
  simp only [List.append_assoc]

theorem settingsLines_setsOnly : SetsOnly (.useBridges :: bridgeSectionOptions ++ otherOptions)
    (settingsLines sources prefs) := by
  rw [settingsLines_bridges enabled]
  refine .append (List.forall_mem_cons.mpr ⟨rfl, ?_⟩) ?_
  · exact (bridgeLines_setsOnly sources _).mono (by decide)
  · exact (otherLines_setsOnly sources prefs).mono (by decide)

/-- Only the bridge section has bridge and plugin lines. -/
theorem mem_bridgeLines {line : TorrcLine} {name : OptionName}
    (inSection : name ∈ bridgeSectionOptions) (keyword : line.keyword = .own name) :
    line ∈ settingsLines sources prefs ↔
      line ∈ bridgeLines sources (bridgeList sources prefs) := by
  rw [settingsLines_bridges enabled, List.mem_append, List.mem_cons]
  constructor
  · rintro ((rfl | bridge) | other)
    · obtain rfl := Keyword.own.inj keyword
      exact absurd inSection (by decide)
    · exact bridge
    · have apart : ∀ name ∈ bridgeSectionOptions, name ∉ otherOptions := by decide
      exact absurd keyword
        ((otherLines_setsOnly sources prefs).keyword_ne (apart name inSection) other)
  · exact fun bridge => .inl (.inr bridge)

/-- Every line of the settings begins a line of the text, and those that strings
    add stand behind it. -/
theorem writtenSettings_eq : writtenSettings sources prefs =
    (settingsLines sources prefs).flatMap (fun line => line.firstLine :: line.added) ++ [[]] := by
  rw [writtenSettings, torrcText_splitOn, processSettingsImpl, List.flatMap_map]
  congr 1
  apply List.flatMap_congr
  intro line member
  obtain ⟨name, -, keyword⟩ := (settingsLines_setsOnly enabled).exists_keyword member
  exact TorrcLine.text_splitOn (keyword ▸ name.noLineFeed)

/-- What is read from the lines of the text. -/
theorem mem_filterMap_writtenSettings {β : Type} {read : Text → Option β} (empty : read [] = none)
    (v : β) : v ∈ (writtenSettings sources prefs).filterMap read ↔
      (∃ line ∈ settingsLines sources prefs, read line.firstLine = some v) ∨
        v ∈ (addedLines sources prefs).filterMap read := by
  rw [writtenSettings_eq enabled, addedLines]
  simp only [List.filterMap_append, List.filterMap_cons, empty, List.filterMap_nil,
    List.append_nil, List.mem_filterMap, List.mem_flatMap, List.mem_cons]
  constructor
  · rintro ⟨text, ⟨line, member, rfl | added⟩, value⟩
    · exact .inl ⟨line, member, value⟩
    · exact .inr ⟨text, ⟨line, member, added⟩, value⟩
  · rintro (⟨line, member, value⟩ | ⟨text, ⟨line, member, added⟩, value⟩)
    · exact ⟨_, ⟨line, member, .inl rfl⟩, value⟩
    · exact ⟨text, ⟨line, member, .inr added⟩, value⟩

end Lines

/-! ## Names and arguments -/

theorem bridgeEntries_arguments (sources : TorrcSources) (list : Text) :
    (bridgeEntries sources list).map TorrcLine.argumentText = bridgeArguments sources list := by
  unfold bridgeEntries bridgeArguments
  split_ifs
  · rw [List.map_map]
    apply List.map_congr_left
    intro line _
    simp [configLine, TorrcLine.argumentText, Piece.text, List.flatMap_assoc]
  · rw [getBridges_eq, List.map_map]
    apply List.map_congr_left
    intro b _
    simp [bridgeLine, TorrcLine.argumentText, Piece.text]

theorem pluginLines_arguments (list file : Text) :
    (pluginLines list file).map TorrcLine.argumentText =
      (pluginNames list).map fun name => name ++ ' ' :: ("exec ".toList ++ file) := by
  unfold pluginLines pluginNames
  rw [List.map_append, List.map_append]
  congr 1
  · split_ifs
    · simp [TorrcLine.argumentText, Piece.text]
    · rfl
  · split_ifs
    · simp [TorrcLine.argumentText, Piece.text]
    · rfl

theorem pluginNames_word {list name : Text} (named : name ∈ pluginNames list) :
    words name = [name] ∧ '\n' ∉ name := by
  have all : ∀ name ∈ pluginNames list, words name = [name] ∧ '\n' ∉ name := by
    unfold pluginNames
    split_ifs
    all_goals decide
  exact all name named

section Entries

variable {sources : TorrcSources} {prefs : SharedPreferences}
  (enabled : prefs.bridgesEnabled sources.language = true)
include enabled

/-- The bridge lines among the settings. -/
theorem bridgeOf_settings (args : List Text) :
    (∃ line ∈ settingsLines sources prefs, bridgeOf line.firstLine = some args) ↔
      args ∈ (bridgeArguments sources (bridgeList sources prefs)).map
        (fun args => words (args.takeWhile (· ≠ '\n'))) := by
  rw [← bridgeEntries_arguments, List.map_map, List.mem_map]
  constructor
  · rintro ⟨line, member, value⟩
    obtain ⟨name, -, keyword⟩ := (settingsLines_setsOnly enabled).exists_keyword member
    rw [TorrcLine.bridgeOf_firstLine keyword] at value
    split_ifs at value with isBridge
    obtain rfl := isBridge
    rcases List.mem_append.mp ((mem_bridgeLines enabled (by decide) keyword).mp member) with
      plugin | bridge
    · cases keyword.symm.trans (pluginLines_keyword plugin)
    · exact ⟨line, bridge, Option.some.inj value⟩
  · rintro ⟨line, bridge, rfl⟩
    have keyword := bridgeEntries_keyword sources bridge
    refine ⟨line, (mem_bridgeLines enabled (by decide) keyword).mpr
      (List.mem_append_right _ bridge), ?_⟩
    rw [TorrcLine.bridgeOf_firstLine keyword, if_pos rfl]
    rfl

/-- The plugin lines among the settings. -/
theorem pluginOf_settings (transport : Text) :
    (∃ line ∈ settingsLines sources prefs, pluginOf line.firstLine = some transport) ↔
      transport ∈ pluginNames (bridgeList sources prefs) := by
  have plugin {name : Text} (named : name ∈ pluginNames (bridgeList sources prefs)) :
      (words ((name ++ ' ' :: ("exec ".toList ++ sources.fileObfsclient)).takeWhile
        (· ≠ '\n'))).head? = some name := by
    obtain ⟨single, oneLine⟩ := pluginNames_word named
    have front : '\n' ∉ name ++ ' ' :: "exec ".toList := List.not_mem_append oneLine (by decide)
    have split := @List.takeWhile_append_of_pos _ _ _ sources.fileObfsclient
      (Java.forall_ne_of_not_mem front)
    rw [List.append_assoc, List.append_assoc] at split
    rw [← List.cons_append, split, List.cons_append, words_append, single]
    rfl
  constructor
  · rintro ⟨line, member, value⟩
    obtain ⟨name, -, keyword⟩ := (settingsLines_setsOnly enabled).exists_keyword member
    rw [TorrcLine.pluginOf_firstLine keyword] at value
    split_ifs at value with isPlugin
    obtain rfl := isPlugin
    rcases List.mem_append.mp ((mem_bridgeLines enabled (by decide) keyword).mp member) with
      written | bridge
    · have argument := List.mem_map_of_mem (f := TorrcLine.argumentText) written
      rw [pluginLines_arguments, List.mem_map] at argument
      obtain ⟨name, named, argument⟩ := argument
      rw [← argument, plugin named] at value
      exact Option.some.inj value ▸ named
    · cases keyword.symm.trans (bridgeEntries_keyword sources bridge)
  · intro named
    have argument := List.mem_map_of_mem
      (f := fun name => name ++ ' ' :: ("exec ".toList ++ sources.fileObfsclient)) named
    rw [← pluginLines_arguments, List.mem_map] at argument
    obtain ⟨line, written, argument⟩ := argument
    have keyword := pluginLines_keyword written
    refine ⟨line, (mem_bridgeLines enabled (by decide) keyword).mpr
      (List.mem_append_left _ written), ?_⟩
    rw [TorrcLine.pluginOf_firstLine keyword, if_pos rfl, argument, plugin named]

end Entries

/-- Which bridges and plugins there are is all that counts. -/
theorem Fits.congr {bridges bridges' : List (List Text)} {plugins plugins' : List Text}
    (sameBridges : ∀ args, args ∈ bridges ↔ args ∈ bridges')
    (samePlugins : ∀ transport, transport ∈ plugins ↔ transport ∈ plugins') :
    Fits bridges plugins ↔ Fits bridges' plugins' := by
  have some : bridges ≠ [] ↔ bridges' ≠ [] := by
    simp only [ne_eq, List.eq_nil_iff_forall_not_mem, sameBridges]
  constructor
  · rintro ⟨bridge, address, plugin⟩
    exact ⟨some.mp bridge, fun args listed => address args ((sameBridges args).mpr listed),
      fun args listed transport named => (samePlugins transport).mp
        (plugin args ((sameBridges args).mpr listed) transport named)⟩
  · rintro ⟨bridge, address, plugin⟩
    exact ⟨some.mpr bridge, fun args listed => address args ((sameBridges args).mp listed),
      fun args listed transport named => (samePlugins transport).mpr
        (plugin args ((sameBridges args).mp listed) transport named)⟩

/-- The section can be used exactly if its own lines and the added ones fit. -/
theorem usable_iff {sources : TorrcSources} {prefs : SharedPreferences}
    (enabled : prefs.bridgesEnabled sources.language = true) :
    Usable (writtenSettings sources prefs) ↔ Fits
      ((bridgeArguments sources (bridgeList sources prefs)).map
          (fun args => words (args.takeWhile (· ≠ '\n'))) ++
        (addedLines sources prefs).filterMap bridgeOf)
      (pluginNames (bridgeList sources prefs) ++
        (addedLines sources prefs).filterMap pluginOf) := by
  have useBridges : "UseBridges 1".toList ∈ writtenSettings sources prefs := by
    rw [writtenSettings_eq enabled, settingsLines_bridges enabled]
    exact List.mem_append_left _ (List.mem_cons_self ..)
  have fits : Fits ((writtenSettings sources prefs).filterMap bridgeOf)
      ((writtenSettings sources prefs).filterMap pluginOf) ↔ _ :=
    Fits.congr
      (fun args => (mem_filterMap_writtenSettings enabled rfl args).trans
        ((or_congr_left (bridgeOf_settings enabled args)).trans List.mem_append.symm))
      (fun transport => (mem_filterMap_writtenSettings enabled rfl transport).trans
        ((or_congr_left (pluginOf_settings enabled transport)).trans List.mem_append.symm))
  rw [← fits]
  exact ⟨Usable.fits, fun fits => ⟨useBridges, fits⟩⟩

/-- Without added lines no argument of the section has a line feed. -/
theorem bridgeArguments_of_noneAdded {sources : TorrcSources} {prefs : SharedPreferences}
    (enabled : prefs.bridgesEnabled sources.language = true)
    (none : addedLines sources prefs = []) :
    (bridgeArguments sources (bridgeList sources prefs)).map
        (fun args => words (args.takeWhile (· ≠ '\n'))) =
      (bridgeArguments sources (bridgeList sources prefs)).map words := by
  rw [← bridgeEntries_arguments, List.map_map, List.map_map]
  apply List.map_congr_left
  intro line member
  have inSettings : line ∈ settingsLines sources prefs := by
    rw [settingsLines_bridges enabled]
    exact List.mem_append_left _ (List.mem_cons_of_mem _ (List.mem_append_right _ member))
  have single := congrArg List.length (List.flatMap_eq_nil_iff.mp none line inSettings)
  rw [TorrcLine.added, List.length_tail, Java.splitOn_length] at single
  exact congrArg words (Java.takeWhile_ne_of_not_mem (List.count_eq_zero.mp single))

/-! ## The two cases -/

theorem pluggable_of_mem_pluginNames {list name : Text} (member : name ∈ pluginNames list) :
    Pluggable name := by
  rcases List.mem_append.mp member with obfs | meek
  · split_ifs at obfs
    · rcases List.mem_cons.mp obfs with rfl | last
      · exact .inl rfl
      · exact .inr (.inl (List.mem_singleton.mp last))
    · cases obfs
  · split_ifs at meek
    · exact .inr (.inr (List.mem_singleton.mp meek))
    · cases meek

/-- A transport that occurs in the list gets its plugin line if there is one. -/
theorem mem_pluginNames_iff {list transport : Text} (occurs : transport <:+: list) :
    transport ∈ pluginNames list ↔ Pluggable transport := by
  refine ⟨pluggable_of_mem_pluginNames, fun known => ?_⟩
  rcases known with rfl | rfl | rfl
  · apply List.mem_append_left _
    rw [Java.contains_iff.mpr occurs, Bool.true_or]
    exact List.mem_cons_self ..
  · apply List.mem_append_left _
    rw [Java.contains_iff.mpr occurs, Bool.or_true]
    exact List.mem_cons_of_mem _ (List.mem_cons_self ..)
  · have meek : "meek".toList <:+: list := .trans ⟨[], "_lite".toList, by simp⟩ occurs
    apply List.mem_append_right _
    rw [Java.contains_iff.mpr meek]
    exact List.mem_cons_self ..

theorem listFits_iff (sources : TorrcSources) {list : Text} (long : list.length > 5) :
    Fits ((bridgeArguments sources list).map words) (pluginNames list) ↔ ListFits list := by
  have argument (args : List Text) : args ∈ (bridgeArguments sources list).map words ↔
      ∃ line, (line ∈ Java.splitLineEnds list ∧ line ≠ []) ∧ words line = args := by
    simp only [bridgeArguments, if_pos long, List.map_map, Function.comp_def, words_tokens,
      List.mem_map, List.mem_filter, decide_eq_true_eq]
  have occurs {line : Text} (inList : line ∈ Java.splitLineEnds list) {transport : Text}
      (named : transportOf (words line) = some transport) :
      transport ∈ pluginNames list ↔ Pluggable transport :=
    mem_pluginNames_iff ((infix_of_mem_words (mem_of_transportOf named)).trans
      (Java.infix_of_mem_splitLineEnds inList))
  constructor
  · rintro ⟨bridge, address, plugin⟩
    obtain ⟨args, written⟩ := List.exists_mem_of_ne_nil _ bridge
    obtain ⟨line, ⟨inList, some⟩, -⟩ := (argument args).mp written
    refine ⟨⟨line, inList, some⟩, fun line inList some => ?_⟩
    have written := (argument _).mpr ⟨line, ⟨inList, some⟩, rfl⟩
    exact ⟨address _ written, fun transport named =>
      (occurs inList named).mp (plugin _ written transport named)⟩
  · rintro ⟨⟨line, inList, some⟩, supported⟩
    refine ⟨List.ne_nil_of_mem ((argument _).mpr ⟨line, ⟨inList, some⟩, rfl⟩), ?_, ?_⟩
    · intro args written
      obtain ⟨line, ⟨inList, some⟩, rfl⟩ := (argument args).mp written
      exact (supported line inList some).address
    · intro args written transport named
      obtain ⟨line, ⟨inList, some⟩, rfl⟩ := (argument args).mp written
      exact (occurs inList named).mpr ((supported line inList some).transport transport named)

/-- The two types of default bridges are transport names. -/
theorem words_default (list config : Text) :
    words (defaultType list ++ ' ' :: config) =
        defaultType list :: words config ∧
      isTransportName (defaultType list) = true := by
  rw [words, Lib.Fields.fields_append_cons _ _ (by decide)]
  unfold defaultType
  split_ifs
  · exact ⟨rfl, rfl⟩
  · exact ⟨rfl, rfl⟩

theorem defaultType_mem_pluginNames (list : Text) :
    defaultType list ∈ pluginNames list ↔
      (Java.contains list "meek".toList ∨ Java.contains list "obfs3".toList ∨
        Java.contains list "obfs4".toList) := by
  unfold defaultType pluginNames
  cases Java.contains list "meek".toList with
  | true => exact iff_of_true (List.mem_append_right _ (List.mem_cons_self ..)) (.inl rfl)
  | false =>
      cases obfs : Java.contains list "obfs3".toList || Java.contains list "obfs4".toList with
      | true =>
          have obfs4 := List.mem_singleton_self "obfs4".toList
          exact iff_of_true (List.mem_append_left _ (List.mem_cons_of_mem _ obfs4))
            (.inr ((Bool.or_eq_true ..).mp obfs))
      | false =>
          obtain ⟨obfs3, obfs4⟩ := (Bool.or_eq_false_iff ..).mp obfs
          rw [obfs3, obfs4]
          simp

theorem defaultsFit_iff (sources : TorrcSources) {list : Text} (short : ¬ list.length > 5) :
    Fits ((bridgeArguments sources list).map words) (pluginNames list) ↔
      DefaultsFit sources list := by
  have typed (b : Bridge) (picked : b ∈ pickedBridges sources (defaultType list)) :
      b.type = defaultType list := by
    simpa using (List.mem_filter.mp (List.mem_of_mem_take picked)).2
  have argument (args : List Text) : args ∈ (bridgeArguments sources list).map words ↔
      ∃ b ∈ pickedBridges sources (defaultType list), words (b.type ++ ' ' :: b.config) = args := by
    rw [bridgeArguments, if_neg short, List.map_map, List.mem_map]
    rfl
  -- the first word is the type, which names a transport
  have read (b : Bridge) (picked : b ∈ pickedBridges sources (defaultType list)) :
      (HasAddress (words (b.type ++ ' ' :: b.config)) ↔
        ∃ address, (words b.config).head? = some address ∧ Address address) ∧
      transportOf (words (b.type ++ ' ' :: b.config)) = some (defaultType list) := by
    obtain ⟨split, named⟩ := words_default list b.config
    rw [typed b picked, split, HasAddress, addressOf, transportOf, if_pos named, if_pos named]
    exact ⟨Iff.rfl, rfl⟩
  rw [DefaultsFit, ← defaultType_mem_pluginNames]
  constructor
  · rintro ⟨bridge, address, plugin⟩
    obtain ⟨args, written⟩ := List.exists_mem_of_ne_nil _ bridge
    obtain ⟨b, picked, rfl⟩ := (argument args).mp written
    refine ⟨plugin _ written _ (read b picked).2, List.ne_nil_of_mem picked, fun b picked => ?_⟩
    exact (read b picked).1.mp (address _ ((argument _).mpr ⟨b, picked, rfl⟩))
  · rintro ⟨plugged, some, address⟩
    obtain ⟨b, picked⟩ := List.exists_mem_of_ne_nil _ some
    refine ⟨List.ne_nil_of_mem ((argument _).mpr ⟨b, picked, rfl⟩), ?_, ?_⟩
    · intro args written
      obtain ⟨b, picked, rfl⟩ := (argument args).mp written
      exact (read b picked).1.mpr (address b picked)
    · intro args written transport named
      obtain ⟨b, picked, rfl⟩ := (argument args).mp written
      rw [(read b picked).2] at named
      exact Option.some.inj named ▸ plugged

/-- Preferences with bridges enabled and this bridge list. -/
def bridgePreferences (list : Text) : SharedPreferences :=
  .of [("pref_bridges_list".toList, list)] [("pref_bridges_enabled".toList, true)]

end Orbot.Service
