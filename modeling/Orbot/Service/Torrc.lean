import Orbot.Service.TransparentProxy

/-! # The torrc

`TorService.updateTorConfigFile` and `processSettingsImpl`, which build the
text of the custom torrc. Every string that is appended together with a line
feed is one entry of the list they return. But for the last one the entries are
lines of a keyword and an argument, put together from strings as they are.
-/

namespace Orbot.Service

open Java (Text CharTables RuntimeException)
open TransProxy

/-! ## What the builder reads -/

/-- A default bridge. -/
structure Bridge where
  type : Text
  config : Text
  deriving Repr, DecidableEq

/-- A row of the hidden service query; `none` is a null column. -/
structure HiddenServiceRow where
  name : Option Text
  port : Int
  onionPort : Int
  authCookie : Int
  deriving Repr, DecidableEq

/-- A row of the client cookie query. -/
structure ClientCookieRow where
  domain : Option Text
  authCookieValue : Option Text
  deriving Repr, DecidableEq

/-- What the builder reads besides the preferences. Paths are canonical; `none`
    stands for a null value, and for a call that throws. -/
structure TorrcSources where
  tables : CharTables
  /-- `Locale.getDefault().getLanguage()` -/
  language : Text
  fileControlPort : Text
  isPortOpen : Int → Bool
  mIsLollipop : Bool
  sSocksProxyLocalhost : Option Text
  sSocksProxyServerPort : Int
  fileObfsclient : Text
  /-- the two GeoIP files, if the first one exists -/
  geoIP : Option (Text × Text)
  /-- ISO-8859-1 bytes read back in the default charset -/
  recodeLatin1 : Text → Text
  /-- the lines of the asset `bridges.txt` -/
  bridgesTxt : List Text
  alBridges : Option (List Bridge)
  /-- `Collections.shuffle` -/
  shuffle : List Bridge → List Bridge
  shuffle_perm : ∀ bridges, (shuffle bridges).Perm bridges
  writeDNSFile : Option Text
  hiddenServiceDir : Int → Option Text
  hiddenServices : Option (List HiddenServiceRow)
  clientCookies : Option (List ClientCookieRow)

/-- A string in a concatenation. -/
def orNull (s : Option Text) : Text := s.getD "null".toList

/-! ## Lines -/

/-- The options the methods write. -/
inductive OptionName where
  | controlPortWriteToFile
  | socksPort
  | safeSocks
  | testSocks
  | warnUnsafeSocks
  | transPort
  | dnsPort
  | dnsListenAddress
  | transListenAddress
  | virtualAddrNetwork
  | automapHostsOnResolve
  | disableNetwork
  | log
  | safeLogging
  | useBridges
  | clientTransportPlugin
  | bridge
  | socks5Proxy
  | socks5ProxyUsername
  | socks5ProxyPassword
  | geoIPFile
  | geoIPv6File
  | entryNodes
  | exitNodes
  | excludeNodes
  | strictNodes
  | reachableAddresses
  | serverDNSResolvConfFile
  | orPort
  | nickname
  | exitPolicy
  | hiddenServiceDir
  | hiddenServicePort
  | hiddenServiceAuthorizeClient
  | hidServAuth
  deriving Repr, DecidableEq

def OptionName.text : OptionName → Text
  | .controlPortWriteToFile => "ControlPortWriteToFile".toList
  | .socksPort => "SOCKSPort".toList
  | .safeSocks => "SafeSocks".toList
  | .testSocks => "TestSocks".toList
  | .warnUnsafeSocks => "WarnUnsafeSocks".toList
  | .transPort => "TransPort".toList
  | .dnsPort => "DNSPort".toList
  | .dnsListenAddress => "DNSListenAddress".toList
  | .transListenAddress => "TransListenAddress".toList
  | .virtualAddrNetwork => "VirtualAddrNetwork".toList
  | .automapHostsOnResolve => "AutomapHostsOnResolve".toList
  | .disableNetwork => "DisableNetwork".toList
  | .log => "Log".toList
  | .safeLogging => "SafeLogging".toList
  | .useBridges => "UseBridges".toList
  | .clientTransportPlugin => "ClientTransportPlugin".toList
  | .bridge => "Bridge".toList
  | .socks5Proxy => "socks5Proxy".toList
  | .socks5ProxyUsername => "Socks5ProxyUsername".toList
  | .socks5ProxyPassword => "Socks5ProxyPassword".toList
  | .geoIPFile => "GeoIPFile".toList
  | .geoIPv6File => "GeoIPv6File".toList
  | .entryNodes => "EntryNodes".toList
  | .exitNodes => "ExitNodes".toList
  | .excludeNodes => "ExcludeNodes".toList
  | .strictNodes => "StrictNodes".toList
  | .reachableAddresses => "ReachableAddresses".toList
  | .serverDNSResolvConfFile => "ServerDNSResolvConfFile".toList
  | .orPort => "ORPort".toList
  | .nickname => "Nickname".toList
  | .exitPolicy => "ExitPolicy".toList
  | .hiddenServiceDir => "HiddenServiceDir".toList
  | .hiddenServicePort => "HiddenServicePort".toList
  | .hiddenServiceAuthorizeClient => "HiddenServiceAuthorizeClient".toList
  | .hidServAuth => "HidServAuth".toList

/-- The keyword of a line. Those for an outbound proxy open with its type. -/
inductive Keyword where
  | own (name : OptionName)
  | proxy (proxyType : Text)
  | proxyAuthenticator (proxyType : Text)
  deriving Repr, DecidableEq

def Keyword.text : Keyword → Text
  | .own name => name.text
  | .proxy proxyType => proxyType ++ "Proxy".toList
  | .proxyAuthenticator proxyType => proxyType ++ "ProxyAuthenticator".toList

/-- What an argument is put together from: constants of the source, numbers, and
    strings that are used as they are. -/
inductive Piece where
  | constant (s : String) (oneLine : '\n' ∉ s.toList := by decide)
  | integer (n : Int)
  | string (s : Text)
  deriving DecidableEq

namespace Piece

def text : Piece → Text
  | constant s _ => s.toList
  | integer n => number n
  | string s => s

def strings : Piece → List Text
  | string s => [s]
  | constant .. | integer _ => []

end Piece

structure TorrcLine where
  keyword : Keyword
  argument : List Piece
  deriving DecidableEq

namespace TorrcLine

/-- A line that is a constant of the source. -/
def constant (name : OptionName) (s : String) (oneLine : '\n' ∉ s.toList := by decide) :
    TorrcLine := ⟨.own name, [.constant s oneLine]⟩

/-- A string behind its keyword. -/
def string (name : OptionName) (s : Text) : TorrcLine := ⟨.own name, [.string s]⟩

variable (line : TorrcLine)

def argumentText : Text := line.argument.flatMap Piece.text

def text : Text := line.keyword.text ++ ' ' :: line.argumentText

/-- The strings in the argument other than constants and numbers. -/
def strings : List Text := line.argument.flatMap Piece.strings

end TorrcLine

/-! ## Bridges -/

/-- Reading stops at the first line without a token. -/
def parseBridges : List Text → List Bridge
  | [] => []
  | str :: rest =>
      match Java.tokens str ' ' with
      | [] => []
      | type :: config =>
          { type, config := Java.trim (config.flatMap (· ++ [' '])) } :: parseBridges rest

/-- `alBridges` is filled once. -/
def loadBridgeDefaults (sources : TorrcSources) : List Bridge :=
  sources.alBridges.getD (parseBridges sources.bridgesTxt)

def maxBridges : Nat := 2

def bridgeLine (b : Bridge) : TorrcLine :=
  ⟨.own .bridge, [.string b.type, .constant " ", .string b.config]⟩

/-- The loop of `getBridges` after `bridgeCount` bridges. -/
def pickBridges (type : Text) : Nat → List Bridge → List TorrcLine
  | _, [] => []
  | bridgeCount, b :: rest =>
      if b.type = type then
        bridgeLine b ::
          (if bridgeCount + 1 > maxBridges then [] else pickBridges type (bridgeCount + 1) rest)
      else pickBridges type bridgeCount rest

def getBridges (sources : TorrcSources) (type : Text) : List TorrcLine :=
  pickBridges type 0 (sources.shuffle (loadBridgeDefaults sources))

theorem pickBridges_eq (type : Text) {bridgeCount : Nat} (few : bridgeCount ≤ maxBridges)
    (bridges : List Bridge) :
    pickBridges type bridgeCount bridges =
      ((bridges.filter (·.type = type)).take (maxBridges + 1 - bridgeCount)).map bridgeLine := by
  induction bridges generalizing bridgeCount with
  | nil => simp [pickBridges]
  | cons b rest ih =>
      rw [pickBridges]
      split_ifs with chosen full
      · have last : maxBridges + 1 - bridgeCount = 1 := by omega
        simp [chosen, last]
      · have more : maxBridges + 1 - bridgeCount = maxBridges + 1 - (bridgeCount + 1) + 1 := by
          omega
        rw [ih (by omega), more]
        simp [chosen]
      · rw [ih few]
        simp [chosen]

/-- The default bridges taken. Although there are to be at most two, these are up
    to three. -/
def pickedBridges (sources : TorrcSources) (type : Text) : List Bridge :=
  ((sources.shuffle (loadBridgeDefaults sources)).filter (·.type = type)).take 3

theorem getBridges_eq (sources : TorrcSources) (type : Text) :
    getBridges sources type = (pickedBridges sources type).map bridgeLine :=
  pickBridges_eq type (Nat.zero_le _) _

def bridgeList (sources : TorrcSources) (prefs : SharedPreferences) : Text :=
  sources.recodeLatin1 (prefs.getBridgesList sources.language)

def pluginLines (bridgeList fileObfsclient : Text) : List TorrcLine :=
  let obfsBridges :=
    Java.contains bridgeList "obfs3".toList || Java.contains bridgeList "obfs4".toList
  let meekBridges := Java.contains bridgeList "meek".toList
  -- check if any PT bridges are needed
  (if obfsBridges then
      [⟨.own .clientTransportPlugin, [.constant "obfs3 exec ", .string fileObfsclient]⟩,
        ⟨.own .clientTransportPlugin, [.constant "obfs4 exec ", .string fileObfsclient]⟩]
    else []) ++
  (if meekBridges then
      [⟨.own .clientTransportPlugin, [.constant "meek_lite exec ", .string fileObfsclient]⟩]
    else [])

/-- The line for one line of the list: its tokens, a blank behind each. -/
def configLine (bridgeConfigLine : Text) : TorrcLine :=
  ⟨.own .bridge,
    (Java.tokens bridgeConfigLine ' ').flatMap fun token => [.string token, .constant " "]⟩

/-- The type of the default bridges a short list stands for. -/
def defaultType (bridgeList : Text) : Text :=
  if Java.contains bridgeList "meek".toList then "meek_lite".toList else "obfs4".toList

def bridgeEntries (sources : TorrcSources) (bridgeList : Text) : List TorrcLine :=
  -- longer then 1 = some real values here
  if bridgeList.length > 5 then
    ((Java.splitLineEnds bridgeList).filter (· ≠ [])).map configLine
  else getBridges sources (defaultType bridgeList)

def bridgeLines (sources : TorrcSources) (bridgeList : Text) : List TorrcLine :=
  pluginLines bridgeList sources.fileObfsclient ++ bridgeEntries sources bridgeList

/-! ## The outbound proxy -/

/-- The type, host and port of an outbound proxy that is configured. -/
def outboundProxy (prefs : SharedPreferences) : Option (Text × Text × Text) := do
  let proxyType ← (prefs.strings "pref_proxy_type".toList).filter (· ≠ [])
  let proxyHost ← (prefs.strings "pref_proxy_host".toList).filter (· ≠ [])
  let proxyPort ← (prefs.strings "pref_proxy_port".toList).filter (· ≠ [])
  return (proxyType, proxyHost, proxyPort)

def proxyLines (sources : TorrcSources) (prefs : SharedPreferences) : List TorrcLine :=
  if prefs.useVpn then
    -- set the proxy here if we aren't using a bridge
    if sources.mIsLollipop then []
    else
      [⟨.own .socks5Proxy, [.string (orNull sources.sSocksProxyLocalhost), .constant ":",
        .integer sources.sSocksProxyServerPort]⟩]
  else
    match outboundProxy prefs with
    | none => []
    | some (proxyType, proxyHost, proxyPort) =>
        let proxyUser := prefs.strings "pref_proxy_username".toList
        let proxyPass := prefs.strings "pref_proxy_password".toList
        let authenticator : TorrcLine := ⟨.proxyAuthenticator proxyType,
          [.string (orNull proxyUser), .constant ":", .string proxyPort]⟩
        ⟨.proxy proxyType, [.string proxyHost, .constant ":", .string proxyPort]⟩ ::
          match proxyUser, proxyPass with
          | some user, some pass =>
              if Java.equalsIgnoreCase sources.tables proxyType "socks5".toList then
                [.string .socks5ProxyUsername user, .string .socks5ProxyPassword pass]
              else [authenticator]
          | none, some _ => [authenticator]
          | _, none => []

/-! ## The settings -/

def geoIPLines (sources : TorrcSources) : List TorrcLine :=
  match sources.geoIP with
  | some (geoIP, geoIP6) => [.string .geoIPFile geoIP, .string .geoIPv6File geoIP6]
  | none => []

def useBridgesLine (enabled : Bool) : TorrcLine :=
  if enabled then .constant .useBridges "1" else .constant .useBridges "0"

/-- The settings before the node lists. -/
def routeLines (sources : TorrcSources) (prefs : SharedPreferences) : List TorrcLine :=
  (if prefs.bridgesEnabled sources.language then
      useBridgesLine true :: bridgeLines sources (bridgeList sources prefs)
    else useBridgesLine false :: proxyLines sources prefs) ++
  -- only apply GeoIP if you need it
  geoIPLines sources

/-- The line of one node list, if it is not empty. -/
def nodeEntries (name : OptionName) (key : Text) (prefs : SharedPreferences) : List TorrcLine :=
  match prefs.getString key [] with
  | [] => []
  | list => [.string name list]

def strictLine (prefs : SharedPreferences) : TorrcLine :=
  if prefs.getBoolean "pref_strict_nodes".toList false then .constant .strictNodes "1"
  else .constant .strictNodes "0"

def nodeLines (prefs : SharedPreferences) : List TorrcLine :=
  nodeEntries .entryNodes "pref_entrance_nodes".toList prefs ++
    nodeEntries .exitNodes "pref_exit_nodes".toList prefs ++
    nodeEntries .excludeNodes "pref_exclude_nodes".toList prefs ++ [strictLine prefs]

def reachableLines (prefs : SharedPreferences) : List TorrcLine :=
  if prefs.getBoolean "pref_reachable_addresses".toList false then
    [.string .reachableAddresses
      (prefs.getString "pref_reachable_addresses_ports".toList "*:80,*:443".toList)]
  else []

/-- `none` is the early return after an exception. -/
def relayLines (sources : TorrcSources) (prefs : SharedPreferences) : Option (List TorrcLine) :=
  match Java.parseInt sources.tables (prefs.getString "pref_or_port".toList "9001".toList),
      sources.writeDNSFile with
  | .ok orPort, some dnsFile =>
      some [.string .serverDNSResolvConfFile dnsFile, ⟨.own .orPort, [.integer orPort]⟩,
        .string .nickname (prefs.getString "pref_or_nickname".toList "Orbot".toList),
        .constant .exitPolicy "reject *:*"]
  | _, _ => none

/-- The lines for the relay where it is used; `none` is the return. -/
def relayEntries (sources : TorrcSources) (prefs : SharedPreferences) : Option (List TorrcLine) :=
  if prefs.getBoolean "pref_or".toList false && !prefs.bridgesEnabled sources.language &&
    !prefs.getBoolean "pref_reachable_addresses".toList false then relayLines sources prefs
  else some []

def serviceRows (sources : TorrcSources) : List HiddenServiceRow := sources.hiddenServices.getD []

def cookieRows (sources : TorrcSources) : List ClientCookieRow := sources.clientCookies.getD []

/-- The lines of one hidden service. -/
def serviceBlock (row : HiddenServiceRow) (hsDirPath : Text) : List TorrcLine :=
  [.string .hiddenServiceDir hsDirPath,
    ⟨.own .hiddenServicePort,
      [.integer row.onionPort, .constant " 127.0.0.1:", .integer row.port]⟩] ++
  if row.authCookie = 1 then
    [⟨.own .hiddenServiceAuthorizeClient, [.constant "stealth ", .string (orNull row.name)]⟩]
  else []

/-- A row whose directory has no canonical path ends the loop. -/
def hiddenServiceLines (sources : TorrcSources) : List HiddenServiceRow → List TorrcLine
  | [] => []
  | row :: rest =>
      match sources.hiddenServiceDir row.port with
      | none => []
      | some hsDirPath => serviceBlock row hsDirPath ++ hiddenServiceLines sources rest

def clientCookieLines (rows : List ClientCookieRow) : List TorrcLine :=
  rows.map fun row => ⟨.own .hidServAuth,
    [.string (orNull row.domain), .constant " ", .string (orNull row.authCookieValue)]⟩

/-- The lines of the rows, as far as the loop over the hidden services gets. -/
def servicePart (sources : TorrcSources) : List TorrcLine :=
  hiddenServiceLines sources (serviceRows sources) ++ clientCookieLines (cookieRows sources)

/-- The settings behind the node lists. -/
def serviceLines (sources : TorrcSources) (prefs : SharedPreferences) : List TorrcLine :=
  reachableLines prefs ++
    match relayEntries sources prefs with
    | none => []
    | some relay => relay ++ servicePart sources

def settingsLines (sources : TorrcSources) (prefs : SharedPreferences) : List TorrcLine :=
  routeLines sources prefs ++ nodeLines prefs ++ serviceLines sources prefs

def processSettingsImpl (sources : TorrcSources) (prefs : SharedPreferences) : List Text :=
  (settingsLines sources prefs).map TorrcLine.text

/-! ## The whole text -/

/-- The value after `SOCKSPort`. -/
def socksPortValue (sources : TorrcSources) (prefs : SharedPreferences) :
    Except RuntimeException Text := do
  let socksPortPref ← portText (prefs.getString "pref_socks".toList (number socksProxyPortDefault))
  if Java.equalsIgnoreCase sources.tables socksPortPref "auto".toList then
    return socksPortPref
  else
    let port ← Java.parseInt sources.tables socksPortPref
    -- the specified port is not available, so let Tor find one instead
    return if sources.isPortOpen port then "auto".toList else socksPortPref

/-- What stands before the settings. -/
def headerLines (sources : TorrcSources) (prefs : SharedPreferences) (socksPortPref : Text) :
    List TorrcLine :=
  let transPort := prefs.getString "pref_transport".toList (number torTransproxyPortDefault)
  let dnsPort := prefs.getString "pref_dnsport".toList (number torDnsPortDefault)
  [ .string .controlPortWriteToFile sources.fileControlPort,
    .string .socksPort socksPortPref,
    .constant .safeSocks "0",
    .constant .testSocks "0",
    .constant .warnUnsafeSocks "1",
    .string .transPort transPort,
    .string .dnsPort dnsPort ] ++
  (if prefs.useVpn then [.constant .dnsListenAddress "0.0.0.0"] else []) ++
  (if prefs.transparentTethering then
      [.constant .transListenAddress "0.0.0.0", .constant .dnsListenAddress "0.0.0.0"] else []) ++
  [ .constant .virtualAddrNetwork "10.192.0.0/10",
    .constant .automapHostsOnResolve "1",
    .constant .disableNetwork "0" ] ++
  (if prefs.useDebugLogging then
      [.constant .log "debug syslog", .constant .log "info syslog", .constant .safeLogging "0"]
    else [])

/-- A string in the US-ASCII charset. -/
def toAscii (s : Text) : Text := s.map fun c => if c.toNat < 128 then c else '?'

def customTorrc (prefs : SharedPreferences) : Text :=
  toAscii (prefs.getString "pref_custom_torrc".toList [])

def updateTorConfigFile (sources : TorrcSources) (prefs : SharedPreferences) :
    Except RuntimeException (List Text) := do
  let socksPortPref ← socksPortValue sources prefs
  return (headerLines sources prefs socksPortPref).map TorrcLine.text ++
    processSettingsImpl sources prefs ++ [customTorrc prefs]

/-- The text `installer.updateTorConfigCustom` is given. -/
def torrcText (extraLines : List Text) : Text :=
  extraLines.flatMap (· ++ ['\n'])


theorem updateTorConfigFile_eq {sources : TorrcSources} {prefs : SharedPreferences}
    {extraLines : List Text} : updateTorConfigFile sources prefs = .ok extraLines ↔
      ∃ socksPortPref, socksPortValue sources prefs = .ok socksPortPref ∧
        extraLines = (headerLines sources prefs socksPortPref).map TorrcLine.text ++
          processSettingsImpl sources prefs ++ [customTorrc prefs] := by
  cases socks : socksPortValue sources prefs with
  | error e => simp [updateTorConfigFile, socks, bind, Except.bind]
  | ok socksPortPref =>
      simp only [updateTorConfigFile, socks, bind, Except.bind, pure, Except.pure,
        Except.ok.injEq, exists_eq_left']
      exact eq_comm

/-! ## Options of a section -/

theorem OptionName.noLineFeed (name : OptionName) : '\n' ∉ name.text := by
  cases name <;> decide

theorem OptionName.noBlank (name : OptionName) : ' ' ∉ name.text := by
  cases name <;> decide

namespace TorrcLine

/-- The keyword is one of these. -/
def isAmong (names : List OptionName) (line : TorrcLine) : Bool :=
  match line.keyword with
  | .own name => names.contains name
  | .proxy _ | .proxyAuthenticator _ => false

theorem text_string (name : OptionName) (s : Text) :
    (string name s).text = name.text ++ ' ' :: s := by
  simp [string, text, argumentText, Keyword.text, Piece.text]

theorem text_constant (name : OptionName) (s : String) (oneLine : '\n' ∉ s.toList) :
    (constant name s oneLine).text = name.text ++ ' ' :: s.toList := by
  simp [constant, text, argumentText, Keyword.text, Piece.text]

end TorrcLine

/-- The lines set only these options. -/
def SetsOnly (names : List OptionName) (lines : List TorrcLine) : Prop :=
  ∀ line ∈ lines, line.isAmong names = true

namespace SetsOnly

variable {names : List OptionName} {lines later : List TorrcLine}

theorem nil : SetsOnly names [] := List.forall_mem_nil _

theorem of_check (check : lines.all (·.isAmong names) = true) : SetsOnly names lines :=
  List.all_eq_true.mp check

theorem append (first : SetsOnly names lines) (second : SetsOnly names later) :
    SetsOnly names (lines ++ later) :=
  List.forall_mem_append.mpr ⟨first, second⟩

theorem exists_keyword (sets : SetsOnly names lines) {line : TorrcLine} (member : line ∈ lines) :
    ∃ name ∈ names, line.keyword = .own name := by
  have among := sets line member
  unfold TorrcLine.isAmong at among
  split at among
  next name keyword => exact ⟨name, List.contains_iff_mem.mp among, keyword⟩
  all_goals cases among

theorem mono {names' : List OptionName} (sets : SetsOnly names lines) (more : names ⊆ names') :
    SetsOnly names' lines := by
  intro line member
  obtain ⟨name, known, keyword⟩ := sets.exists_keyword member
  rw [TorrcLine.isAmong, keyword]
  exact List.contains_iff_mem.mpr (more known)

/-- A line with another option is none of them. -/
theorem keyword_ne (sets : SetsOnly names lines) {name : OptionName} (other : name ∉ names)
    {line : TorrcLine} (member : line ∈ lines) : line.keyword ≠ .own name := by
  intro keyword
  obtain ⟨name', known, keyword'⟩ := sets.exists_keyword member
  obtain rfl := Keyword.own.inj (keyword.symm.trans keyword')
  exact other known

end SetsOnly

def headerOptions : List OptionName :=
  [.controlPortWriteToFile, .socksPort, .safeSocks, .testSocks, .warnUnsafeSocks, .transPort,
    .dnsPort, .dnsListenAddress, .transListenAddress, .virtualAddrNetwork, .automapHostsOnResolve,
    .disableNetwork, .log, .safeLogging]

def bridgeSectionOptions : List OptionName := [.clientTransportPlugin, .bridge]

def proxyOptions : List OptionName := [.socks5Proxy, .socks5ProxyUsername, .socks5ProxyPassword]

def Keyword.isProxy : Keyword → Bool
  | .own name => proxyOptions.contains name
  | .proxy _ | .proxyAuthenticator _ => true

def geoIPOptions : List OptionName := [.geoIPFile, .geoIPv6File]

def nodeOptions : List OptionName := [.entryNodes, .exitNodes, .excludeNodes, .strictNodes]

def serviceOptions : List OptionName :=
  [.reachableAddresses, .serverDNSResolvConfFile, .orPort, .nickname, .exitPolicy,
    .hiddenServiceDir, .hiddenServicePort, .hiddenServiceAuthorizeClient, .hidServAuth]

section Sections

variable (sources : TorrcSources) (prefs : SharedPreferences)

theorem headerLines_setsOnly (socksPortPref : Text) :
    SetsOnly headerOptions (headerLines sources prefs socksPortPref) := by
  refine .append (.append (.append (.append (.of_check rfl) ?_) ?_) (.of_check rfl)) ?_
  · split_ifs <;> exact .of_check rfl
  · split_ifs <;> exact .of_check rfl
  · split_ifs <;> exact .of_check rfl

theorem bridgeEntries_keyword {bridgeList : Text} {line : TorrcLine}
    (member : line ∈ bridgeEntries sources bridgeList) : line.keyword = .own .bridge := by
  unfold bridgeEntries at member
  rw [getBridges_eq] at member
  split_ifs at member
  · obtain ⟨_, _, rfl⟩ := List.mem_map.mp member
    rfl
  · obtain ⟨_, _, rfl⟩ := List.mem_map.mp member
    rfl

theorem pluginLines_keyword {bridgeList file : Text} {line : TorrcLine}
    (member : line ∈ pluginLines bridgeList file) : line.keyword = .own .clientTransportPlugin := by
  have plugins : SetsOnly [.clientTransportPlugin] (pluginLines bridgeList file) := by
    refine .append ?_ ?_
    · split_ifs <;> exact .of_check rfl
    · split_ifs <;> exact .of_check rfl
  obtain ⟨name, only, keyword⟩ := plugins.exists_keyword member
  rwa [List.mem_singleton.mp only] at keyword

theorem bridgeLines_setsOnly (bridgeList : Text) :
    SetsOnly bridgeSectionOptions (bridgeLines sources bridgeList) := by
  intro line member
  rcases List.mem_append.mp member with plugin | bridge
  · rw [TorrcLine.isAmong, pluginLines_keyword plugin]
    rfl
  · rw [TorrcLine.isAmong, bridgeEntries_keyword sources bridge]
    rfl

theorem proxyLines_isProxy : ∀ line ∈ proxyLines sources prefs, line.keyword.isProxy = true := by
  rw [← List.all_eq_true]
  unfold proxyLines
  split_ifs
  · rfl
  · rfl
  · rcases outboundProxy prefs with _ | ⟨proxyType, proxyHost, proxyPort⟩
    · rfl
    · cases prefs.strings "pref_proxy_username".toList with
      | none => cases prefs.strings "pref_proxy_password".toList <;> rfl
      | some user =>
          cases prefs.strings "pref_proxy_password".toList with
          | none => rfl
          | some pass =>
              simp only
              split_ifs <;> rfl

theorem geoIPLines_setsOnly : SetsOnly geoIPOptions (geoIPLines sources) := by
  unfold geoIPLines
  cases sources.geoIP with
  | none => exact .nil
  | some files => exact .of_check rfl

theorem nodeEntries_setsOnly {names : List OptionName} {name : OptionName} (known : name ∈ names)
    (key : Text) : SetsOnly names (nodeEntries name key prefs) := by
  unfold nodeEntries
  cases prefs.getString key [] with
  | nil => exact .nil
  | cons c list => exact List.forall_mem_singleton.mpr (List.contains_iff_mem.mpr known)

theorem nodeLines_setsOnly : SetsOnly nodeOptions (nodeLines prefs) := by
  refine .append (.append (.append ?_ ?_) ?_) (List.forall_mem_singleton.mpr ?_)
  · exact nodeEntries_setsOnly prefs (by decide) _
  · exact nodeEntries_setsOnly prefs (by decide) _
  · exact nodeEntries_setsOnly prefs (by decide) _
  · unfold strictLine
    split_ifs <;> rfl

theorem relayEntries_setsOnly {relay : List TorrcLine}
    (some : relayEntries sources prefs = some relay) : SetsOnly serviceOptions relay := by
  unfold relayEntries relayLines at some
  split_ifs at some
  · split at some
    · exact Option.some.inj some ▸ .of_check rfl
    · cases some
  · exact Option.some.inj some ▸ .nil

theorem hiddenServiceLines_setsOnly (rows : List HiddenServiceRow) :
    SetsOnly serviceOptions (hiddenServiceLines sources rows) := by
  induction rows with
  | nil => exact .nil
  | cons row rows ih =>
      unfold hiddenServiceLines
      cases sources.hiddenServiceDir row.port with
      | none => exact .nil
      | some hsDirPath =>
          refine .append (.append (.of_check rfl) ?_) ih
          split_ifs <;> exact .of_check rfl

theorem serviceLines_setsOnly : SetsOnly serviceOptions (serviceLines sources prefs) := by
  refine .append ?_ ?_
  · unfold reachableLines
    split_ifs <;> exact .of_check rfl
  · cases written : relayEntries sources prefs with
    | none => exact .nil
    | some relay =>
        have cookies : SetsOnly serviceOptions (clientCookieLines (cookieRows sources)) :=
          List.forall_mem_map.mpr fun _ _ => rfl
        exact .append (relayEntries_setsOnly sources prefs written)
          (.append (hiddenServiceLines_setsOnly sources _) cookies)

end Sections

end Orbot.Service
