import Orbot.Service.TorrcLayout

/-! # The outbound proxy in the torrc

What `processSettingsImpl` writes for a configured outbound proxy, compared with
the options that `TorrcConfig` documents, and read back from the text.
-/

namespace Orbot.Service

open Java (Text CharTables)

/-- A setting without blanks and line feeds. -/
abbrev ProxyWord := { s : Text // s ≠ [] ∧ ' ' ∉ s ∧ '\n' ∉ s }

structure ProxySettings where
  type : ProxyWord
  host : ProxyWord
  port : ProxyWord
  user : Option Text
  password : Option Text
  deriving DecidableEq

/-- The address option, as type, host and port, and the login that goes with it. -/
structure ProxyReading where
  type : Text
  host : Text
  port : Text
  login : Option (Text × Text)
  deriving Repr, DecidableEq

namespace ProxySettings

variable (tables : CharTables) (proxy : ProxySettings)

def socks5 : Bool := Java.equalsIgnoreCase tables proxy.type.val "socks5".toList

def addressLine : Text :=
  proxy.type.val ++ "Proxy ".toList ++ proxy.host.val ++ [':'] ++ proxy.port.val

/-- The documented form of the login. -/
def loginLines : List Text :=
  match proxy.user, proxy.password with
  | some user, some password =>
      if proxy.socks5 tables then
        ["Socks5ProxyUsername ".toList ++ user, "Socks5ProxyPassword ".toList ++ password]
      else [proxy.type.val ++ "ProxyAuthenticator ".toList ++ user ++ [':'] ++ password]
  | _, _ => []

/-- What is appended for the login. -/
def loginEntries : List Text :=
  let authenticator := proxy.type.val ++ "ProxyAuthenticator ".toList ++ orNull proxy.user ++
    [':'] ++ proxy.port.val
  match proxy.user, proxy.password with
  | some user, some password =>
      if proxy.socks5 tables then
        ["Socks5ProxyUsername ".toList ++ user, "Socks5ProxyPassword ".toList ++ password]
      else [authenticator]
  | none, some _ => [authenticator]
  | _, none => []

/-- The settings of the proxy, with a login if both parts of it are set. -/
def reading : ProxyReading :=
  ⟨proxy.type.val, proxy.host.val, proxy.port.val,
    proxy.user.bind fun user => proxy.password.map fun password => (user, password)⟩

/-- The proxy is used, and these are its preferences. -/
structure Configured (sources : TorrcSources) (prefs : SharedPreferences) : Prop where
  noBridges : prefs.bridgesEnabled sources.language = false
  noVpn : prefs.useVpn = false
  type : prefs.strings "pref_proxy_type".toList = some proxy.type.val
  host : prefs.strings "pref_proxy_host".toList = some proxy.host.val
  port : prefs.strings "pref_proxy_port".toList = some proxy.port.val
  user : prefs.strings "pref_proxy_username".toList = proxy.user
  password : prefs.strings "pref_proxy_password".toList = proxy.password

end ProxySettings

/-! ## Reading the lines -/

/-- What stands behind the keyword of a line. -/
def lineValue (line : Text) : Text := (line.dropWhile (· ≠ ' ')).drop 1

/-- A user name has no colon. -/
def readLogin : List Text → Option (Text × Text)
  | [authenticator] =>
      let value := lineValue authenticator
      some (value.takeWhile (· ≠ ':'), (value.dropWhile (· ≠ ':')).drop 1)
  | [username, password] => some (lineValue username, lineValue password)
  | _ => none

/-- The port stands behind the last colon. -/
def readProxy : List Text → Option ProxyReading
  | [] => none
  | address :: login =>
      let value := lineValue address
      some {
        type := (address.takeWhile (· ≠ ' ')).rdrop "Proxy".length
        host := (value.rdropWhile (· ≠ ':')).dropLast
        port := value.rtakeWhile (· ≠ ':')
        login := readLogin login }

def writtenLines (entries : List Text) : List Text := ((torrcText entries).splitOn '\n').dropLast

/-- What `processSettingsImpl` appends besides. -/
def otherEntries (sources : TorrcSources) (prefs : SharedPreferences) : List Text :=
  (geoIPLines sources ++ nodeLines prefs ++ serviceLines sources prefs).map TorrcLine.text

def proxyEntries (sources : TorrcSources) (prefs : SharedPreferences) : List Text :=
  (proxyLines sources prefs).map TorrcLine.text

/-- The lines of the proxy are the documented ones, and give its settings back. -/
def ProxyReaches (sources : TorrcSources) (prefs : SharedPreferences) (proxy : ProxySettings) :
    Prop :=
  ∃ entries, processSettingsImpl sources prefs =
      "UseBridges 0".toList :: entries ++ otherEntries sources prefs ∧
    writtenLines entries = proxy.addressLine :: proxy.loginLines sources.tables ∧
    readProxy (writtenLines entries) = some proxy.reading

/-! ## What is appended -/

theorem writtenLines_eq (entries : List Text) :
    writtenLines entries = entries.flatMap (·.splitOn '\n') := by
  rw [writtenLines, torrcText_splitOn, List.dropLast_concat]

theorem flatMap_splitOn_eq_iff {entries lines : List Text} (same : lines.length = entries.length) :
    entries.flatMap (·.splitOn '\n') = lines ↔ entries = lines ∧ ∀ line ∈ lines, '\n' ∉ line := by
  constructor
  · intro split
    have apart := forall_of_flatMap_splitOn_length (le_of_eq (split ▸ same))
    rw [flatMap_splitOn_of_forall apart] at split
    exact ⟨split, split ▸ apart⟩
  · rintro ⟨rfl, apart⟩
    exact flatMap_splitOn_of_forall apart

section Configured

variable {sources : TorrcSources} {prefs : SharedPreferences} {proxy : ProxySettings}
  (configured : proxy.Configured sources prefs)
include configured

theorem proxyEntries_configured :
    proxyEntries sources prefs = proxy.addressLine :: proxy.loginEntries sources.tables := by
  have outbound : outboundProxy prefs =
      some (proxy.type.val, proxy.host.val, proxy.port.val) := by
    rw [outboundProxy, configured.type, configured.host, configured.port]
    simp [Option.filter, proxy.type.property.1, proxy.host.property.1, proxy.port.property.1]
  have address : TorrcLine.text ⟨.proxy proxy.type.val,
      [.string proxy.host.val, .constant ":", .string proxy.port.val]⟩ = proxy.addressLine := by
    simp [TorrcLine.text, TorrcLine.argumentText, Keyword.text, Piece.text,
      ProxySettings.addressLine]
  have authenticator : TorrcLine.text ⟨.proxyAuthenticator proxy.type.val,
      [.string (orNull proxy.user), .constant ":", .string proxy.port.val]⟩ =
        proxy.type.val ++ "ProxyAuthenticator ".toList ++ orNull proxy.user ++ [':'] ++
          proxy.port.val := by
    simp [TorrcLine.text, TorrcLine.argumentText, Keyword.text, Piece.text]
  rw [proxyEntries, proxyLines, configured.noVpn, if_neg Bool.false_ne_true, outbound,
    configured.user, configured.password, List.map_cons, address, ProxySettings.loginEntries]
  congr 1
  cases user : proxy.user with
  | none =>
      rw [user] at authenticator
      cases proxy.password with
      | none => rfl
      | some password => exact congrArg (List.cons · []) authenticator
  | some name =>
      rw [user] at authenticator
      cases proxy.password with
      | none => rfl
      | some password =>
          have socks5 : proxy.socks5 sources.tables =
              Java.equalsIgnoreCase sources.tables proxy.type.val "socks5".toList := rfl
          simp only [socks5]
          split_ifs
          · rw [List.map_cons, TorrcLine.text_string, List.map_singleton, TorrcLine.text_string]
            rfl
          · exact congrArg (List.cons · []) authenticator

/-- The proxy lines stand behind the first one. -/
theorem processSettingsImpl_proxy :
    processSettingsImpl sources prefs =
      "UseBridges 0".toList :: proxyEntries sources prefs ++ otherEntries sources prefs := by
  rw [processSettingsImpl, settingsLines, routeLines, configured.noBridges,
    if_neg Bool.false_ne_true, proxyEntries, otherEntries]
  simp only [List.append_assoc, List.map_append, List.map_cons, List.cons_append]
  rfl

/-- There are no other entries to look at than the ones appended. -/
theorem proxyReaches_iff :
    ProxyReaches sources prefs proxy ↔
      writtenLines (proxyEntries sources prefs) =
          proxy.addressLine :: proxy.loginLines sources.tables ∧
        readProxy (writtenLines (proxyEntries sources prefs)) = some proxy.reading := by
  have appended := processSettingsImpl_proxy configured
  constructor
  · rintro ⟨entries, same, reached⟩
    have entries_eq : entries = proxyEntries sources prefs := by
      rw [appended] at same
      exact (List.cons.inj (List.append_cancel_right same)).2.symm
    rw [← entries_eq]
    exact reached
  · intro reached
    exact ⟨_, appended, reached⟩

end Configured

/-! ## When the lines are the documented ones -/

section Lines

variable (tables : CharTables) (proxy : ProxySettings)

/-- What a login must be like so that its lines are right: a password has a user
    name, neither has a line feed, and without SOCKS 5 the password is the port. -/
def ProxySettings.LoginWritten : Prop :=
  match proxy.user, proxy.password with
  | some user, some password =>
      '\n' ∉ user ∧ '\n' ∉ password ∧
        (proxy.socks5 tables = false → password = proxy.port.val)
  | none, some _ => False
  | _, none => True

theorem addressLine_noLineFeed : '\n' ∉ proxy.addressLine := by
  simp [ProxySettings.addressLine, proxy.type.property.2.2, proxy.host.property.2.2,
    proxy.port.property.2.2]

theorem loginEntries_iff :
    (proxy.loginEntries tables).flatMap (·.splitOn '\n') = proxy.loginLines tables ↔
      proxy.LoginWritten tables := by
  unfold ProxySettings.loginEntries ProxySettings.loginLines ProxySettings.LoginWritten
  cases proxy.user with
  | none =>
      cases proxy.password with
      | none => simp
      | some password => simp [List.splitOn_ne_nil]
  | some user =>
      cases proxy.password with
      | none => simp
      | some password =>
          have type := proxy.type.property.2.2
          cases socks5 : proxy.socks5 tables with
          | true =>
              simp only [if_true]
              rw [flatMap_splitOn_eq_iff (by simp)]
              simp
          | false =>
              simp only [Bool.false_eq_true, if_false, orNull, Option.getD_some]
              rw [flatMap_splitOn_eq_iff (by simp)]
              simp only [List.cons.injEq, List.append_cancel_left_eq, and_true,
                List.forall_mem_singleton, List.mem_append, not_or]
              constructor
              · rintro ⟨same, ⟨⟨⟨-, -⟩, user⟩, -⟩, password⟩
                exact ⟨user, password, fun _ => same.symm⟩
              · rintro ⟨user, password, same⟩
                exact ⟨(same trivial).symm, ⟨⟨⟨type, by decide⟩, user⟩, by decide⟩, password⟩

theorem writtenLines_iff :
    writtenLines (proxy.addressLine :: proxy.loginEntries tables) =
        proxy.addressLine :: proxy.loginLines tables ↔ proxy.LoginWritten tables := by
  rw [writtenLines_eq, List.flatMap_cons, Java.splitOn_of_not_mem (addressLine_noLineFeed proxy),
    List.singleton_append, List.cons_inj_right, loginEntries_iff]

end Lines

/-! ## When they give the settings back -/

theorem lineValue_append {keyword value : Text} (absent : ' ' ∉ keyword) :
    lineValue (keyword ++ ' ' :: value) = value := by
  rw [lineValue, Java.dropWhile_ne_append absent, List.drop_one, List.tail_cons]

theorem lineValue_option {option keyword value : Text} (same : option = keyword ++ [' '])
    (absent : ' ' ∉ keyword) : lineValue (option ++ value) = value := by
  rw [same, List.append_assoc, List.singleton_append, lineValue_append absent]

/-- The last colon is the one before the port if the port has none. -/
theorem rtakeWhile_colon_iff (host port : Text) :
    (host ++ ':' :: port).rtakeWhile (· ≠ ':') = port ↔ ':' ∉ port := by
  constructor
  · intro same inside
    rw [← same] at inside
    exact absurd (List.mem_rtakeWhile_imp inside) (by decide)
  · intro absent
    have reversed : (host ++ ':' :: port).reverse = port.reverse ++ ':' :: host.reverse := by simp
    have behind : ':' ∉ port.reverse := mt List.mem_reverse.mp absent
    rw [List.rtakeWhile, reversed, Java.takeWhile_ne_append behind, List.reverse_reverse]

theorem rdropWhile_colon {host port : Text} (absent : ':' ∉ port) :
    ((host ++ ':' :: port).rdropWhile (· ≠ ':')).dropLast = host := by
  have reversed : (host ++ ':' :: port).reverse = port.reverse ++ ':' :: host.reverse := by simp
  have behind : ':' ∉ port.reverse := mt List.mem_reverse.mp absent
  rw [List.rdropWhile, reversed, Java.dropWhile_ne_append behind, List.reverse_cons,
    List.reverse_reverse, List.dropLast_concat]

theorem takeWhile_colon_iff (user password : Text) :
    (user ++ ':' :: password).takeWhile (· ≠ ':') = user ↔ ':' ∉ user := by
  constructor
  · intro same inside
    rw [← same] at inside
    exact absurd (List.mem_takeWhile_imp inside) (by decide)
  · exact Java.takeWhile_ne_append

section Readable

variable (tables : CharTables) (proxy : ProxySettings)

/-- The user name in an authenticator has no colon. -/
def ProxySettings.LoginReadable : Prop :=
  ∀ user ∈ proxy.user, proxy.password.isSome → proxy.socks5 tables = false → ':' ∉ user

theorem readLogin_iff :
    readLogin (proxy.loginLines tables) = proxy.reading.login ↔ proxy.LoginReadable tables := by
  unfold ProxySettings.loginLines ProxySettings.reading ProxySettings.LoginReadable
  cases proxy.user with
  | none => simp [readLogin]
  | some user =>
      cases proxy.password with
      | none => simp [readLogin]
      | some password =>
          cases socks5 : proxy.socks5 tables with
          | true =>
              have username : lineValue ("Socks5ProxyUsername ".toList ++ user) = user :=
                @lineValue_option _ "Socks5ProxyUsername".toList user rfl (by decide)
              have secret : lineValue ("Socks5ProxyPassword ".toList ++ password) = password :=
                @lineValue_option _ "Socks5ProxyPassword".toList password rfl (by decide)
              simp only [if_true, readLogin, username, secret]
              simp
          | false =>
              have noBlank : ' ' ∉ proxy.type.val ++ "ProxyAuthenticator".toList := by
                simp [proxy.type.property.2.1]
              have line : proxy.type.val ++ "ProxyAuthenticator ".toList ++ user ++ [':'] ++
                  password = (proxy.type.val ++ "ProxyAuthenticator".toList) ++
                    ' ' :: (user ++ ':' :: password) := by
                simp
              have read : readLogin [(proxy.type.val ++ "ProxyAuthenticator".toList) ++
                  ' ' :: (user ++ ':' :: password)] = some (user, password) ↔ ':' ∉ user := by
                rw [readLogin, lineValue_append noBlank, Option.some_inj, Prod.mk.injEq,
                  ← takeWhile_colon_iff user password, and_iff_left_iff_imp]
                intro front
                have absent := (takeWhile_colon_iff user password).mp front
                rw [Java.dropWhile_ne_append absent, List.drop_one, List.tail_cons]
              simp only [Bool.false_eq_true, if_false, line]
              simpa using read

theorem readProxy_iff :
    readProxy (proxy.addressLine :: proxy.loginLines tables) = some proxy.reading ↔
      ':' ∉ proxy.port.val ∧ proxy.LoginReadable tables := by
  have noBlank : ' ' ∉ proxy.type.val ++ "Proxy".toList := by
    simp [proxy.type.property.2.1]
  have line : proxy.addressLine =
      (proxy.type.val ++ "Proxy".toList) ++ ' ' :: (proxy.host.val ++ ':' :: proxy.port.val) := by
    simp [ProxySettings.addressLine]
  have type : (proxy.type.val ++ "Proxy".toList).rdrop "Proxy".length = proxy.type.val := by
    rw [List.rdrop, List.length_append, show "Proxy".length = "Proxy".toList.length from rfl,
      Nat.add_sub_cancel, List.take_left]
  rw [← readLogin_iff, line, readProxy, lineValue_append noBlank, Java.takeWhile_ne_append noBlank,
    type, Option.some_inj, ← rtakeWhile_colon_iff proxy.host.val]
  constructor
  · intro same
    exact ⟨congrArg ProxyReading.port same, congrArg ProxyReading.login same⟩
  · rintro ⟨port, login⟩
    have absent := (rtakeWhile_colon_iff _ _).mp port
    rw [port, login, rdropWhile_colon absent]
    rfl

end Readable

/-- The proxy reaches the text unchanged if and only if its login is written and
    can be taken apart again, and the port has no colon. -/
theorem proxyReaches_iff_written (sources : TorrcSources) (prefs : SharedPreferences)
    (proxy : ProxySettings) (configured : proxy.Configured sources prefs) :
    ProxyReaches sources prefs proxy ↔
      proxy.LoginWritten sources.tables ∧ ':' ∉ proxy.port.val ∧
        proxy.LoginReadable sources.tables := by
  rw [proxyReaches_iff configured, proxyEntries_configured configured, writtenLines_iff]
  constructor
  · rintro ⟨written, read⟩
    rw [(writtenLines_iff sources.tables proxy).mpr written, readProxy_iff] at read
    exact ⟨written, read⟩
  · rintro ⟨written, readable⟩
    rw [(writtenLines_iff sources.tables proxy).mpr written, readProxy_iff]
    exact ⟨written, readable⟩

/-! ## Two proxies -/

def proxyPreferences (type : Text) : SharedPreferences :=
  .of [("pref_proxy_type".toList, type), ("pref_proxy_host".toList, "192.0.2.1".toList),
    ("pref_proxy_port".toList, "8080".toList), ("pref_proxy_username".toList, "user".toList),
    ("pref_proxy_password".toList, "secret".toList)] []

def exampleProxy (type : ProxyWord) : ProxySettings :=
  ⟨type, ⟨"192.0.2.1".toList, by decide⟩, ⟨"8080".toList, by decide⟩, some "user".toList,
    some "secret".toList⟩

theorem exampleProxy_configured (type : ProxyWord) :
    (exampleProxy type).Configured exampleSources (proxyPreferences type.val) := by
  constructor
  all_goals rfl

theorem proxyReaches_iff_written_socks5 :
    ProxyReaches exampleSources (proxyPreferences "socks5".toList)
      (exampleProxy ⟨"socks5".toList, by decide⟩) := by
  have version : (exampleProxy ⟨"socks5".toList, by decide⟩).socks5 exampleSources.tables = true :=
    rfl
  apply (proxyReaches_iff_written exampleSources (proxyPreferences "socks5".toList)
    (exampleProxy ⟨"socks5".toList, by decide⟩) (exampleProxy_configured _)).mpr
  constructor
  · rw [ProxySettings.LoginWritten, version]
    simp only [exampleProxy, Bool.true_eq_false, false_imp_iff, and_true]
    decide
  · constructor
    · decide
    · rw [ProxySettings.LoginReadable, version]
      simp

/-- An HTTPS proxy is logged in to with its port. -/
theorem https_password_lost :
    ¬∀ sources prefs proxy, ProxySettings.Configured proxy sources prefs →
      ProxyReaches sources prefs proxy := by
  intro claimed
  have configured := exampleProxy_configured ⟨"HTTPS".toList, by decide⟩
  have reaches := (proxyReaches_iff configured).mp (claimed _ _ _ configured)
  exact absurd reaches.1 (by decide +kernel)

end Orbot.Service
