import Orbot.Service.Torrc

/-! # Who uses which port

Tor's trans and DNS ports are derived three times: for the torrc, for the rules
of the transparent proxy, and for the DNS server of the VPN. The port
preferences hold a port, or an IPv4 address and a port.
-/

namespace Orbot.Service

open Java (Text CharTables RuntimeException)
open TransProxy

/-! ## Port preferences -/

/-- A decimal port number. -/
structure PortNumber (s : Text) : Prop where
  nonempty : s ≠ []
  digits : ∀ c ∈ s, c.isDigit = true
  fits : Java.decimalValue s ≤ 65535

theorem PortNumber.of_check {s : Text}
    (check : (!s.isEmpty && s.all Char.isDigit && Nat.ble (Java.decimalValue s) 65535) = true) :
    PortNumber s := by
  simp only [Bool.and_eq_true, Bool.not_eq_true', List.isEmpty_eq_false_iff, List.all_eq_true,
    Nat.ble_eq] at check
  exact ⟨check.1.1, check.1.2, check.2⟩

/-- One of the four numbers of an IPv4 address. -/
structure Octet (s : Text) : Prop where
  nonempty : s ≠ []
  digits : ∀ c ∈ s, c.isDigit = true
  fits : Java.decimalValue s ≤ 255

theorem Octet.of_check {s : Text}
    (check : (!s.isEmpty && s.all Char.isDigit && Nat.ble (Java.decimalValue s) 255) = true) :
    Octet s := by
  simp only [Bool.and_eq_true, Bool.not_eq_true', List.isEmpty_eq_false_iff, List.all_eq_true,
    Nat.ble_eq] at check
  exact ⟨check.1.1, check.1.2, check.2⟩

inductive PortPref : Text → Prop where
  | port {port : Text} : PortNumber port → PortPref port
  | addressPort {a b c d port : Text} : Octet a → Octet b → Octet c → Octet d → PortNumber port →
      PortPref (a ++ '.' :: b ++ '.' :: c ++ '.' :: d ++ ':' :: port)

/-- The port of an option value: what follows the address, if there is one. -/
def valuePort (value : Text) : Option Nat :=
  match value.splitOn ':' with
  | [port] => some (Java.decimalValue port)
  | [_, port] => some (Java.decimalValue port)
  | _ => none

/-- The value of the first line with an option. -/
def optionValue (option : Text) (extraLines : List Text) : Option Text :=
  (extraLines.find? ((option ++ [' ']).isPrefixOf ·)).map (·.drop (option.length + 1))

def optionPort (option : Text) (extraLines : List Text) : Option Nat :=
  (optionValue option extraLines).bind valuePort

theorem colon_not_mem_digits {s : Text} (digits : ∀ c ∈ s, c.isDigit = true) : ':' ∉ s := by
  intro member
  exact absurd (digits ':' member) (by decide)

theorem PortNumber.parseInt {s : Text} (number : PortNumber s) (tables : CharTables) :
    Java.parseInt tables s = .ok (Java.decimalValue s) := by
  have fits := number.fits
  exact Java.parseInt_of_digits tables number.nonempty number.digits (by omega)

/-- The service reads the same port out of a preference as Tor does. -/
theorem portText_of_portPref (tables : CharTables) {pref : Text} (wellFormed : PortPref pref) :
    ∃ (text : Text) (n : Nat), portText pref = .ok text ∧
      Java.parseInt tables text = .ok (n : Int) ∧ valuePort pref = some n := by
  cases wellFormed with
  | port number =>
      have colon := colon_not_mem_digits number.digits
      refine ⟨pref, Java.decimalValue pref, ?_, number.parseInt tables, ?_⟩
      · rw [portText, Java.indexOf_of_not_mem colon]
        rfl
      · rw [valuePort, Java.splitOn_of_not_mem colon]
  | @addressPort a b c d port a' b' c' d' number =>
      have address : ':' ∉ a ++ '.' :: b ++ '.' :: c ++ '.' :: d := by
        have := colon_not_mem_digits a'.digits
        have := colon_not_mem_digits b'.digits
        have := colon_not_mem_digits c'.digits
        have := colon_not_mem_digits d'.digits
        simp_all
      have colon := colon_not_mem_digits number.digits
      refine ⟨port, Java.decimalValue port, ?_, number.parseInt tables, ?_⟩
      · have present : ((a ++ '.' :: b ++ '.' :: c ++ '.' :: d).length : Int) ≠ -1 := by omega
        rw [portText, Java.indexOf_append address, if_pos present,
          Java.split_pair address colon number.nonempty]
        rfl
      · rw [valuePort, Java.splitOn_append address, Java.splitOn_of_not_mem colon]

/-! ## The three readers -/

/-- The arguments `setupTun2Socks` starts the DNS server with. -/
def startDNSArguments : Text × Int := (ipLocalhost, torDnsPortDefault)

/-- Every redirection of TCP is to the one port, and every redirection of UDP
    to the other. -/
def RedirectsTo (transPort dnsPort : Int) (entries : Ruleset) : Prop :=
  ∀ e ∈ entries, ∀ port, e.2.target = .redirect port →
    (.proto .tcp ∈ e.2.conditions → port = transPort) ∧
      (.proto .udp ∈ e.2.conditions → port = dnsPort)

section Redirects

variable (m : Machine) (settings : Settings) (proxy : TorTransProxy)

theorem allEntries_redirects (device : Device) (ports : ServicePorts) :
    RedirectsTo proxy.mTransProxyPort proxy.mDNSPort (allEntries device ports proxy) := by
  simp [RedirectsTo, allEntries, allRules]

theorem byAppEntries_redirects (apps : List TorifiedApp) (enableRule : Bool) :
    RedirectsTo proxy.mTransProxyPort proxy.mDNSPort (byAppEntries proxy apps enableRule) := by
  intro e member port target
  rcases List.mem_cons.mp member with rfl | listed
  · simpa using target.symm
  · obtain ⟨uid, _, entry⟩ := List.mem_flatMap.mp listed
    simp only [appEntries, List.mem_cons, List.not_mem_nil, or_false] at entry
    rcases entry with rfl | rfl | rfl
    · simp at target
    · simpa using target.symm
    · simp at target

theorem tetheringEntries_redirects :
    RedirectsTo proxy.mTransProxyPort proxy.mDNSPort (tetheringEntries proxy) := by
  simp [RedirectsTo, tetheringEntries, hwinterfaces]

/-- Every redirection of an enabling is to the ports of the object. -/
theorem enableCommands_redirects :
    RedirectsTo proxy.mTransProxyPort proxy.mDNSPort
      ((enableCommands m settings proxy).issued.map Command.entry) := by
  rw [(enableCommands_spec m settings proxy).1]
  intro e member
  rcases List.mem_append.mp member with mode | tethering
  · rw [modeEntries] at mode
    split_ifs at mode
    · exact allEntries_redirects proxy m.device settings.ports e mode
    · exact byAppEntries_redirects proxy (m.apps settings) true e mode
  · split_ifs at tethering
    · exact tetheringEntries_redirects proxy e tethering
    · cases tethering

/-- DNS queries are redirected in every mode. -/
theorem enableCommands_redirects_dns :
    ∃ e ∈ (enableCommands m settings proxy).issued.map Command.entry,
      .proto .udp ∈ e.2.conditions ∧ e.2.target = .redirect proxy.mDNSPort := by
  rw [(enableCommands_spec m settings proxy).1, modeEntries]
  split_ifs
  all_goals simp [allEntries, allRules, byAppEntries]

end Redirects

/-! ## Agreement -/

theorem getString_portPref (prefs : SharedPreferences) (key : Text) {default : Text}
    (present : ∀ text, prefs.strings key = some text → PortPref text)
    (absent : PortPref default) : PortPref (prefs.getString key default) := by
  rw [SharedPreferences.getString]
  cases found : prefs.strings key with
  | none => exact absent
  | some text => exact present text found

theorem updateTorConfigFile_writes {sources : TorrcSources} {prefs : SharedPreferences}
    {socksPortPref : Text} (socks : socksPortValue sources prefs = .ok socksPortPref) :
    ∃ extraLines, updateTorConfigFile sources prefs = .ok extraLines := by
  rw [updateTorConfigFile, socks]
  exact ⟨_, rfl⟩

/-- What the torrc says about the two ports. -/
theorem updateTorConfigFile_ports {sources : TorrcSources} {prefs : SharedPreferences}
    {extraLines : List Text} (written : updateTorConfigFile sources prefs = .ok extraLines) :
    optionValue "TransPort".toList extraLines =
        some (prefs.getString "pref_transport".toList (number torTransproxyPortDefault)) ∧
      optionValue "DNSPort".toList extraLines =
        some (prefs.getString "pref_dnsport".toList (number torDnsPortDefault)) := by
  obtain ⟨socksPortPref, -, rfl⟩ := updateTorConfigFile_eq.mp written
  have ports (value : Text) : some (value ++ []) = some value := congrArg some value.append_nil
  exact ⟨ports _, ports _⟩

section Agreement

variable (m : Machine) (settings : Settings) (mTransProxy : Option TorTransProxy)

/-- The port preferences as `enableTransparentProxy` reads them: 9040 is the
    default of both. -/
def Settings.transportPref : Text :=
  settings.prefs.getString "pref_transport".toList (number torTransproxyPortDefault)

def Settings.dnsportPref : Text :=
  settings.prefs.getString "pref_dnsport".toList (number torTransproxyPortDefault)

/-- With well-formed preferences an enabling redirects to the ports they name,
    and DNS always. -/
theorem enableTransparentProxy_redirects (transport : PortPref settings.transportPref)
    (dnsport : PortPref settings.dnsportPref) :
    ∃ trans dns : Nat,
      valuePort settings.transportPref = some trans ∧
      valuePort settings.dnsportPref = some dns ∧
      RedirectsTo trans dns
        ((enableTransparentProxy m settings mTransProxy).issued.map Command.entry) ∧
      ∃ e ∈ (enableTransparentProxy m settings mTransProxy).issued.map Command.entry,
        .proto .udp ∈ e.2.conditions ∧ e.2.target = .redirect dns := by
  obtain ⟨transText, trans, transFound, transParsed, transValue⟩ :=
    portText_of_portPref m.tables transport
  obtain ⟨dnsText, dns, dnsFound, dnsParsed, dnsValue⟩ := portText_of_portPref m.tables dnsport
  rw [Settings.transportPref] at transFound
  rw [Settings.dnsportPref] at dnsFound
  let proxy : TorTransProxy :=
    { mTransProxy.getD {} with mTransProxyPort := trans, mDNSPort := dns }
  have commands : enableTransparentProxy m settings mTransProxy =
      enableCommands m settings proxy := by
    simp only [enableTransparentProxy, setPorts, transFound, dnsFound, transParsed, dnsParsed,
      if_true, proxy]
  rw [commands]
  exact ⟨trans, dns, transValue, dnsValue, enableCommands_redirects m settings proxy,
    enableCommands_redirects_dns m settings proxy⟩

/-- The three readers of the preferences agree. -/
def PortsAgree (extraLines : List Text) : Prop :=
  ∃ trans dns : Nat,
    optionPort "TransPort".toList extraLines = some trans ∧
      optionPort "DNSPort".toList extraLines = some dns ∧
      RedirectsTo trans dns
        ((enableTransparentProxy m settings mTransProxy).issued.map Command.entry) ∧
      startDNSArguments.2 = dns

variable {settings} {sources : TorrcSources} {extraLines : List Text}

/-- Without a DNS port preference the torrc names 5400, and the transparent
    proxy redirects to 9040. -/
theorem not_portsAgree_of_absent (transport : PortPref settings.transportPref)
    (absent : settings.prefs.strings "pref_dnsport".toList = none)
    (written : updateTorConfigFile sources settings.prefs = .ok extraLines) :
    ¬ PortsAgree m settings mTransProxy extraLines := by
  have default : settings.dnsportPref = number torTransproxyPortDefault := by
    rw [Settings.dnsportPref, SharedPreferences.getString, absent, Option.getD_none]
  obtain ⟨_, dns, _, dnsValue, _, e, issued, udp, target⟩ :=
    enableTransparentProxy_redirects m settings mTransProxy transport
      (default ▸ .port (.of_check rfl))
  have redirected : dns = 9040 := by
    rw [default] at dnsValue
    exact (Option.some.inj dnsValue).symm
  have dnsPort : optionPort "DNSPort".toList extraLines = some 5400 := by
    rw [optionPort, (updateTorConfigFile_ports written).2, SharedPreferences.getString, absent]
    rfl
  rintro ⟨_, dns', _, dnsPort', redirects, _⟩
  have same := (redirects e issued dns target).2 udp
  rw [dnsPort] at dnsPort'
  obtain rfl := Option.some.inj dnsPort'
  omega

/-- With one, the transparent proxy agrees with the torrc, and the VPN does if
    the preference names its constant. -/
theorem portsAgree_iff_of_present {text : Text} (transport : PortPref settings.transportPref)
    (dnsport : PortPref text)
    (present : settings.prefs.strings "pref_dnsport".toList = some text)
    (written : updateTorConfigFile sources settings.prefs = .ok extraLines) :
    PortsAgree m settings mTransProxy extraLines ↔ valuePort text = some 5400 := by
  have named : settings.dnsportPref = text := by
    rw [Settings.dnsportPref, SharedPreferences.getString, present, Option.getD_some]
  obtain ⟨trans, dns, transValue, dnsValue, redirects, _⟩ :=
    enableTransparentProxy_redirects m settings mTransProxy transport (named ▸ dnsport)
  obtain ⟨transLine, dnsLine⟩ := updateTorConfigFile_ports written
  rw [named] at dnsValue
  have transPort : optionPort "TransPort".toList extraLines = some trans := by
    rw [optionPort, transLine]
    exact transValue
  have dnsPort : optionPort "DNSPort".toList extraLines = some dns := by
    rw [optionPort, dnsLine, SharedPreferences.getString, present]
    exact dnsValue
  constructor
  · rintro ⟨_, dns', _, dnsPort', _, vpn⟩
    rw [dnsPort] at dnsPort'
    obtain rfl := Option.some.inj dnsPort'
    have constant : (5400 : Int) = dns := vpn
    rw [dnsValue, show dns = 5400 by omega]
  · intro five
    rw [dnsValue] at five
    obtain rfl := Option.some.inj five
    exact ⟨trans, 5400, transPort, dnsPort, redirects, rfl⟩

end Agreement

/-- The users of Tor's ports agree with the torrc exactly when the DNS port
    preference is set, and to the default DNS port. -/
theorem ports_agree_iff (m : Machine) (settings : Settings) (mTransProxy : Option TorTransProxy)
    (sources : TorrcSources) (extraLines : List Text)
    (transport : ∀ text, settings.prefs.strings "pref_transport".toList = some text → PortPref text)
    (dnsport : ∀ text, settings.prefs.strings "pref_dnsport".toList = some text → PortPref text)
    (written : updateTorConfigFile sources settings.prefs = .ok extraLines) :
    PortsAgree m settings mTransProxy extraLines ↔
      ∃ text, settings.prefs.strings "pref_dnsport".toList = some text ∧
        valuePort text = some 5400 := by
  have transportPref : PortPref settings.transportPref :=
    getString_portPref _ _ transport (.port (.of_check rfl))
  cases pref : settings.prefs.strings "pref_dnsport".toList with
  | none =>
      simp only [reduceCtorEq, false_and, exists_false, iff_false]
      exact not_portsAgree_of_absent m mTransProxy transportPref pref written
  | some text =>
      rw [portsAgree_iff_of_present m mTransProxy transportPref (dnsport text pref) pref written]
      simp only [Option.some.injEq, exists_eq_left']

def exampleSources : TorrcSources where
  tables := CharTables.ascii
  language := "en".toList
  fileControlPort := "/data/data/app/app_bin/control.txt".toList
  isPortOpen _ := false
  mIsLollipop := true
  sSocksProxyLocalhost := none
  sSocksProxyServerPort := -1
  fileObfsclient := "/data/data/app/app_bin/obfs4proxy".toList
  geoIP := none
  recodeLatin1 := id
  bridgesTxt := []
  alBridges := none
  shuffle := id
  shuffle_perm _ := .refl _
  writeDNSFile := none
  hiddenServiceDir _ := none
  hiddenServices := none
  clientCookies := none

theorem ports_agree_iff_default :
    ∃ extraLines, updateTorConfigFile exampleSources exampleSettings.prefs = .ok extraLines ∧
      PortsAgree exampleMachine exampleSettings none extraLines := by
  have port (digits : Text) (number : PortNumber digits) (text : Text)
      (same : some digits = some text) : PortPref text :=
    Option.some.inj same ▸ .port number
  obtain ⟨extraLines, written⟩ := updateTorConfigFile_writes
    (show socksPortValue exampleSources exampleSettings.prefs = .ok "9050".toList by rfl)
  exact ⟨extraLines, written, (ports_agree_iff exampleMachine exampleSettings none exampleSources
    extraLines (port "9040".toList (.of_check rfl))
    (port "5400".toList (.of_check rfl)) written).mpr ⟨_, rfl, rfl⟩⟩

/-- With no preference set at all they disagree. -/
theorem ports_disagree :
    ∃ extraLines, updateTorConfigFile exampleSources (.of [] []) = .ok extraLines ∧
      ¬ PortsAgree exampleMachine { prefs := .of [] [] } none extraLines := by
  obtain ⟨extraLines, written⟩ := updateTorConfigFile_writes
    (show socksPortValue exampleSources (.of [] []) = .ok "9050".toList by rfl)
  have transport : PortPref (Settings.transportPref { prefs := .of [] [] }) :=
    .port (.of_check rfl)
  exact ⟨extraLines, written, not_portsAgree_of_absent exampleMachine none transport rfl written⟩

end Orbot.Service
