import Orbot.Java.Text

/-! # Preferences

The shared preferences are two partial maps; every reader brings its own
default. The accessors are those of the class `Prefs`.
-/

namespace Orbot.Service

open Java (Text)

structure SharedPreferences where
  strings : Text → Option Text
  booleans : Text → Option Bool

namespace SharedPreferences

variable (prefs : SharedPreferences)

def getString (key default : Text) : Text := (prefs.strings key).getD default

def getBoolean (key : Text) (default : Bool) : Bool := (prefs.booleans key).getD default

/-- Preferences with the listed entries. -/
def of (strings : List (Text × Text)) (booleans : List (Text × Bool)) : SharedPreferences where
  strings key := strings.lookup key
  booleans key := booleans.lookup key

/-! ## Editing -/

def putString (key value : Text) : SharedPreferences :=
  { prefs with strings := fun k => if k = key then some value else prefs.strings k }

/-- Removing a string. -/
def remove (key : Text) : SharedPreferences :=
  { prefs with strings := fun k => if k = key then none else prefs.strings k }

def putBoolean (key : Text) (value : Bool) : SharedPreferences :=
  { prefs with booleans := fun k => if k = key then some value else prefs.booleans k }

theorem putString_strings (key value : Text) : (prefs.putString key value).strings key = value := by
  simp [putString]

theorem putString_strings_ne {key k : Text} (value : Text) (other : k ≠ key) :
    (prefs.putString key value).strings k = prefs.strings k := by
  simp [putString, other]

theorem remove_strings (key : Text) : (prefs.remove key).strings key = none := by
  simp [remove]

theorem remove_strings_ne {key k : Text} (other : k ≠ key) :
    (prefs.remove key).strings k = prefs.strings k := by
  simp [remove, other]

/-- The preferences are the same but for one string. -/
structure AgreeBut (key : Text) (prefs prefs' : SharedPreferences) : Prop where
  strings : ∀ k, k ≠ key → prefs'.strings k = prefs.strings k
  booleans : prefs'.booleans = prefs.booleans

namespace AgreeBut

variable {prefs} {prefs' : SharedPreferences} {key : Text} (agree : AgreeBut key prefs prefs')
include agree

theorem getString {k : Text} (other : k ≠ key) (default : Text) :
    prefs'.getString k default = prefs.getString k default := by
  rw [SharedPreferences.getString, agree.strings k other, SharedPreferences.getString]

theorem getBoolean (k : Text) (default : Bool) :
    prefs'.getBoolean k default = prefs.getBoolean k default := by
  rw [SharedPreferences.getBoolean, agree.booleans, SharedPreferences.getBoolean]

end AgreeBut

theorem putString_agree (key value : Text) : AgreeBut key prefs (prefs.putString key value) :=
  ⟨fun _ other => prefs.putString_strings_ne value other, rfl⟩

theorem remove_agree (key : Text) : AgreeBut key prefs (prefs.remove key) :=
  ⟨fun _ other => prefs.remove_strings_ne other, rfl⟩

/-! ## The class `Prefs` -/

/-- In a Farsi locale bridges are enabled by default. -/
def bridgesEnabled (language : Text) : Bool :=
  prefs.getBoolean "pref_bridges_enabled".toList (language = "fa".toList)

def getBridgesList (language : Text) : Text :=
  prefs.getString "pref_bridges_list".toList (if language = "fa".toList then "meek".toList else [])

def useRoot : Bool := prefs.getBoolean "has_root".toList false

def useTransparentProxying : Bool := prefs.getBoolean "pref_transparent".toList false

def transparentProxyAll : Bool := prefs.getBoolean "pref_transparent_all".toList false

def transparentTethering : Bool := prefs.getBoolean "pref_transparent_tethering".toList false

def transProxyNetworkRefresh : Bool := prefs.getBoolean "pref_transproxy_refresh".toList false

def useDebugLogging : Bool := prefs.getBoolean "pref_enable_logging".toList false

def expandedNotifications : Bool := prefs.getBoolean "pref_expanded_notifications".toList true

def useVpn : Bool := prefs.getBoolean "pref_vpn".toList false

end SharedPreferences

end Orbot.Service
