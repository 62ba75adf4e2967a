import Mathlib.Algebra.GroupWithZero.Nat
import Orbot.Service.Ports

/-! # Which strings stand where in the torrc

The strings in the argument of a line are used as they are. A line feed in one of
them ends the line early, and the rest of the string is read as further options.
-/

namespace Orbot.Service

open Java (Text)
open TransProxy

/-- The lines of the torrc but for the custom ones. -/
def layout (sources : TorrcSources) (prefs : SharedPreferences) : List TorrcLine :=
  headerLines sources prefs ((socksPortValue sources prefs).toOption.getD []) ++
    settingsLines sources prefs

theorem updateTorConfigFile_layout {sources : TorrcSources} {prefs : SharedPreferences}
    {extraLines : List Text} (written : updateTorConfigFile sources prefs = .ok extraLines) :
    extraLines = (layout sources prefs).map TorrcLine.text ++ [customTorrc prefs] := by
  obtain ⟨socksPortPref, socks, rfl⟩ := updateTorConfigFile_eq.mp written
  rw [layout, socks, List.map_append, processSettingsImpl]
  rfl

/-! ## Plain lines -/

def lower (s : Text) : Text := s.map Char.toLower

/-- The types of outbound proxies there are options for. -/
def proxyTypes : List Text :=
  ["http".toList, "https".toList, "socks4".toList, "socks5".toList]

namespace Keyword

/-- What a line may open with: its option, or one for the outbound proxies, in any
    case of the letters. -/
def Names : Keyword → Text → Prop
  | own name, k => k = name.text
  | proxy _, k => ∃ proxyType ∈ proxyTypes, lower k = proxyType ++ "proxy".toList
  | proxyAuthenticator _, k =>
      ∃ proxyType ∈ proxyTypes, lower k = proxyType ++ "proxyauthenticator".toList

/-- There is a proxy of this type. -/
def Known : Keyword → Prop
  | own _ => True
  | proxy proxyType | proxyAuthenticator proxyType => lower proxyType ∈ proxyTypes

instance : DecidablePred Known
  | own _ => inferInstanceAs (Decidable True)
  | proxy proxyType | proxyAuthenticator proxyType =>
      inferInstanceAs (Decidable (lower proxyType ∈ proxyTypes))

theorem lower_append_iff {proxyType suffix suffix' : Text} (same : lower suffix = suffix') :
    (∃ known ∈ proxyTypes, lower (proxyType ++ suffix) = known ++ suffix') ↔
      lower proxyType ∈ proxyTypes := by
  have split : lower (proxyType ++ suffix) = lower proxyType ++ suffix' := by
    rw [lower, List.map_append, ← lower, ← lower, same]
  simp only [split, List.append_cancel_right_eq, exists_eq_right']

theorem names_text_iff (keyword : Keyword) : keyword.Names keyword.text ↔ keyword.Known := by
  cases keyword with
  | own name => exact iff_of_true rfl trivial
  | proxy proxyType => exact lower_append_iff (by decide)
  | proxyAuthenticator proxyType => exact lower_append_iff (by decide)

/-- Lowering keeps the characters that separate words and lines. -/
theorem not_mem_of_lower {proxyType : Text} (known : lower proxyType ∈ proxyTypes) :
    '\n' ∉ proxyType ∧ ' ' ∉ proxyType := by
  have plain : ∀ known ∈ proxyTypes, '\n' ∉ known ∧ ' ' ∉ known := by decide
  obtain ⟨lineFeed, blank⟩ := plain _ known
  exact ⟨fun inside => lineFeed (List.mem_map.mpr ⟨'\n', inside, by decide⟩),
    fun inside => blank (List.mem_map.mpr ⟨' ', inside, by decide⟩)⟩

theorem Known.noLineFeed {keyword : Keyword} (known : keyword.Known) : '\n' ∉ keyword.text := by
  cases keyword with
  | own name => exact name.noLineFeed
  | proxy proxyType | proxyAuthenticator proxyType =>
      exact List.not_mem_append (not_mem_of_lower known).1 (by decide)

theorem Known.noBlank {keyword : Keyword} (known : keyword.Known) : ' ' ∉ keyword.text := by
  cases keyword with
  | own name => exact name.noBlank
  | proxy proxyType | proxyAuthenticator proxyType =>
      exact List.not_mem_append (not_mem_of_lower known).2 (by decide)

end Keyword

theorem number_noLineFeed (n : Int) : '\n' ∉ number n := by
  have digits (m : Nat) : '\n' ∉ number m :=
    fun member => absurd (number_isDigit m _ member) (by decide)
  cases n with
  | ofNat m => exact digits m
  | negSucc m =>
      change '\n' ∉ ("-" ++ (m + 1).repr).toList
      rw [String.toList_append, List.mem_append, not_or]
      exact ⟨by decide, digits (m + 1)⟩

theorem Piece.noLineFeed_iff (piece : Piece) :
    '\n' ∉ piece.text ↔ ∀ s ∈ piece.strings, '\n' ∉ s := by
  cases piece with
  | constant s oneLine => exact iff_of_true oneLine (List.forall_mem_nil _)
  | integer n => exact iff_of_true (number_noLineFeed n) (List.forall_mem_nil _)
  | string s => exact (List.forall_mem_singleton (p := ('\n' ∉ ·))).symm

namespace TorrcLine

/-- The keyword is known, and no string in the argument has a line feed. -/
structure Plain (line : TorrcLine) : Prop where
  known : line.keyword.Known
  strings : ∀ s ∈ line.strings, '\n' ∉ s

instance (line : TorrcLine) : Decidable line.Plain :=
  decidable_of_iff (line.keyword.Known ∧ ∀ s ∈ line.strings, '\n' ∉ s)
    ⟨fun ⟨known, strings⟩ => ⟨known, strings⟩, fun ⟨known, strings⟩ => ⟨known, strings⟩⟩

variable {line : TorrcLine}

theorem argumentText_noLineFeed_iff :
    '\n' ∉ line.argumentText ↔ ∀ s ∈ line.strings, '\n' ∉ s := by
  rw [argumentText, strings, List.mem_flatMap, List.forall_mem_flatMap]
  simp only [not_exists, not_and]
  exact forall₂_congr fun piece _ => piece.noLineFeed_iff

theorem Plain.noLineFeed (plain : line.Plain) : '\n' ∉ line.text := by
  rw [text, List.mem_append, List.mem_cons, not_or, not_or]
  exact ⟨plain.known.noLineFeed, by decide, argumentText_noLineFeed_iff.mpr plain.strings⟩

end TorrcLine

/-! ## The text -/

/-- The lines of the text are those of its entries, and an empty one behind the
    last line feed. -/
theorem torrcText_splitOn (entries : List Text) :
    (torrcText entries).splitOn '\n' = entries.flatMap (·.splitOn '\n') ++ [[]] := by
  induction entries with
  | nil => rfl
  | cons entry entries ih =>
      have text : torrcText (entry :: entries) = entry ++ '\n' :: torrcText entries := by
        simp [torrcText]
      rw [text, List.splitOn_append_cons_self, ih, List.flatMap_cons, List.append_assoc]

theorem flatMap_splitOn_of_forall {entries : List Text} (apart : ∀ e ∈ entries, '\n' ∉ e) :
    entries.flatMap (·.splitOn '\n') = entries := by
  induction entries with
  | nil => rfl
  | cons entry entries ih =>
      obtain ⟨first, others⟩ := List.forall_mem_cons.mp apart
      rw [List.flatMap_cons, Java.splitOn_of_not_mem first, ih others, List.singleton_append]

/-- No more lines than entries means that no entry has a line feed. -/
theorem forall_of_flatMap_splitOn_length {entries : List Text}
    (few : (entries.flatMap (·.splitOn '\n')).length ≤ entries.length) :
    ∀ e ∈ entries, '\n' ∉ e := by
  have total (entries : List Text) : (entries.flatMap (·.splitOn '\n')).length =
      entries.length + (entries.map (·.count '\n')).sum := by
    induction entries with
    | nil => rfl
    | cons entry entries ih =>
        rw [List.flatMap_cons, List.length_append, ih, Java.splitOn_length, List.map_cons,
          List.sum_cons, List.length_cons]
        omega
  rw [total] at few
  have zero : (entries.map (·.count '\n')).sum = 0 := by omega
  intro e member
  rw [← List.count_eq_zero]
  exact List.sum_eq_zero_iff_forall_eq_nat.mp zero _ (List.mem_map_of_mem member)

/-- Plain lines stay lines of the text. -/
theorem flatMap_splitOn_of_plain {lines : List TorrcLine} (plain : ∀ line ∈ lines, line.Plain) :
    (lines.map TorrcLine.text).flatMap (·.splitOn '\n') = lines.map TorrcLine.text :=
  flatMap_splitOn_of_forall (List.forall_mem_map.mpr fun line member =>
    (plain line member).noLineFeed)

/-! ## Smuggled options -/

/-- Each line of the text opens with a keyword the methods write for this line,
    and goes on with the argument. Behind them there are only the empty custom
    line and the end. -/
def OnlyArguments (sources : TorrcSources) (prefs : SharedPreferences) (extraLines : List Text) :
    Prop :=
  ∃ lines, (torrcText extraLines).splitOn '\n' = lines ++ [[], []] ∧
    List.Forall₂ (fun line text =>
        ∃ k, line.keyword.Names k ∧ text = k ++ ' ' :: line.argumentText)
      (layout sources prefs) lines

/-- No string that is written has a line feed, and the outbound proxy, if there is
    one, is of a type there is. -/
def PlainStrings (sources : TorrcSources) (prefs : SharedPreferences) : Prop :=
  ∀ line ∈ layout sources prefs, line.Plain

section Lines

variable {sources : TorrcSources} {prefs : SharedPreferences} {extraLines : List Text}
  (noCustom : prefs.getString "pref_custom_torrc".toList [] = [])
  (written : updateTorConfigFile sources prefs = .ok extraLines)
include noCustom written

theorem text_of_updateTorConfigFile : (torrcText extraLines).splitOn '\n' =
    ((layout sources prefs).map TorrcLine.text).flatMap (·.splitOn '\n') ++ [[], []] := by
  rw [updateTorConfigFile_layout written, torrcText_splitOn, List.flatMap_append, customTorrc,
    noCustom, List.append_assoc]
  rfl

theorem plainStrings_of_onlyArguments (only : OnlyArguments sources prefs extraLines) :
    PlainStrings sources prefs := by
  obtain ⟨lines, same, opens⟩ := only
  have split := List.append_cancel_right
    ((text_of_updateTorConfigFile noCustom written).symm.trans same)
  have apart := forall_of_flatMap_splitOn_length (le_of_eq <| by
    rw [split, ← opens.length_eq, List.length_map])
  rw [flatMap_splitOn_of_forall apart] at split
  rw [← split, List.forall₂_map_right_iff, List.forall₂_same] at opens
  intro line member
  obtain ⟨k, names, text⟩ := opens line member
  obtain rfl : line.keyword.text = k := List.append_cancel_right text
  have noLineFeed := List.forall_mem_map.mp apart line member
  rw [TorrcLine.text, List.mem_append, List.mem_cons, not_or, not_or] at noLineFeed
  exact ⟨line.keyword.names_text_iff.mp names,
    TorrcLine.argumentText_noLineFeed_iff.mp noLineFeed.2.2⟩

theorem onlyArguments_of_plainStrings (plain : PlainStrings sources prefs) :
    OnlyArguments sources prefs extraLines := by
  refine ⟨(layout sources prefs).map TorrcLine.text, ?_, ?_⟩
  · rw [text_of_updateTorConfigFile noCustom written, flatMap_splitOn_of_plain plain]
  · rw [List.forall₂_map_right_iff, List.forall₂_same]
    intro line member
    exact ⟨_, line.keyword.names_text_iff.mpr (plain line member).known, rfl⟩

end Lines

/-- The preferences reach nothing but the arguments of their own lines exactly if
    no string written has a line feed and the proxy is of a type there is. -/
theorem only_arguments_iff (sources : TorrcSources) (prefs : SharedPreferences)
    (extraLines : List Text) (noCustom : prefs.getString "pref_custom_torrc".toList [] = [])
    (written : updateTorConfigFile sources prefs = .ok extraLines) :
    OnlyArguments sources prefs extraLines ↔ PlainStrings sources prefs :=
  ⟨plainStrings_of_onlyArguments noCustom written, onlyArguments_of_plainStrings noCustom written⟩

/-- Exit nodes and a proxy. -/
def socksProxyPrefs : SharedPreferences :=
  .of
    [("pref_exit_nodes".toList, "{us}".toList), ("pref_proxy_type".toList, "socks5".toList),
      ("pref_proxy_host".toList, "127.0.0.1".toList), ("pref_proxy_port".toList, "1080".toList)] []

theorem only_arguments_iff_proxy :
    ∃ prefs extraLines, updateTorConfigFile exampleSources prefs = .ok extraLines ∧
      OnlyArguments exampleSources prefs extraLines ∧
      outboundProxy prefs =
        some ("socks5".toList, "127.0.0.1".toList, "1080".toList) := by
  obtain ⟨extraLines, written⟩ := updateTorConfigFile_writes
    (show socksPortValue exampleSources socksProxyPrefs = .ok "9050".toList by rfl)
  have plain : PlainStrings exampleSources socksProxyPrefs := by
    unfold PlainStrings
    decide +kernel
  exact ⟨socksProxyPrefs, extraLines, written, (only_arguments_iff exampleSources socksProxyPrefs
    extraLines rfl written).mpr plain, rfl⟩

theorem nodeLines_subset_layout (sources : TorrcSources) (prefs : SharedPreferences) :
    nodeLines prefs ⊆ layout sources prefs := by
  intro line member
  apply List.mem_append_right
  apply List.mem_append_left
  exact List.mem_append_right _ member

def smugglingPrefs : SharedPreferences :=
  .of [("pref_exclude_nodes".toList, "{us}\nExitNodes {ru}".toList)] []

/-- A line feed among the excluded nodes adds an option. -/
theorem exclude_nodes_smuggle :
    ¬ ∀ sources prefs extraLines, prefs.getString "pref_custom_torrc".toList [] = [] →
      updateTorConfigFile sources prefs = .ok extraLines →
      OnlyArguments sources prefs extraLines := by
  intro always
  obtain ⟨extraLines, written⟩ := updateTorConfigFile_writes
    (show socksPortValue exampleSources smugglingPrefs = .ok "9050".toList by rfl)
  have plain := plainStrings_of_onlyArguments rfl written (always _ _ _ rfl written)
  have line : .string .excludeNodes "{us}\nExitNodes {ru}".toList ∈
      layout exampleSources smugglingPrefs := by
    apply nodeLines_subset_layout
    decide +kernel
  exact absurd ((plain _ line).strings _ (List.mem_singleton_self _)) (by decide)

end Orbot.Service
