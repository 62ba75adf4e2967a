import Orbot.Service.Ports

/-! # Entry and exclude nodes

`OrbotManager.getValidNodes` looks at the two ends of a list of nodes only. It
puts a brace where one is missing there, and upper-cases the whole.
-/

namespace Orbot.Manager

open Java (Text CharTables)
open Service

/-! ## The code -/

def entranceNodesKey : Text := "pref_entrance_nodes".toList

def excludeNodesKey : Text := "pref_exclude_nodes".toList

/-- The braces of `getValidNodes`. -/
def addBraces (nodes : Text) : Text :=
  let result := if ['{'].isPrefixOf nodes then nodes else '{' :: nodes
  if ['}'].isSuffixOf result then result else result ++ ['}']

def getValidNodes (tables : CharTables) (nodes : Text) : Text :=
  if nodes ≠ [] then tables.toUpperCase (addBraces nodes) else nodes

def setEntryNodes (tables : CharTables) (nodes : Option Text) (prefs : SharedPreferences) :
    SharedPreferences :=
  match nodes with
  | none => prefs
  | some nodes => prefs.putString entranceNodesKey (getValidNodes tables nodes)

def setExcludeNodes (tables : CharTables) (nodes : Option Text) (prefs : SharedPreferences) :
    SharedPreferences :=
  match nodes with
  | none => prefs
  | some nodes => prefs.putString excludeNodesKey (getValidNodes tables nodes)

/-! ## Node lists -/

/-- Two letters, in any case. -/
structure CountryCode where
  first : Char
  second : Char
  first_letter : first.isAlpha = true
  second_letter : second.isAlpha = true
  deriving DecidableEq

def CountryCode.text (code : CountryCode) : Text := [code.first, code.second]

structure NodeEntry where
  code : CountryCode
  braced : Bool
  deriving DecidableEq

def enclose (s : Text) : Text := '{' :: s ++ ['}']

def NodeEntry.text (e : NodeEntry) : Text := if e.braced then enclose e.code.text else e.code.text

/-- A list with at least one entry. -/
structure NodeList where
  first : NodeEntry
  rest : List NodeEntry
  deriving DecidableEq

namespace NodeList

variable (nodes : NodeList)

def entries : List NodeEntry := nodes.first :: nodes.rest

def last : NodeEntry := nodes.rest.getLastD nodes.first

/-- As the user writes it. -/
def text : Text := [','].intercalate (nodes.entries.map NodeEntry.text)

/-- Every entry in its own braces. -/
def enclosed : Text := [','].intercalate (nodes.entries.map fun e => enclose e.code.text)

/-- Every entry upper-cased and in its own braces. -/
def valid : Text :=
  [','].intercalate (nodes.entries.map fun e => enclose (e.code.text.map Char.toUpper))

/-- The list is stored, and written to the torrc, as it should be, and is not
    changed when it is set again. -/
structure Stored (sources : TorrcSources) (prefs : SharedPreferences) : Prop where
  entry : (setEntryNodes sources.tables nodes.text prefs).getString entranceNodesKey [] =
    nodes.valid
  exclude : (setExcludeNodes sources.tables nodes.text prefs).getString excludeNodesKey [] =
    nodes.valid
  entryNodes : "EntryNodes ".toList ++ nodes.valid ∈
    processSettingsImpl sources (setEntryNodes sources.tables nodes.text prefs)
  excludeNodes : "ExcludeNodes ".toList ++ nodes.valid ∈
    processSettingsImpl sources (setExcludeNodes sources.tables nodes.text prefs)
  again : getValidNodes sources.tables (getValidNodes sources.tables nodes.text) =
    getValidNodes sources.tables nodes.text

end NodeList

/-! ## Upper case -/

/-- With a Turkish or Azeri locale the i keeps its dot. -/
def upperCase (turkic : Bool) (c : Char) : Char :=
  if turkic ∧ c = 'i' then 'İ' else c.toUpper

/-- How `String.toUpperCase` treats ASCII, and what it makes of it. -/
def InLocale (tables : CharTables) (turkic : Bool) : Prop :=
  ∀ s : Text, (∀ c ∈ s, c.toNat < 127 ∨ c = 'İ') → tables.toUpperCase s = s.map (upperCase turkic)

theorem inLocale_ascii : InLocale CharTables.ascii false := by
  intro s _
  have same : upperCase false = Char.toUpper := funext fun c => if_neg (by simp)
  rw [same]
  rfl

theorem upperCase_eq_iff (turkic : Bool) (c : Char) :
    upperCase turkic c = c.toUpper ↔ (turkic = true → c ≠ 'i') := by
  unfold upperCase
  split_ifs with dotted
  · obtain ⟨isTurkic, rfl⟩ := dotted
    exact iff_of_false (by decide) fun other => other isTurkic rfl
  · exact iff_of_true rfl fun isTurkic same => dotted ⟨isTurkic, same⟩

/-- Upper-casing ASCII twice is upper-casing it once, and gives what can be
    upper-cased again. -/
theorem upperCase_upperCase {turkic : Bool} {c : Char} (ascii : c.toNat < 127) :
    upperCase turkic (upperCase turkic c) = upperCase turkic c ∧
      ((upperCase turkic c).toNat < 127 ∨ upperCase turkic c = 'İ') := by
  have all : ∀ n < 127, ∀ turkic,
      upperCase turkic (upperCase turkic (Char.ofNat n)) = upperCase turkic (Char.ofNat n) ∧
        ((upperCase turkic (Char.ofNat n)).toNat < 127 ∨
          upperCase turkic (Char.ofNat n) = 'İ') := by
    decide +kernel
  have same := all c.toNat ascii turkic
  rwa [Char.ofNat_toNat] at same

/-! ## Braces -/

theorem letter_ne {c d : Char} (letter : c.isAlpha = true) (other : d.isAlpha = false) : c ≠ d := by
  rintro rfl
  rw [letter] at other
  cases other

section Braces

variable (nodes : NodeList)

/-- The entries that lack their braces. -/
def bare (entries : List NodeEntry) : ℕ := entries.countP (!·.braced)

theorem NodeEntry.enclose_length (e : NodeEntry) :
    (enclose e.code.text).length = e.text.length + 2 * bare [e] := by
  cases braced : e.braced with
  | true => simp [NodeEntry.text, bare, braced]
  | false => simp [NodeEntry.text, bare, braced, enclose, CountryCode.text]

theorem NodeList.enclosed_length :
    nodes.enclosed.length = nodes.text.length + 2 * bare nodes.entries := by
  obtain ⟨first, rest⟩ := nodes
  simp only [NodeList.enclosed, NodeList.text, NodeList.entries]
  induction rest generalizing first with
  | nil => simpa using first.enclose_length
  | cons second rest ih =>
      have counted : bare (first :: second :: rest) = bare [first] + bare (second :: rest) := by
        simp only [bare, ← List.countP_append, List.singleton_append]
      have remaining := ih second
      simp only [List.map_cons, List.intercalate_cons_cons, List.length_append] at remaining ⊢
      rw [first.enclose_length, counted]
      simp only [List.length_singleton] at remaining ⊢
      omega

/-- The list begins with its first entry. -/
theorem NodeList.text_front : ∃ behind, nodes.text = nodes.first.text ++ behind := by
  obtain ⟨first, rest⟩ := nodes
  cases rest with
  | nil => exact ⟨[], by simp [NodeList.text, NodeList.entries]⟩
  | cons second rest =>
      refine ⟨[','] ++ [','].intercalate ((second :: rest).map NodeEntry.text), ?_⟩
      rw [NodeList.text, NodeList.entries, List.map_cons, List.map_cons,
        List.intercalate_cons_cons, List.append_assoc]

/-- The list ends with its last entry. -/
theorem NodeList.text_back :
    ∃ front, nodes.text = front ++ nodes.last.text := by
  obtain ⟨first, rest⟩ := nodes
  simp only [NodeList.text, NodeList.entries, NodeList.last]
  induction rest generalizing first with
  | nil => exact ⟨[], by simp⟩
  | cons second rest ih =>
      obtain ⟨front, same⟩ := ih second
      refine ⟨first.text ++ [','] ++ front, ?_⟩
      rw [List.map_cons] at same
      rw [List.map_cons, List.map_cons, List.intercalate_cons_cons, same, List.getLastD_cons,
        List.append_assoc (first.text ++ [','])]

theorem NodeEntry.opened (e : NodeEntry) (behind : Text) :
    ['{'].isPrefixOf (e.text ++ behind) = e.braced := by
  cases braced : e.braced with
  | true => simp [NodeEntry.text, enclose, braced]
  | false =>
      have other : '{' ≠ e.code.first := (letter_ne e.code.first_letter (by decide)).symm
      simp [NodeEntry.text, CountryCode.text, List.isPrefixOf, braced, other]

theorem NodeEntry.closed (e : NodeEntry) (front : Text) :
    ['}'].isSuffixOf (front ++ e.text) = e.braced := by
  rw [List.isSuffixOf, List.reverse_append]
  cases braced : e.braced with
  | true => simp [NodeEntry.text, enclose, braced]
  | false =>
      have other : '}' ≠ e.code.second := (letter_ne e.code.second_letter (by decide)).symm
      simp [NodeEntry.text, CountryCode.text, List.isPrefixOf, braced, other]

/-- With the braces added there is one at either end. -/
theorem exists_addBraces_eq (s : Text) : ∃ inner, addBraces s = enclose inner := by
  obtain ⟨t, opening⟩ : ∃ t, (if ['{'].isPrefixOf s then s else '{' :: s) = '{' :: t := by
    split_ifs with opened
    · obtain ⟨t, rfl⟩ := List.isPrefixOf_iff_prefix.mp opened
      exact ⟨t, rfl⟩
    · exact ⟨s, rfl⟩
  rw [addBraces, opening]
  split_ifs with closed
  · rcases List.suffix_cons_iff.mp (List.isSuffixOf_iff_suffix.mp closed) with same | ⟨inner, rfl⟩
    · cases same
    · exact ⟨inner, rfl⟩
  · exact ⟨t, rfl⟩

theorem addBraces_enclose (s : Text) : addBraces (enclose s) = enclose s := by
  have opened : ['{'].isPrefixOf (enclose s) = true := by simp [enclose]
  have closed : ['}'].isSuffixOf (enclose s) = true := by
    rw [List.isSuffixOf]
    simp [enclose]
  rw [addBraces, if_pos opened, if_pos closed]

/-- A brace where it is missing at an end of the list. -/
theorem NodeList.addBraces_text :
    addBraces nodes.text =
      (if nodes.first.braced then [] else ['{']) ++ nodes.text ++
        (if nodes.last.braced then [] else ['}']) := by
  obtain ⟨behind, opening⟩ := nodes.text_front
  obtain ⟨front, closing⟩ := nodes.text_back
  have opened : ['{'].isPrefixOf nodes.text = nodes.first.braced := by
    rw [opening, NodeEntry.opened]
  have closed (before : Text) : ['}'].isSuffixOf (before ++ nodes.text) =
      nodes.last.braced := by
    rw [closing, ← List.append_assoc, NodeEntry.closed]
  have result : (if ['{'].isPrefixOf nodes.text then nodes.text else '{' :: nodes.text) =
      (if nodes.first.braced then [] else ['{']) ++ nodes.text := by
    rw [opened]
    split_ifs <;> rfl
  rw [addBraces, result, closed]
  split_ifs <;> simp

/-- Two braces are missing for each bare entry, and one is added at each bare end. -/
theorem NodeList.braced_of_length
    (lengths : (addBraces nodes.text).length = nodes.enclosed.length) :
    nodes.rest = [] ∨ ∀ e ∈ nodes.entries, e.braced = true := by
  by_cases single : nodes.rest = []
  · exact .inl single
  · refine .inr ?_
    rw [addBraces_text, enclosed_length] at lengths
    have counted : bare nodes.entries = (if nodes.first.braced then 0 else 1) + bare nodes.rest := by
      rw [entries, bare, List.countP_cons, Nat.add_comm]
      cases nodes.first.braced <;> rfl
    have last : (if nodes.last.braced then 0 else 1) ≤ bare nodes.rest := by
      have inside : nodes.last ∈ nodes.rest := by
        obtain ⟨second, rest, cons⟩ := List.exists_cons_of_ne_nil single
        rw [NodeList.last, cons, List.getLastD_cons]
        exact List.getLastD_mem_cons
      split_ifs with braced
      · exact Nat.zero_le _
      · exact List.countP_pos_iff.mpr ⟨_, inside, by simpa using braced⟩
    have none : bare nodes.entries = 0 := by
      simp only [List.length_append, apply_ite List.length, List.length_nil,
        List.length_singleton] at lengths
      omega
    simpa [bare] using List.countP_eq_zero.mp none

theorem NodeList.addBraces_eq
    (condition : nodes.rest = [] ∨ ∀ e ∈ nodes.entries, e.braced = true) :
    addBraces nodes.text = nodes.enclosed := by
  rw [addBraces_text]
  rcases condition with single | braced
  · obtain ⟨first, rest⟩ := nodes
    obtain rfl : rest = [] := single
    cases braced : first.braced with
    | true => simp [text, enclosed, entries, NodeList.last, NodeEntry.text, enclose, braced]
    | false => simp [text, enclosed, entries, NodeList.last, NodeEntry.text, enclose, braced]
  · have first := braced nodes.first (List.mem_cons_self ..)
    have last := braced nodes.last List.getLastD_mem_cons
    have same : nodes.text = nodes.enclosed := by
      rw [text, enclosed]
      congr 1
      exact List.map_congr_left fun e member => if_pos (braced e member)
    rw [if_pos first, if_pos last, List.nil_append, List.append_nil, same]

end Braces

/-! ## Letters -/

section Letters

theorem map_intercalate (f : Char → Char) (sep : Text) (texts : List Text) :
    (sep.intercalate texts).map f = (sep.map f).intercalate (texts.map (List.map f)) := by
  induction texts with
  | nil => rfl
  | cons s texts ih =>
      cases texts with
      | nil => simp
      | cons t texts =>
          rw [List.intercalate_cons_cons, List.map_append, List.map_append, ih]
          simp only [List.map_cons, List.intercalate_cons_cons]

theorem mem_intercalate {c : Char} {sep : Text} {texts : List Text}
    (member : c ∈ sep.intercalate texts) : c ∈ sep ∨ ∃ s ∈ texts, c ∈ s := by
  induction texts with
  | nil => cases member
  | cons s texts ih =>
      cases texts with
      | nil => exact .inr ⟨s, by simp, by simpa using member⟩
      | cons t texts =>
          rw [List.intercalate_cons_cons, List.mem_append, List.mem_append] at member
          rcases member with (inFirst | inSep) | later
          · exact .inr ⟨s, by simp, inFirst⟩
          · exact .inl inSep
          · rcases ih later with inSep | ⟨u, inRest, inside⟩
            · exact .inl inSep
            · exact .inr ⟨u, by simp [List.mem_cons.mp inRest], inside⟩

theorem mem_intercalate_of_mem {c : Char} {sep s : Text} {texts : List Text} (member : s ∈ texts)
    (inside : c ∈ s) : c ∈ sep.intercalate texts := by
  induction texts with
  | nil => cases member
  | cons t texts ih =>
      cases texts with
      | nil =>
          obtain rfl : s = t := by simpa using member
          simpa using inside
      | cons u texts =>
          rw [List.intercalate_cons_cons, List.mem_append, List.mem_append]
          rcases List.mem_cons.mp member with rfl | later
          · exact .inl (.inl inside)
          · exact .inr (ih later)

variable (nodes : NodeList)

theorem NodeList.valid_eq : nodes.valid = nodes.enclosed.map Char.toUpper := by
  have braces : ∀ e : NodeEntry,
      enclose (e.code.text.map Char.toUpper) = (enclose e.code.text).map Char.toUpper := by
    intro e
    simp only [enclose, List.map_append, List.map_cons, List.map_nil]
    rfl
  simp only [valid, enclosed, map_intercalate, List.map_map, Function.comp_def, braces]
  rfl

theorem letter_ascii {c : Char} (letter : c.isAlpha = true) : c.toNat < 127 := by
  have kind : (c.isUpper || c.isLower) = true := letter
  rcases Bool.or_eq_true_iff.mp kind with isUpper | isLower
  · have range : c.val ≥ 'A'.val ∧ c.val ≤ 'Z'.val := of_decide_eq_true isUpper
    have upper : 'Z'.toNat < 127 := by decide
    exact Nat.lt_of_le_of_lt range.2 upper
  · have range : (decide (c.val ≥ 'a'.val) && decide (c.val ≤ 'z'.val)) = true := isLower
    have lower : 'z'.toNat < 127 := by decide
    exact Nat.lt_of_le_of_lt (of_decide_eq_true (Bool.and_eq_true_iff.mp range).2) lower

theorem CountryCode.text_ascii (code : CountryCode) : ∀ c ∈ code.text, c.toNat < 127 := by
  simp only [CountryCode.text, List.forall_mem_cons]
  exact ⟨letter_ascii code.first_letter, letter_ascii code.second_letter, List.forall_mem_nil _⟩

theorem enclose_ascii {s : Text} (ascii : ∀ c ∈ s, c.toNat < 127) :
    ∀ c ∈ enclose s, c.toNat < 127 := by
  simp only [enclose, List.forall_mem_cons, List.forall_mem_append, List.cons_append]
  exact ⟨by decide, ascii, by decide, List.forall_mem_nil _⟩

theorem NodeList.addBraces_ascii : ∀ c ∈ addBraces nodes.text, c.toNat < 127 := by
  have entry (e : NodeEntry) : ∀ c ∈ e.text, c.toNat < 127 := by
    unfold NodeEntry.text
    split_ifs
    · exact enclose_ascii e.code.text_ascii
    · exact e.code.text_ascii
  have text : ∀ c ∈ nodes.text, c.toNat < 127 := by
    intro c member
    rcases mem_intercalate member with comma | ⟨s, listed, inside⟩
    · rw [List.mem_singleton.mp comma]
      decide
    · obtain ⟨e, -, rfl⟩ := List.mem_map.mp listed
      exact entry e c inside
  rw [addBraces_text]
  simp only [List.forall_mem_append]
  refine ⟨⟨?_, text⟩, ?_⟩
  · split_ifs <;> simp
  · split_ifs <;> simp

end Letters

/-! ## What is stored -/

section Stored

variable {tables : CharTables} {turkic : Bool} (locale : InLocale tables turkic) (nodes : NodeList)
include locale

theorem getValidNodes_text :
    getValidNodes tables nodes.text = (addBraces nodes.text).map (upperCase turkic) := by
  have some : nodes.text ≠ [] := by
    obtain ⟨behind, opening⟩ := nodes.text_front
    rw [opening, NodeEntry.text]
    split_ifs <;> simp [enclose, CountryCode.text]
  rw [getValidNodes, if_pos some]
  exact locale _ fun c member => .inl (nodes.addBraces_ascii c member)

/-- The list is the valid one exactly if it has all its braces, and no i that
    keeps its dot. -/
theorem getValidNodes_eq_iff :
    getValidNodes tables nodes.text = nodes.valid ↔
      (nodes.rest = [] ∨ ∀ e ∈ nodes.entries, e.braced = true) ∧
        (turkic = true → ∀ e ∈ nodes.entries, 'i' ∉ e.code.text) := by
  rw [getValidNodes_text locale, nodes.valid_eq]
  constructor
  · intro same
    have lengths := congrArg List.length same
    rw [List.length_map, List.length_map] at lengths
    have condition := nodes.braced_of_length lengths
    refine ⟨condition, fun dotted e member dot => ?_⟩
    rw [nodes.addBraces_eq condition, List.map_inj_left] at same
    have inside : 'i' ∈ nodes.enclosed :=
      mem_intercalate_of_mem (List.mem_map_of_mem member) (by simp [enclose, dot])
    exact (upperCase_eq_iff turkic 'i').mp (same 'i' inside) dotted rfl
  · rintro ⟨condition, dots⟩
    rw [nodes.addBraces_eq condition, List.map_inj_left]
    intro c member
    rw [upperCase_eq_iff]
    rintro dotted rfl
    rcases mem_intercalate member with comma | ⟨s, listed, inside⟩
    · exact absurd comma (by decide)
    · obtain ⟨e, isEntry, rfl⟩ := List.mem_map.mp listed
      have letter : 'i' ∈ e.code.text := by simpa [enclose] using inside
      exact dots dotted e isEntry letter

/-- Both ends have a brace now. -/
theorem getValidNodes_again :
    getValidNodes tables (getValidNodes tables nodes.text) = getValidNodes tables nodes.text := by
  have ascii := nodes.addBraces_ascii
  rw [getValidNodes_text locale]
  obtain ⟨inner, ends⟩ := exists_addBraces_eq nodes.text
  have kept : addBraces ((addBraces nodes.text).map (upperCase turkic)) =
      (addBraces nodes.text).map (upperCase turkic) := by
    have upper : (enclose inner).map (upperCase turkic) =
        enclose (inner.map (upperCase turkic)) := by
      cases turkic <;> simp [enclose, upperCase]
    rw [ends, upper, addBraces_enclose]
  have some : (addBraces nodes.text).map (upperCase turkic) ≠ [] := by
    rw [ends]
    exact List.cons_ne_nil _ _
  rw [getValidNodes, if_pos some, kept, locale, List.map_map]
  · exact List.map_congr_left fun c member => (upperCase_upperCase (ascii c member)).1
  · intro c member
    obtain ⟨d, inside, rfl⟩ := List.mem_map.mp member
    exact (upperCase_upperCase (ascii d inside)).2

end Stored

section Written

variable (sources : TorrcSources) (prefs : SharedPreferences) {value : Text}

theorem nodeEntries_eq (name : OptionName) {key : Text} (some : value ≠ [])
    (stored : prefs.getString key [] = value) :
    nodeEntries name key prefs = [.string name value] := by
  rw [nodeEntries, stored]
  cases value with
  | nil => exact absurd rfl some
  | cons c rest => rfl

/-- The line of a node list. -/
theorem node_written {name : OptionName} (written : .string name value ∈ nodeLines prefs) :
    name.text ++ ' ' :: value ∈ processSettingsImpl sources prefs := by
  have line := List.mem_append_left (serviceLines sources prefs)
    (List.mem_append_right (routeLines sources prefs) written)
  exact TorrcLine.text_string name value ▸ List.mem_map_of_mem line

theorem entryNodes_written (some : value ≠ [])
    (stored : prefs.getString entranceNodesKey [] = value) :
    "EntryNodes ".toList ++ value ∈ processSettingsImpl sources prefs := by
  refine @node_written sources prefs value .entryNodes ?_
  apply List.mem_append_left
  apply List.mem_append_left
  apply List.mem_append_left
  exact nodeEntries_eq prefs .entryNodes some stored ▸ List.mem_singleton_self _

theorem excludeNodes_written (some : value ≠ [])
    (stored : prefs.getString excludeNodesKey [] = value) :
    "ExcludeNodes ".toList ++ value ∈ processSettingsImpl sources prefs := by
  refine @node_written sources prefs value .excludeNodes ?_
  apply List.mem_append_left
  apply List.mem_append_right
  exact nodeEntries_eq prefs .excludeNodes some stored ▸ List.mem_singleton_self _

end Written

/-- A list is stored and written as it should be exactly if all its entries have
    their braces, or it has one entry only, and if no letter of it is upper-cased
    into another alphabet. -/
theorem nodes_stored_iff {turkic : Bool} (sources : TorrcSources)
    (locale : InLocale sources.tables turkic) (prefs : SharedPreferences) (nodes : NodeList) :
    nodes.Stored sources prefs ↔
      (nodes.rest = [] ∨ ∀ e ∈ nodes.entries, e.braced = true) ∧
        (turkic = true → ∀ e ∈ nodes.entries, 'i' ∉ e.code.text) := by
  have got (key value : Text) : (prefs.putString key value).getString key [] = value := by
    rw [SharedPreferences.getString, SharedPreferences.putString_strings, Option.getD_some]
  have some : nodes.valid ≠ [] := by
    simp only [NodeList.valid, NodeList.entries, List.map_cons, enclose, List.cons_append,
      List.intercalate_cons_cons_left]
    exact List.cons_ne_nil _ _
  rw [← getValidNodes_eq_iff locale]
  constructor
  · intro stored
    exact (got _ _).symm.trans stored.entry
  · intro valid
    constructor
    case entry => exact (got _ _).trans valid
    case exclude => exact (got _ _).trans valid
    case entryNodes => exact entryNodes_written sources _ some ((got _ _).trans valid)
    case excludeNodes => exact excludeNodes_written sources _ some ((got _ _).trans valid)
    case again => exact getValidNodes_again locale nodes

def us : CountryCode := ⟨'u', 's', by decide, by decide⟩

def de : CountryCode := ⟨'D', 'e', by decide, by decide⟩

theorem nodes_stored_iff_braced :
    NodeList.Stored ⟨⟨us, true⟩, [⟨de, true⟩]⟩ exampleSources (.of [] []) := by
  have condition : ∀ e ∈ [NodeEntry.mk us true, ⟨de, true⟩], e.braced = true := by decide
  exact (nodes_stored_iff exampleSources inLocale_ascii (.of [] []) _).mpr
    ⟨.inr condition, nofun⟩

/-- Two bare codes end up in one pair of braces. -/
theorem nodes_in_one_pair :
    let nodes : NodeList := ⟨⟨us, false⟩, [⟨de, false⟩]⟩
    nodes.text = "us,De".toList ∧
      getValidNodes CharTables.ascii nodes.text = "{US,DE}".toList ∧
      nodes.valid = "{US},{DE}".toList ∧ ¬ nodes.Stored exampleSources (.of [] []) := by
  intro nodes
  refine ⟨by decide +kernel, by decide +kernel, by decide +kernel, fun stored => ?_⟩
  have entry := stored.entry
  have different : getValidNodes CharTables.ascii nodes.text ≠ nodes.valid := by decide +kernel
  exact different entry

end Orbot.Manager
