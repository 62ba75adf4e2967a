import Orbot.Lib.LastMatch
import Orbot.Service.TorEventHandler

/-! # The table of built circuits

With expanded notifications `circuitStatus` puts the last hop of a built circuit
into `hmBuiltNodes` and removes a closed one. A hop has a fingerprint, and
perhaps a nickname behind an equals sign or a tilde.
-/

namespace Orbot.Service

open Java (Text)
open Lib.LastMatch

/-! ## Paths -/

/-- A fingerprint or a nickname. -/
abbrev NodePart := { s : Text // s ≠ [] ∧ ',' ∉ s ∧ '=' ∉ s ∧ '~' ∉ s }

inductive Hop where
  | equals (fp nick : NodePart)
  | tilde (fp nick : NodePart)
  | bare (fp : NodePart)
  deriving DecidableEq

namespace Hop

def text : Hop → Text
  | equals fp nick => '$' :: fp.val ++ '=' :: nick.val
  | tilde fp nick => '$' :: fp.val ++ '~' :: nick.val
  | bare fp => '$' :: fp.val

def fingerprint : Hop → Text
  | equals fp _ | tilde fp _ | bare fp => fp.val

/-- The nickname, or the fingerprint where there is none. -/
def name : Hop → Text
  | equals _ nick | tilde _ nick => nick.val
  | bare fp => fp.val

/-- The node of a hop. -/
def node (status : Text) (hop : Hop) : Node := ⟨status, some hop.fingerprint, some hop.name⟩

theorem text_ne_nil (hop : Hop) : hop.text ≠ [] := by
  cases hop <;> simp [text]

theorem text_noComma (hop : Hop) : ',' ∉ hop.text := by
  cases hop with
  | equals fp nick | tilde fp nick =>
      simp [text, fp.property.2.1, nick.property.2.1]
  | bare fp => simp [text, fp.property.2.1]

end Hop

/-- A call of `circuitStatus`; a built circuit has a path. -/
structure CircuitChange where
  status : Text
  circID : Text
  path : List Hop
  builtPath : status = built → path ≠ []

def CircuitChange.pathText (change : CircuitChange) : Text :=
  [','].intercalate (change.path.map Hop.text)

/-- The handler after these calls. -/
def circuitStatuses (prefs : SharedPreferences) (h : TorEventHandler)
    (changes : List CircuitChange) : TorEventHandler :=
  changes.foldl (fun h change => (circuitStatus prefs h change.status change.circID
    change.pathText).1) h

/-! ## Taking a path apart -/

theorem hopNode_text (status : Text) (hop : Hop) :
    hopNode status hop.text = .ok (hop.node status) := by
  cases hop with
  | equals fp nick =>
      have noEquals : '=' ∉ '$' :: fp.val := by simpa using fp.property.2.2.1
      have parts := Java.split_pair noEquals nick.property.2.2.1 nick.property.1
      have inside : '=' ∈ '$' :: fp.val ++ '=' :: nick.val := by simp
      rw [hopNode, Hop.text, if_pos inside, parts]
      simp only [Java.substringFrom_one_cons, bind, Except.bind]
      rfl
  | tilde fp nick =>
      have noTilde : '~' ∉ '$' :: fp.val := by simpa using fp.property.2.2.2
      have parts := Java.split_pair noTilde nick.property.2.2.2 nick.property.1
      have outside : '=' ∉ '$' :: fp.val ++ '~' :: nick.val := by
        simp [fp.property.2.2.1, nick.property.2.2.1]
      rw [hopNode, Hop.text, if_neg outside, parts]
      simp only [Java.substringFrom_one_cons, bind, Except.bind]
      rfl
  | bare fp =>
      have outside : '=' ∉ '$' :: fp.val := by simpa using fp.property.2.2.1
      have noTilde : '~' ∉ '$' :: fp.val := by simpa using fp.property.2.2.2
      rw [hopNode, Hop.text, if_neg outside, Java.split, if_neg noTilde]
      simp only [Java.substringFrom_one_cons, bind, Except.bind]
      rfl

/-- The node that is left is that of the last hop. -/
theorem walkPath_hops (status : Text) (hops : List Hop) (node : Option Node) :
    ∃ names, walkPath status (hops.map Hop.text) node =
      .ok (names, (hops.getLast?.map (Hop.node status)).or node) := by
  induction hops generalizing node with
  | nil => exact ⟨[], rfl⟩
  | cons hop hops ih =>
      obtain ⟨names, walked⟩ := ih (some (hop.node status))
      rw [List.map_cons, walkPath, hopNode_text]
      simp only [bind, Except.bind, walked, pure, Except.pure]
      cases hops with
      | nil => exact ⟨_, rfl⟩
      | cons next hops =>
          have last : (hop :: next :: hops).getLast? = (next :: hops).getLast? :=
            List.getLast?_cons_cons
          rw [last, List.getLast?_cons]
          exact ⟨_, rfl⟩

theorem tokens_pathText (change : CircuitChange) :
    Java.tokens change.pathText ',' = change.path.map Hop.text := by
  have noComma : ∀ text ∈ change.path.map Hop.text, ',' ∉ text := by
    intro text member
    obtain ⟨hop, -, rfl⟩ := List.mem_map.mp member
    exact hop.text_noComma
  have kept : ∀ text ∈ change.path.map Hop.text, decide (text ≠ []) = true := by
    intro text member
    obtain ⟨hop, -, rfl⟩ := List.mem_map.mp member
    exact decide_eq_true hop.text_ne_nil
  rw [Java.tokens, CircuitChange.pathText]
  by_cases none : change.path.map Hop.text = []
  · rw [none]
    rfl
  · rw [List.splitOn_intercalate ',' noComma none]
    exact List.filter_eq_self.mpr kept

/-! ## What a call does to the table -/

section Table

variable (h : TorEventHandler)

theorem mem_put (circID : Text) (node : Option Node) (entry : Text × Option Node) :
    entry ∈ (h.put circID node).hmBuiltNodes ↔
      entry = (circID, node) ∨ entry ∈ h.hmBuiltNodes ∧ entry.1 ≠ circID := by
  simp [TorEventHandler.put]

theorem mem_remove (circID : Text) (entry : Text × Option Node) :
    entry ∈ (h.remove circID).hmBuiltNodes ↔ entry ∈ h.hmBuiltNodes ∧ entry.1 ≠ circID := by
  simp [TorEventHandler.remove]

variable {h} (distinct : (h.hmBuiltNodes.map Prod.fst).Nodup)
include distinct

theorem nodup_remove (circID : Text) : ((h.remove circID).hmBuiltNodes.map Prod.fst).Nodup :=
  List.Nodup.sublist (List.Sublist.map Prod.fst List.filter_sublist) distinct

theorem nodup_put (circID : Text) (node : Option Node) :
    ((h.put circID node).hmBuiltNodes.map Prod.fst).Nodup := by
  have fresh : circID ∉ (h.remove circID).hmBuiltNodes.map Prod.fst := by
    intro member
    obtain ⟨entry, inside, same⟩ := List.mem_map.mp member
    exact ((mem_remove h circID entry).mp inside).2 same
  exact List.nodup_cons.mpr ⟨fresh, nodup_remove distinct circID⟩

end Table

/-- The call stores the node at the end of its path, drops the entry of the
    circuit, or leaves the table alone. -/
theorem circuitStatus_table {prefs : SharedPreferences}
    (expanded : prefs.expandedNotifications = true) (h : TorEventHandler)
    (change : CircuitChange) :
    (circuitStatus prefs h change.status change.circID change.pathText).1.hmBuiltNodes =
      if change.status = built then
        (h.put change.circID (change.path.getLast?.map (Hop.node built))).hmBuiltNodes
      else if change.status = closed then (h.remove change.circID).hmBuiltNodes
      else h.hmBuiltNodes := by
  have differ : built ≠ closed := by decide
  have untouched : (announce h change.status).hmBuiltNodes = h.hmBuiltNodes := by
    rw [announce]
    split_ifs
    · rfl
    · rfl
  obtain ⟨names, walked⟩ := walkPath_hops change.status change.path none
  rw [Option.or_none] at walked
  simp only [circuitStatus, tokens_pathText, walked, expanded, if_true]
  by_cases opened : change.status = built
  · rw [opened] at untouched ⊢
    simp only [if_true, if_neg differ, TorEventHandler.put]
    split_ifs
    · simp only [TorEventHandler.tell, untouched]
    · simp only [TorEventHandler.tell, untouched]
  · simp only [if_neg opened, TorEventHandler.remove]
    split_ifs
    all_goals simp only [TorEventHandler.tell, untouched]

/-! ## The last word on a circuit -/

/-- The call itself, if it opens or closes the circuit. -/
def CircuitChange.concerns (circID : Text) (change : CircuitChange) : Option CircuitChange :=
  if change.circID = circID ∧ (change.status = built ∨ change.status = closed) then some change
  else none

/-- The last call with BUILT or CLOSED for the circuit. -/
def lastChange (circID : Text) (changes : List CircuitChange) : Option CircuitChange :=
  setting (CircuitChange.concerns circID) changes

/-- The table has one entry for each circuit that was built last, with the node
    at the end of its path. -/
structure Tracks (changes : List CircuitChange) (h : TorEventHandler) : Prop where
  distinct : (h.hmBuiltNodes.map Prod.fst).Nodup
  binds : ∀ circID node, (circID, node) ∈ h.hmBuiltNodes ↔
    ∃ change, lastChange circID changes = some change ∧ change.status = built ∧
      ∃ hop, change.path.getLast? = some hop ∧
        node = some ⟨built, some hop.fingerprint, some hop.name⟩

theorem lastChange_append (circID : Text) (changes : List CircuitChange) (change : CircuitChange) :
    lastChange circID (changes ++ [change]) =
      (change.concerns circID).or (lastChange circID changes) := by
  rw [lastChange, setting_append, setting_singleton, lastChange]

section Run

variable {prefs : SharedPreferences} (expanded : prefs.expandedNotifications = true)
include expanded

/-- A call that opens or closes a circuit has the last word on it. -/
theorem tracks_circuitStatus {changes : List CircuitChange} {h : TorEventHandler}
    (tracks : Tracks changes h) (change : CircuitChange) :
    Tracks (changes ++ [change])
      (circuitStatus prefs h change.status change.circID change.pathText).1 := by
  have table := circuitStatus_table expanded h change
  constructor
  case distinct =>
    rw [table]
    split_ifs
    · exact nodup_put tracks.distinct change.circID _
    · exact nodup_remove tracks.distinct change.circID
    · exact tracks.distinct
  case binds =>
    intro circID node
    have before := tracks.binds circID node
    rw [table, lastChange_append]
    by_cases same : change.circID = circID
    · subst same
      by_cases opened : change.status = built
      · have said : change.concerns change.circID = some change := if_pos ⟨rfl, .inl opened⟩
        obtain ⟨hop, last⟩ : ∃ hop, change.path.getLast? = some hop :=
          ⟨_, List.getLast?_eq_some_getLast (change.builtPath opened)⟩
        rw [if_pos opened, said, mem_put, last]
        simp [opened, last, Hop.node]
      · rw [if_neg opened]
        by_cases ended : change.status = closed
        · have said : change.concerns change.circID = some change := if_pos ⟨rfl, .inr ended⟩
          rw [if_pos ended, said, mem_remove]
          simp [opened]
        · have silent : change.concerns change.circID = none :=
            if_neg (by simp [opened, ended])
          rw [if_neg ended, silent, Option.none_or]
          exact before
    · have silent : change.concerns circID = none := if_neg (fun concerned => same concerned.1)
      have differs : circID ≠ change.circID := Ne.symm same
      rw [silent, Option.none_or, ← before]
      split_ifs
      · simp [mem_put, differs]
      · simp [mem_remove, differs]
      · rfl

/-- From an empty table every run of calls leaves the circuits that were built last. -/
theorem builtNodes_track {h : TorEventHandler} (empty : h.hmBuiltNodes = [])
    (changes : List CircuitChange) : Tracks changes (circuitStatuses prefs h changes) := by
  induction changes using List.reverseRecOn with
  | nil =>
      constructor
      · simp [circuitStatuses, empty]
      · simp [circuitStatuses, empty, lastChange, setting]
  | append_singleton changes change ih =>
      rw [circuitStatuses, List.foldl_append]
      exact tracks_circuitStatus expanded ih change

end Run

def guardNode : NodePart := ⟨"A1".toList, by decide⟩
def exitNode : NodePart := ⟨"B2".toList, by decide⟩
def exitName : NodePart := ⟨"exit".toList, by decide⟩

theorem builtNodes_track_closed :
    Tracks
      [⟨built, "7".toList, [.bare guardNode, .tilde exitNode exitName], by simp⟩,
        ⟨built, "8".toList, [.equals guardNode exitName], by simp⟩,
        ⟨closed, "7".toList, [], by decide⟩]
      (circuitStatuses (.of [] []) { mCurrentStatus := .starting }
        [⟨built, "7".toList, [.bare guardNode, .tilde exitNode exitName], by simp⟩,
          ⟨built, "8".toList, [.equals guardNode exitName], by simp⟩,
          ⟨closed, "7".toList, [], by decide⟩]) :=
  builtNodes_track (by decide) rfl _

end Orbot.Service
