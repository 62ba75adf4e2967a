import Orbot.Control.Commands
import Orbot.Control.Connection

/-! # Information that is asked for

`getInfo` takes the lines of a reply apart at their first equals sign, up to
the first line without one. A value on several lines is the data block of its
line.
-/

namespace Orbot.Control

open Java (Text OneLine RuntimeException lines)

/-! ## Asking -/

/-- The map `getInfo` makes of the reply. -/
def infoMap : List ReplyLine → Except RuntimeException (Text → Option Text)
  | [] => .ok fun _ => none
  | line :: rest => do
      let idx := Java.indexOf line.msg '='
      if idx < 0 then return fun _ => none
      let k ← Java.substring line.msg 0 idx
      let v ← match line.rest with
        | some data => .ok data
        | none => Java.substringFrom line.msg (idx + 1)
      let later ← infoMap rest
      return fun key => (later key).or (if key = k then some v else none)

/-- `getInfo(Collection)` -/
def getInfo (keys : List Text) : Exchange (Text → Option Text) where
  text := "GETINFO".toList ++ keys.flatMap (fun key => ' ' :: key) ++ crlf
  result := infoMap

/-! ## Answering -/

inductive InfoValue where
  | line (value : DataLine)
  | data (lines : List DataLine)

/-- The string a value is to be returned as. -/
def InfoValue.text : InfoValue → Text
  | line value => value.val
  | data lines => restOf lines

/-- A key and its value; the key ends before the first equals sign. -/
structure InfoEntry where
  key : Text
  value : InfoValue
  noEquals : '=' ∉ key
  oneLine : OneLine key

namespace InfoEntry

variable (entry : InfoEntry)

/-- The line of the reply for the entry. -/
def msg : Text :=
  match entry.value with
  | .line value => entry.key ++ '=' :: value.val
  | .data _ => entry.key ++ ['=']

def block : Option (List DataLine) :=
  match entry.value with
  | .line _ => none
  | .data lines => some lines

theorem msg_oneLine : OneLine entry.msg := by
  unfold msg
  split
  next value _ =>
    exact Java.oneLine_append.mpr
      ⟨entry.oneLine, Java.oneLine_cons.mpr ⟨by decide, value.property⟩⟩
  next => exact Java.oneLine_append.mpr ⟨entry.oneLine, by decide⟩

def sent : StatusLine × Option (List DataLine) :=
  ({ status := "250".toList
     msg := entry.msg
     three := rfl
     oneLine := Java.oneLine_append.mpr ⟨by decide, entry.msg_oneLine⟩ }, entry.block)

/-- What is read of the entry. -/
def received : ReplyLine := ⟨"250".toList, entry.msg, entry.block.map restOf⟩

end InfoEntry

def okLine : StatusLine where
  status := "250".toList
  msg := "OK".toList
  three := rfl
  oneLine := by decide

/-- Tor's answer: the entries in some order, and `250 OK`. -/
def infoReply (entries : List InfoEntry) : Reply where
  front := entries.map InfoEntry.sent
  last := okLine

/-! ## The answer is what is returned -/

theorem infoReply_received (entries : List InfoEntry) :
    (infoReply entries).received =
      entries.map InfoEntry.received ++ [⟨"250".toList, "OK".toList, none⟩] := by
  rw [Reply.received, infoReply, List.map_map]
  rfl

theorem callResult_infoReply (entries : List InfoEntry) :
    callResult (infoReply entries).received = .ok (infoReply entries).received := by
  have accepted : (infoReply entries).received.find?
      (fun c => !("2".toList.isPrefixOf c.status)) = none := by
    rw [List.find?_eq_none, infoReply_received]
    intro line member
    rcases List.mem_append.mp member with front | last
    · obtain ⟨entry, -, rfl⟩ := List.mem_map.mp front
      simp [InfoEntry.received]
    · rw [List.mem_singleton.mp last]
      decide
  rw [callResult, accepted]

/-- A round of the loop puts the entry into the map. -/
theorem infoMap_received (entry : InfoEntry) (rest : List ReplyLine) :
    infoMap (entry.received :: rest) = (infoMap rest).map fun later key =>
      (later key).or (if key = entry.key then some entry.value.text else none) := by
  obtain ⟨key, value, noEquals, oneLine⟩ := entry
  have found : ¬ ((key.length : Int) < 0) := by omega
  cases value with
  | line value =>
      have first := Java.substring_nat (key ++ '=' :: value.val) key.length (by simp)
      have second := Java.substringFrom_nat (key ++ '=' :: value.val) (key.length + 1) (by simp)
      rw [List.take_left] at first
      rw [← List.drop_drop, List.drop_left, List.drop_one, List.tail_cons, Int.natCast_add,
        Int.natCast_one] at second
      simp only [infoMap, InfoEntry.received, InfoEntry.msg, InfoEntry.block, Option.map_none,
        Java.indexOf_append noEquals, found, if_false, first, second, bind, Except.bind, pure,
        Except.pure, InfoValue.text]
      cases infoMap rest <;> rfl
  | data lines =>
      have first := Java.substring_nat (key ++ ['=']) key.length (by simp)
      rw [List.take_left] at first
      simp only [infoMap, InfoEntry.received, InfoEntry.msg, InfoEntry.block, Option.map_some,
        Java.indexOf_append noEquals, found, if_false, first, bind, Except.bind, pure,
        Except.pure, InfoValue.text]
      cases infoMap rest <;> rfl

/-- The map of the lines of some entries with different keys. -/
theorem infoMap_entries {entries : List InfoEntry}
    (distinct : (entries.map InfoEntry.key).Nodup) :
    ∃ m, infoMap (entries.map InfoEntry.received ++ [⟨"250".toList, "OK".toList, none⟩]) =
        .ok m ∧
      ∀ k v, m k = some v ↔ ∃ e ∈ entries, e.key = k ∧ e.value.text = v := by
  induction entries with
  | nil =>
      refine ⟨fun _ => none, rfl, ?_⟩
      intro k v
      simp
  | cons entry entries ih =>
      obtain ⟨fresh, others⟩ := List.nodup_cons.mp distinct
      obtain ⟨later, read, binds⟩ := ih others
      refine ⟨_, by rw [List.map_cons, List.cons_append, infoMap_received, read]; rfl, ?_⟩
      intro k v
      rw [List.exists_mem_cons_iff, ← binds]
      by_cases here : k = entry.key
      · have absent : later k = none := by
          rw [Option.eq_none_iff_forall_ne_some]
          intro w bound
          obtain ⟨e, member, same, -⟩ := (binds k w).mp bound
          exact fresh (List.mem_map.mpr ⟨e, member, same.trans here⟩)
        subst here
        simp [absent]
      · simp [here, Ne.symm here]

/-- Whatever the values are and in whatever order they come, `getInfo` returns the
    map that binds each key to its value, and nothing else. -/
theorem getInfo_exact {pairs answered : List InfoEntry}
    (distinct : (pairs.map InfoEntry.key).Nodup) (order : answered.Perm pairs) (rest : Text) :
    ∃ lst m, readReply (lines ((infoReply answered).render ++ rest)) = .ok (lst, lines rest) ∧
      callResult lst = .ok lst ∧ (getInfo (pairs.map InfoEntry.key)).result lst = .ok m ∧
      ∀ k v, m k = some v ↔ ∃ e ∈ pairs, e.key = k ∧ e.value.text = v := by
  have distinct' : (answered.map InfoEntry.key).Nodup :=
    (order.map InfoEntry.key).nodup_iff.mpr distinct
  obtain ⟨m, read, binds⟩ := infoMap_entries distinct'
  refine ⟨(infoReply answered).received, m, readReply_render _ rest, callResult_infoReply answered,
    ?_, ?_⟩
  · rw [infoReply_received]
    exact read
  · intro k v
    rw [binds]
    simp only [order.mem_iff]

/-- A value with an equals sign, and one that looks like a reply. -/
def versionEntry : InfoEntry where
  key := "version".toList
  value := .line ⟨"0.2=8".toList, by decide⟩
  noEquals := by decide
  oneLine := by decide

def statusEntry : InfoEntry where
  key := "circuit-status".toList
  value := .data [⟨".".toList, by decide⟩, ⟨"250 OK".toList, by decide⟩]
  noEquals := by decide
  oneLine := by decide

theorem getInfo_exact_reply :
    ∃ lst m, readReply (lines
        "250+circuit-status=\r\n..\r\n250 OK\r\n.\r\n250-version=0.2=8\r\n250 OK\r\n".toList) =
          .ok (lst, []) ∧
      (getInfo ["version".toList, "circuit-status".toList]).result lst = .ok m ∧
      m "circuit-status".toList = some ".\n250 OK\n".toList := by
  have distinct : ([versionEntry, statusEntry].map InfoEntry.key).Nodup := by decide
  have order : [statusEntry, versionEntry].Perm [versionEntry, statusEntry] := .swap _ _ _
  obtain ⟨lst, m, read, -, result, binds⟩ := getInfo_exact distinct order []
  refine ⟨lst, m, ?_, result, ?_⟩
  · exact read
  · exact (binds _ _).mpr ⟨statusEntry, by simp, rfl, rfl⟩

end Orbot.Control
