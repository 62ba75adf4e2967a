import Orbot.Control.Event
import Orbot.Service.Prefs
import Orbot.TorServiceConstants

/-! # The event handler of the service

`TorEventHandler`: its own fields, the status of the service it may set, and
what it tells the service. The text of the traffic notification is left out,
with the float arithmetic behind it.
-/

namespace Orbot.Service

open Java (Text RuntimeException)
open Control

/-- What the handler tells the service. -/
inductive Callback where
  | status (status : Status)
  | logNotice (msg : Text)
  | debug (msg : Text)
  | trafficNotification (read written : Int)
  | bandwidth (upload download written read : Int)
  deriving Repr, DecidableEq

/-- The fields of `Node` that are assigned; `none` is null. -/
structure Node where
  status : Text
  id : Option Text
  name : Option Text
  deriving Repr, DecidableEq

structure TorEventHandler where
  lastRead : Int := -1
  lastWritten : Int := -1
  mTotalTrafficWritten : Int := 0
  mTotalTrafficRead : Int := 0
  /-- at most one entry for a circuit; a null node is `none` -/
  hmBuiltNodes : List (Text × Option Node) := []
  mCurrentStatus : Status
  callbacks : List Callback := []
  deriving Repr, DecidableEq

namespace TorEventHandler

def tell (h : TorEventHandler) (callback : Callback) : TorEventHandler :=
  { h with callbacks := h.callbacks ++ [callback] }

/-- `HashMap.remove` -/
def remove (h : TorEventHandler) (circID : Text) : TorEventHandler :=
  { h with hmBuiltNodes := h.hmBuiltNodes.filter (·.1 ≠ circID) }

/-- `HashMap.put` -/
def put (h : TorEventHandler) (circID : Text) (node : Option Node) : TorEventHandler :=
  { h with hmBuiltNodes := (circID, node) :: h.hmBuiltNodes.filter (·.1 ≠ circID) }

end TorEventHandler

def built : Text := "BUILT".toList
def closed : Text := "CLOSED".toList

/-! ## Circuits -/

/-- One hop of a path. -/
def hopNode (status nodePath : Text) : Except RuntimeException Node :=
  let nodeParts := if '=' ∈ nodePath then Java.split nodePath '=' else Java.split nodePath '~'
  match nodeParts with
  | [part] => do
      let id ← Java.substringFrom part 1
      return { status, id := some id, name := some id }
  | [first, second] => do
      let id ← Java.substringFrom first 1
      return { status, id := some id, name := some second }
  | _ => return { status, id := none, name := none }

/-- The loop over the hops: the names for the log, and the last node. -/
def walkPath (status : Text) : List Text → Option Node →
    Except RuntimeException (Text × Option Node)
  | [], node => return ([], node)
  | nodePath :: rest, _ => do
      let node ← hopNode status nodePath
      let (names, last) ← walkPath status rest (some node)
      let separator := if rest = [] then [] else " > ".toList
      return (node.name.getD "null".toList ++ separator ++ names, last)

section Calls

variable (prefs : SharedPreferences) (h : TorEventHandler)

/-- Once the first circuit is complete, then announce that Orbot is on. -/
def announce (status : Text) : TorEventHandler :=
  if h.mCurrentStatus = .starting ∧ status = built then
    { h.tell (.status .on) with mCurrentStatus := .on }
  else h

def circuitStatus (status circID path : Text) : TorEventHandler × Option RuntimeException :=
  let h := announce h status
  match walkPath status (Java.tokens path ',') none with
  | .error e => (h, some e)
  | .ok (names, node) =>
      let text := "Circuit (".toList ++ circID ++ ") ".toList ++ status ++ ": ".toList ++ names
      let h :=
        if prefs.useDebugLogging then h.tell (.debug text)
        else if status = built then h.tell (.logNotice text)
        else if status = closed then h.tell (.logNotice text)
        else h
      if prefs.expandedNotifications then
        let h := if status = built then h.put circID node else h
        (if status = closed then h.remove circID else h, none)
      else (h, none)

def streamStatus (status streamID : Text) : TorEventHandler :=
  h.tell (.logNotice ("StreamStatus (".toList ++ streamID ++ "): ".toList ++ status))

/-- The part behind the first `=`, else behind the first `~`. -/
def parseNodeName (node : Text) : Except RuntimeException Text :=
  if Java.indexOf node '=' ≠ -1 then Java.substringFrom node (Java.indexOf node '=' + 1)
  else if Java.indexOf node '~' ≠ -1 then Java.substringFrom node (Java.indexOf node '~' + 1)
  else .ok node

def orConnStatus (status orName : Text) : TorEventHandler × Option RuntimeException :=
  match parseNodeName orName with
  | .error e => (h, some e)
  | .ok name => (h.tell (.debug ("orConnStatus (".toList ++ name ++ "): ".toList ++ status)), none)

def bandwidthUsed (read written : Int) : TorEventHandler :=
  let h :=
    if read ≠ h.lastRead ∨ written ≠ h.lastWritten then
      { h.tell (.trafficNotification read written) with
        mTotalTrafficWritten := Java.wrap64 (h.mTotalTrafficWritten + written)
        mTotalTrafficRead := Java.wrap64 (h.mTotalTrafficRead + read) }
    else h
  let h := { h with lastWritten := written, lastRead := read }
  h.tell (.bandwidth written read h.mTotalTrafficWritten h.mTotalTrafficRead)

/-- `TorEventHandler` as an `EventHandler`. -/
def TorEventHandler.handler : EventHandler TorEventHandler := fun h call =>
  match call with
  | .circuitStatus status circID path => circuitStatus prefs h status circID path
  | .streamStatus status streamID _ => (streamStatus h status streamID, none)
  | .orConnStatus status orName => orConnStatus h status orName
  | .bandwidthUsed read written => (bandwidthUsed h read written, none)
  | .newDescriptors _ => (h, none)
  | .message severity msg => (h.tell (.logNotice (severity ++ ": ".toList ++ msg)), none)
  | .unrecognized type msg =>
      (h.tell (.logNotice ("Message (".toList ++ type ++ "): ".toList ++ msg)), none)

end Calls

/-! ## When the handler throws -/

/-- Nothing stands before the separator, and one name behind it. -/
def BadHop (hop : Text) : Prop :=
  ∃ name, (if '=' ∈ hop then Java.split hop '=' else Java.split hop '~') = [[], name]

theorem hopNode_throws_iff (status : Text) {hop : Text} (nonempty : hop ≠ []) :
    (∃ e, hopNode status hop = .error e) ↔ BadHop hop := by
  have part_nonempty {part : Text}
      (only : (if '=' ∈ hop then Java.split hop '=' else Java.split hop '~') = [part]) :
      part ≠ [] := by
    split_ifs at only
    · exact Java.ne_nil_of_split_eq_singleton nonempty only
    · exact Java.ne_nil_of_split_eq_singleton nonempty only
  rw [hopNode, BadHop]
  generalize (if '=' ∈ hop then Java.split hop '=' else Java.split hop '~') = parts at part_nonempty
  match parts with
  | [] => simp [pure, Except.pure]
  | [part] =>
      obtain ⟨c, rest, rfl⟩ := List.exists_cons_of_ne_nil (part_nonempty rfl)
      simp [bind, Except.bind, pure, Except.pure]
  | [first, second] =>
      cases first with
      | nil => simp [bind, Except.bind]
      | cons c rest => simp [bind, Except.bind, pure, Except.pure]
  | _ :: _ :: _ :: _ => simp [pure, Except.pure]

theorem walkPath_throws_iff (status : Text) {hops : List Text} (nonempty : ∀ hop ∈ hops, hop ≠ [])
    (node : Option Node) :
    (∃ e, walkPath status hops node = .error e) ↔ ∃ hop ∈ hops, BadHop hop := by
  induction hops generalizing node with
  | nil => simp [walkPath, pure, Except.pure]
  | cons hop rest ih =>
      have first := hopNode_throws_iff status (nonempty hop (by simp))
      have later := fun node => ih (fun hop member => nonempty hop (by simp [member])) node
      rw [List.exists_mem_cons_iff, ← first]
      cases one : hopNode status hop with
      | error e => simp [walkPath, one, bind, Except.bind]
      | ok n =>
          rw [← later (some n)]
          cases others : walkPath status rest (some n) with
          | error e => simp [walkPath, one, others, bind, Except.bind]
          | ok result => simp [walkPath, one, others, bind, Except.bind, pure, Except.pure]

theorem parseNodeName_ok (node : Text) : ∃ name, parseNodeName node = .ok name := by
  have behind (c : Char) (present : Java.indexOf node c ≠ -1) :
      ∃ name, Java.substringFrom node (Java.indexOf node c + 1) = .ok name := by
    rcases Java.indexOf_cases node c with ⟨_, missing⟩ | ⟨before, after, split, _, found⟩
    · exact absurd missing present
    · have inside : before.length + 1 ≤ node.length := by
        rw [split, List.length_append, List.length_cons]
        omega
      rw [found]
      exact ⟨_, Java.substringFrom_nat node (before.length + 1) inside⟩
  rw [parseNodeName]
  split_ifs with equals tilde
  · exact behind '=' equals
  · exact behind '~' tilde
  · exact ⟨node, rfl⟩

/-- The calls on which the handler throws, whatever its state. -/
def BadCall : HandlerCall → Prop
  | .circuitStatus _ _ path => ∃ hop ∈ Java.tokens path ',', BadHop hop
  | _ => False

theorem handler_throws_iff (prefs : SharedPreferences) (h : TorEventHandler) (call : HandlerCall) :
    (∃ e, (TorEventHandler.handler prefs h call).2 = some e) ↔ BadCall call := by
  cases call with
  | circuitStatus status circID path =>
      have hops : ∀ hop ∈ Java.tokens path ',', hop ≠ [] :=
        fun _ member => Java.ne_nil_of_mem_tokens member
      rw [BadCall, ← walkPath_throws_iff status hops none]
      simp only [TorEventHandler.handler, circuitStatus]
      cases walked : walkPath status (Java.tokens path ',') none with
      | error e => simp
      | ok result =>
          simp only [reduceCtorEq, exists_false, iff_false]
          split_ifs <;> simp
  | orConnStatus status orName =>
      obtain ⟨name, parsed⟩ := parseNodeName_ok orName
      simp [TorEventHandler.handler, orConnStatus, parsed, BadCall]
  | streamStatus | bandwidthUsed | newDescriptors | message | unrecognized =>
      simp [TorEventHandler.handler, BadCall]

end Orbot.Service
