import Orbot.Control.React

/-! # Circuit events

A circuit event has an identifier, a status, a path once a hop is built, and
any number of arguments. `handleEvent` takes the third field for the path, what
is wrong where an argument comes third.
-/

namespace Orbot.Control

open Java (Text CharTables)

/-- What can become of a circuit. -/
inductive CircuitStatus where
  | launched
  | built
  | extended
  | failed
  | closed
  deriving Repr, DecidableEq

def CircuitStatus.text : CircuitStatus → Text
  | launched => "LAUNCHED".toList
  | built => "BUILT".toList
  | extended => "EXTENDED".toList
  | failed => "FAILED".toList
  | closed => "CLOSED".toList

/-- An event as Tor sends it: every hop starts with a dollar sign, and an
    argument is a key and a value. -/
structure CircuitEvent where
  id : Text
  status : CircuitStatus
  path : List Text
  arguments : List (Text × Text)
  idNoBlank : ' ' ∉ id
  hops : ∀ hop ∈ path, ∃ server, hop = '$' :: server ∧ ' ' ∉ server
  keys : ∀ argument ∈ arguments, ' ' ∉ argument.1

namespace CircuitEvent

variable (event : CircuitEvent)

/-- The hops with commas between them. -/
def pathText : Text := [','].intercalate event.path

def argumentText : Text :=
  event.arguments.flatMap fun argument => ' ' :: argument.1 ++ '=' :: argument.2

/-- What stands behind the status. -/
def fields : Text :=
  (if event.path = [] then [] else ' ' :: event.pathText) ++ event.argumentText

def line : ReplyLine where
  status := "650".toList
  msg := "CIRC".toList ++ ' ' :: (event.id ++ ' ' :: (event.status.text ++ event.fields))
  rest := none

/-- Every handler is called with the path of the event, or with an empty one. -/
def DispatchedWithPath (tables : CharTables) : Prop :=
  ∀ {σ : Type} (handler : EventHandler σ) (s : σ),
    handleEvent tables (some handler) [event.line] s =
      handler s (.circuitStatus event.status.text event.id event.pathText)

/-- A launched circuit has no path; any other one has a path, or no arguments. -/
def PathComesThird : Prop :=
  if event.status = .launched then event.path = []
  else event.path ≠ [] ∨ event.arguments = []

instance : Decidable event.PathComesThird := by
  unfold PathComesThird
  infer_instance

/-! ## The third field -/

theorem status_noBlank (status : CircuitStatus) : ' ' ∉ status.text := by
  cases status <;> decide

theorem status_launched_iff (status : CircuitStatus) :
    status.text = Control.launched ↔ status = .launched := by
  cases status <;> decide

theorem callFor_circ_two {tables : CharTables} {id status : Text} (noBlank : ' ' ∉ id)
    (noBlank' : ' ' ∉ status) :
    callFor tables circ (id ++ ' ' :: status) = .ok (.circuitStatus status id []) := by
  have lst : splitStr (id ++ ' ' :: status) = [id, status] := by
    rw [splitStr, Java.splitAll, Java.splitOn_append noBlank, Java.splitOn_of_not_mem noBlank']
  simp [callFor, lst, bind, Except.bind, pure, Except.pure]

theorem callFor_circ_three {tables : CharTables} {id status : Text} (more : Text)
    (noBlank : ' ' ∉ id) (noBlank' : ' ' ∉ status) :
    callFor tables circ (id ++ ' ' :: (status ++ ' ' :: more)) =
      .ok (.circuitStatus status id
        (if status = Control.launched then [] else more.takeWhile (· ≠ ' '))) := by
  obtain ⟨others, pieces⟩ := Java.splitOn_eq_cons more ' '
  have lst : splitStr (id ++ ' ' :: (status ++ ' ' :: more)) =
      id :: status :: more.takeWhile (· ≠ ' ') :: others := by
    rw [splitStr, Java.splitAll, Java.splitOn_append noBlank, Java.splitOn_append noBlank', pieces]
  have long : ¬ (id :: status :: more.takeWhile (· ≠ ' ') :: others).length < 3 := by simp
  simp only [callFor, lst, if_true, Java.get_cons_succ, Java.get_cons_zero, bind, Except.bind, long,
    or_false]
  split_ifs
  · rfl
  · rfl

/-- The path that is passed. -/
def passedPath : Text :=
  if event.status = .launched then [] else event.fields.tail.takeWhile (· ≠ ' ')

theorem eventCall_line {tables : CharTables} (upper : tables.toUpperCase circ = circ) :
    eventCall tables event.line =
      .ok (.circuitStatus event.status.text event.id event.passedPath) := by
  have shape : event.fields = [] ∨ ∃ more, event.fields = ' ' :: more := by
    unfold fields argumentText
    split_ifs
    · cases event.arguments with
      | nil => exact .inl rfl
      | cons argument arguments => exact .inr ⟨_, rfl⟩
    · exact .inr ⟨_, rfl⟩
  rw [eventCall_of_blank tables rfl (show ' ' ∉ circ by decide), upper, passedPath]
  rcases shape with none | ⟨more, some⟩
  · rw [none, List.append_nil, callFor_circ_two event.idNoBlank (status_noBlank _)]
    simp
  · rw [some, callFor_circ_three more event.idNoBlank (status_noBlank _)]
    simp only [status_launched_iff, List.tail_cons]

theorem pathText_noBlank : ' ' ∉ event.pathText := by
  have free : ∀ hop ∈ event.path, ' ' ∉ hop := by
    intro hop member
    obtain ⟨server, rfl, noBlank⟩ := event.hops hop member
    simpa using noBlank
  rw [pathText]
  generalize event.path = path at free
  induction path with
  | nil => exact List.not_mem_nil
  | cons hop path ih =>
      obtain ⟨first, others⟩ := List.forall_mem_cons.mp free
      cases path with
      | nil => simpa using first
      | cons next path =>
          rw [List.intercalate_cons_cons]
          simpa [first] using ih others

theorem pathText_eq_nil_iff : event.pathText = [] ↔ event.path = [] := by
  rw [pathText]
  cases found : event.path with
  | nil => exact iff_of_true rfl rfl
  | cons hop path =>
      obtain ⟨server, rfl, -⟩ := event.hops hop (by simp [found])
      apply iff_of_false
      · cases path <;> simp [List.intercalate_cons_cons]
      · exact List.cons_ne_nil _ _

/-- The third field is the path, or else the key of the first argument is in it. -/
theorem passedPath_eq_iff : event.passedPath = event.pathText ↔ event.PathComesThird := by
  unfold passedPath PathComesThird
  by_cases isLaunched : event.status = .launched
  · rw [if_pos isLaunched, if_pos isLaunched, eq_comm, event.pathText_eq_nil_iff]
  · rw [if_neg isLaunched, if_neg isLaunched]
    by_cases none : event.path = []
    · have empty := event.pathText_eq_nil_iff.mpr none
      rw [empty, fields, if_pos none, List.nil_append, argumentText]
      cases found : event.arguments with
      | nil => simp
      | cons argument arguments =>
          have noBlank := event.keys argument (by simp [found])
          apply iff_of_false
          · rw [List.flatMap_cons, List.cons_append, List.cons_append, List.tail_cons,
              List.append_assoc, List.takeWhile_append_of_pos (Java.forall_ne_of_not_mem noBlank)]
            simp
          · simp [none]
    · have ended : event.argumentText.takeWhile (· ≠ ' ') = [] := by
        rw [argumentText]
        cases event.arguments with
        | nil => rfl
        | cons argument arguments => rfl
      apply iff_of_true _ (.inl none)
      rw [fields, if_neg none, List.cons_append, List.tail_cons,
        List.takeWhile_append_of_pos (Java.forall_ne_of_not_mem event.pathText_noBlank), ended,
        List.append_nil]

/-- A handler that keeps its last call. -/
def keepCall : EventHandler (Option HandlerCall) := fun _ call => (some call, none)

/-- The handler is called with the path of the event exactly if no argument can
    be taken for it, and no path is dropped. -/
theorem dispatchedWithPath_iff {tables : CharTables} (upper : tables.toUpperCase circ = circ) :
    event.DispatchedWithPath tables ↔ event.PathComesThird := by
  rw [← passedPath_eq_iff]
  have called : ∀ {σ : Type} (handler : EventHandler σ) (s : σ),
      handleEvent tables (some handler) [event.line] s =
        handler s (.circuitStatus event.status.text event.id event.passedPath) := by
    intro σ handler s
    simp only [handleEvent, handleEvents, event.eventCall_line upper]
    split
    next same => exact same.symm
    next same => exact same.symm
  constructor
  · intro dispatched
    have same := (called keepCall none).symm.trans (dispatched keepCall none)
    injection same with kept
    injection kept with call
    injection call
  · intro same σ handler s
    rw [called, same]

/-- A circuit over two hops, and its purpose. -/
def builtEvent : CircuitEvent where
  id := "7".toList
  status := .built
  path := ["$AB~guard".toList, "$CD=exit".toList]
  arguments := [("PURPOSE".toList, "GENERAL".toList)]
  idNoBlank := by decide
  hops := by
    intro hop member
    rcases List.mem_cons.mp member with rfl | last
    · exact ⟨"AB~guard".toList, rfl, by decide⟩
    · exact ⟨"CD=exit".toList, List.mem_singleton.mp last, by decide⟩
  keys := by
    intro argument member
    rw [List.mem_singleton.mp member]
    decide

theorem dispatchedWithPath_iff_built :
    handleEvent CharTables.ascii (some keepCall)
        [⟨"650".toList, "CIRC 7 BUILT $AB~guard,$CD=exit PURPOSE=GENERAL".toList, none⟩] none =
      (some (.circuitStatus "BUILT".toList "7".toList "$AB~guard,$CD=exit".toList), none) :=
  (dispatchedWithPath_iff builtEvent (by decide)).mpr (by decide) _ _

/-- The circuit failed before it had a hop. -/
def failedEvent : CircuitEvent where
  id := "7".toList
  status := .failed
  path := []
  arguments := [("PURPOSE".toList, "GENERAL".toList)]
  idNoBlank := by decide
  hops := List.forall_mem_nil _
  keys := by
    intro argument member
    rw [List.mem_singleton.mp member]
    decide

/-- Its purpose is passed as its path. -/
theorem argument_dispatched_as_path :
    failedEvent.line.msg = "CIRC 7 FAILED PURPOSE=GENERAL".toList ∧ failedEvent.pathText = [] ∧
      handleEvent CharTables.ascii (some keepCall) [failedEvent.line] none =
        (some (.circuitStatus "FAILED".toList "7".toList "PURPOSE=GENERAL".toList), none) ∧
      ¬ failedEvent.DispatchedWithPath CharTables.ascii := by
  have called : handleEvent CharTables.ascii (some keepCall) [failedEvent.line] none =
      (some (.circuitStatus "FAILED".toList "7".toList "PURPOSE=GENERAL".toList), none) := by
    decide
  refine ⟨rfl, rfl, called, ?_⟩
  intro dispatched
  have same := called.symm.trans (dispatched keepCall none)
  exact absurd same (by decide)

end CircuitEvent

end Orbot.Control
