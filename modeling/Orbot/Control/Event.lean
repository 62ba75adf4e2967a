import Orbot.Control.Reply

/-! # Events

`TorControlConnection.handleEvent` takes each line of a 6xx reply apart and
calls the installed `EventHandler`.
-/

namespace Orbot.Control

open Java (Text CharTables RuntimeException)

/-- A call of one of the methods of `EventHandler`. -/
inductive HandlerCall where
  | circuitStatus (status circID path : Text)
  | streamStatus (status streamID target : Text)
  | orConnStatus (status orName : Text)
  | bandwidthUsed (read written : Int)
  | newDescriptors (orList : List Text)
  | message (severity msg : Text)
  | unrecognized (type msg : Text)
  deriving Repr, DecidableEq

/-- An implementation of the interface: a call changes its state and may throw. -/
abbrev EventHandler (σ : Type) := σ → HandlerCall → σ × Option RuntimeException

def circ : Text := "CIRC".toList
def stream : Text := "STREAM".toList
def orconn : Text := "ORCONN".toList
def bw : Text := "BW".toList
def newdesc : Text := "NEWDESC".toList
def launched : Text := "LAUNCHED".toList

def severities : List Text :=
  ["DEBUG".toList, "INFO".toList, "NOTICE".toList, "WARN".toList, "ERR".toList]

/-- `Bytes.splitStr(null, str)` -/
def splitStr (str : Text) : List Text := Java.splitAll str ' '

/-- The call for an event of type `tp` with these arguments. -/
def callFor (tables : CharTables) (tp rest : Text) : Except RuntimeException HandlerCall :=
  let lst := splitStr rest
  if tp = circ then do
    let status ← Java.get lst 1
    let circID ← Java.get lst 0
    let path ← if status = launched ∨ lst.length < 3 then .ok [] else Java.get lst 2
    return .circuitStatus status circID path
  else if tp = stream then do
    let status ← Java.get lst 1
    let streamID ← Java.get lst 0
    let target ← Java.get lst 3
    return .streamStatus status streamID target
  else if tp = orconn then do
    let status ← Java.get lst 1
    let orName ← Java.get lst 0
    return .orConnStatus status orName
  else if tp = bw then do
    let read ← Java.parseInt tables (← Java.get lst 0)
    let written ← Java.parseInt tables (← Java.get lst 1)
    return .bandwidthUsed read written
  else if tp = newdesc then return .newDescriptors lst
  else if tp ∈ severities then return .message tp rest
  else return .unrecognized tp rest

def eventCall (tables : CharTables) (line : ReplyLine) : Except RuntimeException HandlerCall := do
  let idx := Java.indexOf line.msg ' '
  let tp := tables.toUpperCase (← Java.substring line.msg 0 idx)
  let rest ← Java.substringFrom line.msg (idx + 1)
  callFor tables tp rest

section HandleEvent

variable {σ : Type} (tables : CharTables) (handler : EventHandler σ)

/-- The loop over the lines of an event. -/
def handleEvents : List ReplyLine → σ → σ × Option RuntimeException
  | [], s => (s, none)
  | line :: events, s =>
      match eventCall tables line with
      | .error e => (s, some e)
      | .ok call =>
          match handler s call with
          | (s', some e) => (s', some e)
          | (s', none) => handleEvents events s'

/-- Without a handler an event is ignored. -/
def handleEvent (handler : Option (EventHandler σ)) (events : List ReplyLine) (s : σ) :
    σ × Option RuntimeException :=
  match handler with
  | none => (s, none)
  | some handler => handleEvents tables handler events s

end HandleEvent

end Orbot.Control
