import Orbot.Lib.Transition
import Orbot.RootCommands.Command

/-! # The threads of a shell

Clients add commands, close the shell and wait; one thread writes what was
added to the shell process, one reads what the process prints. Each critical
section on `commands` is a step, as is each line read and whatever the process
prints at a time. What a script prints, and how it ends, is up to the process,
which may also end at any time. The process has taken up its work.

A script shares the standard input of the shell with the commands behind it. It
is assumed to read nothing from there, and to leave nothing running that prints
once it has ended.
-/

namespace Orbot.RootCommands

open Java (Text CharTables LineBuffer)
open Lib.Transition

/-! ## State -/

/-- A script that was run, and the token printed after it. -/
structure Script where
  command : List Text
  printed : Text
  status : ℕ
  deriving Repr, DecidableEq

/-- The thread in `writeCommands`. -/
inductive Writer where
  | looping
  /-- past the check for another command, with `close` set -/
  | closing
  | returned
  deriving Repr, DecidableEq

structure Shell where
  commands : List Command := []
  close : Bool := false
  /-- for each call of `add` that has found `close` false, its command -/
  adding : List Command := []
  writer : Writer := .looping
  /-- `commandIndex` of `writeCommands` -/
  written : ℕ := 0
  /-- what the process has not read yet -/
  stdin : List Request := []
  alive : Bool := true
  running : Bool := false
  /-- the script the process began with since the last token -/
  script : Option (List Text) := none
  /-- printed since the last token -/
  printed : Text := []
  /-- `$?` -/
  lastExit : ℕ := 0
  scripts : List Script := []
  stdout : LineBuffer := .empty
  /-- the lines that were read -/
  consumed : ℕ := 0
  reader : ReadOutput := {}
  deriving Repr, DecidableEq

/-- The lines the reader can have. -/
def Shell.available (s : Shell) : List Text := if s.alive then s.stdout.ended else s.stdout.all

/-! ## Steps -/

inductive Action where
  /-- `add` finds `close` false -/
  | add (command : List Text)
  | addToCommands (i : ℕ)
  | closeShell
  /-- `waitForFinish` of a command gives up -/
  | timeout (i : ℕ)
  | writeCommand
  | findNone
  | writeExit
  /-- the other end of the pipe is closed -/
  | writeFails
  | execute
  | print (chunk : Text)
  | ends (status : ℕ)
  | echo
  | exit
  /-- the process ends before it is told to -/
  | dies
  | readLine
  | endOfFile
  | waitFor
  | terminate
  deriving Repr, DecidableEq

variable (tables : CharTables)

/-- Only the shell reads `stdin`, and only the script that runs prints. -/
def step (s : Shell) : Action → Option Shell
  | .add command =>
      if s.close then none else some { s with adding := s.adding ++ [{ command }] }
  | .addToCommands i =>
      match s.adding[i]? with
      | some c =>
          -- a list has no more elements than an `int` counts
          if s.commands.length < 2147483647 then
            some { s with adding := s.adding.eraseIdx i, commands := s.commands ++ [c] }
          else none
      | none => none
  | .closeShell => some { s with close := true }
  | .timeout i =>
      match s.commands[i]? with
      | some c =>
          if c.finished then none
          else some { s with close := true, commands := s.commands.modify i (·.terminated) }
      | none => none
  | .writeCommand =>
      match s.commands[s.written]? with
      | some next =>
          if s.writer = .looping then
            some { s with
              stdin := s.stdin ++ [.script next.command, .echo s.written]
              written := s.written + 1 }
          else none
      | none => none
  | .findNone =>
      if s.writer = .looping ∧ s.close = true ∧ s.commands.length ≤ s.written then
        some { s with writer := .closing }
      else none
  | .writeExit =>
      if s.writer = .closing then
        some { s with writer := .returned, stdin := s.stdin ++ [.exit] }
      else none
  | .writeFails =>
      if s.writer ≠ .returned ∧ s.alive = false then some { s with writer := .returned } else none
  | .execute =>
      match s.stdin with
      | .script command :: rest =>
          if s.alive ∧ s.running = false then
            some { s with stdin := rest, running := true, script := some command }
          else none
      | _ => none
  | .print chunk =>
      if s.alive ∧ s.running then
        some { s with printed := s.printed ++ chunk, stdout := s.stdout.write chunk }
      else none
  | .ends status =>
      if s.alive ∧ s.running ∧ status < 256 then
        some { s with running := false, lastExit := status }
      else none
  | .echo =>
      match s.stdin with
      | .echo commandIndex :: rest =>
          if s.alive ∧ s.running = false then
            some { s with
              stdin := rest
              script := none
              printed := []
              scripts := s.scripts ++ [⟨s.script.getD [], s.printed, s.lastExit⟩]
              stdout := s.stdout.write (marker commandIndex s.lastExit ++ ['\n']) }
          else none
      | _ => none
  | .exit =>
      match s.stdin with
      | .exit :: _ => if s.alive ∧ s.running = false then some { s with alive := false } else none
      | _ => none
  | .dies => if s.alive then some { s with alive := false } else none
  | .readLine =>
      if s.reader.stage = .reading then
        match s.available[s.consumed]? with
        | some line =>
            let (reader, commands) := readOutput tables s.close s.reader s.commands line
            some { s with reader, commands, consumed := s.consumed + 1 }
        | none => none
      else none
  | .endOfFile =>
      if s.reader.stage = .reading ∧ s.alive = false ∧ s.stdout.all.length ≤ s.consumed then
        some { s with reader := { s.reader with stage := .readAll } }
      else none
  | .waitFor =>
      if s.reader.stage = .readAll ∧ s.alive = false then
        some { s with reader := { s.reader with stage := .terminating } }
      else none
  | .terminate =>
      if s.reader.stage = .terminating then
        if s.reader.commandIndex < s.commands.length then
          some { s with
            commands := s.commands.modify s.reader.commandIndex (·.terminated)
            reader := { s.reader with
              commandIndex := s.reader.commandIndex + 1
              command := false } }
        else some { s with reader := { s.reader with stage := .ended } }
      else none

/-- No script prints the token, not even together with the one after it. -/
def Quiet (s : Shell) : Action → Prop
  | .print chunk => ¬ token <:+: s.printed ++ chunk
  | .ends _ => ¬ token <:+: s.printed ++ token.dropLast
  | _ => True

end Orbot.RootCommands
