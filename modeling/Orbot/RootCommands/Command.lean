import Orbot.Java.LineBuffer
import Orbot.Java.Search
import Orbot.TransProxy.Command

/-! # Commands of a shell

A `SimpleCommand`, and what the thread that reads the output of the shell does
with one line. The output of a command ends at the token that the shell is told
to print after it.
-/

namespace Orbot.RootCommands

open Java (Text CharTables LineBuffer)
open TransProxy (number number_ne_nil)

structure Command where
  command : List Text
  output : Text := []
  brokenBusyboxDetected : Bool := false
  finished : Bool := false
  exitCode : Int := 0
  deriving Repr, DecidableEq

/-- What broken binaries print. -/
def valueTooLarge : Text := "Value too large for defined data type".toList

namespace Command

def processOutput (line : Text) (c : Command) : Command :=
  { c with
    brokenBusyboxDetected :=
      c.brokenBusyboxDetected || Java.contains line valueTooLarge
    output := c.output ++ line ++ ['\n'] }

def setExitCode (code : Int) (c : Command) : Command := { c with exitCode := code, finished := true }

def terminated (c : Command) : Command := c.setExitCode (-1)

end Command

/-- How waiting for a command ends that has finished. -/
inductive Waited where
  | exited (exitCode : Int)
  | brokenBusybox
  deriving Repr, DecidableEq

/-- `none` while the command has not finished. -/
def Command.waitForFinish (c : Command) : Option Waited :=
  if !c.finished then none
  else if c.brokenBusyboxDetected then some .brokenBusybox
  else some (.exited c.exitCode)

/-! ## What is written to the shell -/

def token : Text := "F*D^W@#FGF".toList

/-- `stderr` goes where `stdout` goes. -/
def getCommand (command : List Text) : Text := command.flatMap (· ++ " 2>&1\n".toList)

/-- What `writeCommands` writes at a time. -/
inductive Request where
  | script (command : List Text)
  | echo (commandIndex : ℕ)
  | exit
  deriving Repr, DecidableEq

def Request.text : Request → Text
  | .script command => getCommand command
  | .echo commandIndex => "\necho ".toList ++ token ++ ' ' :: number commandIndex ++ " $?\n".toList
  | .exit => "\nexit 0\n".toList

/-- The line that a shell prints for `echo`, with the status of what it ran
    last for `$?`. -/
def marker (commandIndex status : ℕ) : Text :=
  token ++ ' ' :: number commandIndex ++ ' ' :: number status

/-! ## One line of output -/

inductive Stage where
  /-- in the loop over the lines -/
  | reading
  /-- behind the loop, until the process has ended -/
  | readAll
  /-- ending the commands that are left -/
  | terminating
  | ended
  /-- by an exception -/
  | failed
  deriving Repr, DecidableEq

/-- The thread in `readOutput`. -/
structure ReadOutput where
  stage : Stage := .reading
  commandIndex : ℕ := 0
  /-- `command` is not null -/
  command : Bool := false
  deriving Repr, DecidableEq

/-- The exit code in a line from its token on, if it is that of this command. -/
def tokenExitCode (tables : CharTables) (commandIndex : ℕ) (line : Text) :
    Except Java.RuntimeException (Option Int) := do
  let fields := Java.split line ' '
  let id ← Java.parseInt tables (← Java.get fields 1)
  if id = commandIndex then return some (← Java.parseInt tables (← Java.get fields 2))
  else return none

/-- A turn of the loop once `command` is set. -/
def processLine (tables : CharTables) (r : ReadOutput) (commands : List Command) (line : Text) :
    ReadOutput × List Command :=
  match Java.indexOfText line token with
  | none => (r, commands.modify r.commandIndex (·.processOutput line))
  | some pos =>
      let commands :=
        if pos > 0 then commands.modify r.commandIndex (·.processOutput (line.take pos))
        else commands
      let line := line.drop pos
      match tokenExitCode tables r.commandIndex line with
      | .error _ => ({ r with stage := .failed }, commands)
      | .ok (some code) =>
          ({ r with commandIndex := r.commandIndex + 1, command := false },
            commands.modify r.commandIndex (·.setExitCode code))
      | .ok none => (r, commands.modify r.commandIndex (·.processOutput line))

/-- A turn of the loop of `readOutput`. -/
def readOutput (tables : CharTables) (close : Bool) (r : ReadOutput) (commands : List Command)
    (line : Text) : ReadOutput × List Command :=
  if r.command then processLine tables r commands line
  else if r.commandIndex ≥ commands.length then
    (if close then { r with stage := .readAll } else r, commands)
  else processLine tables { r with command := true } commands line

/-! ## Lines and tokens -/

/-- A command that was told all these lines. -/
def Command.heard (lines : List Text) (c : Command) : Command :=
  lines.foldl (fun c line => c.processOutput line) c

namespace Command

variable (c : Command)

@[simp] theorem heard_nil : c.heard [] = c := rfl

theorem heard_append (lines later : List Text) :
    c.heard (lines ++ later) = (c.heard lines).heard later := List.foldl_append

theorem heard_concat (lines : List Text) (line : Text) :
    c.heard (lines ++ [line]) = (c.heard lines).processOutput line := heard_append c lines [line]

theorem heard_terminated (lines : List Text) : c.terminated.heard lines = (c.heard lines).terminated := by
  induction lines generalizing c with
  | nil => rfl
  | cons line lines ih => exact ih (c.processOutput line)

@[simp] theorem heard_finished (lines : List Text) : (c.heard lines).finished = c.finished := by
  induction lines generalizing c with
  | nil => rfl
  | cons line lines ih => exact ih (c.processOutput line)

@[simp] theorem heard_exitCode (lines : List Text) : (c.heard lines).exitCode = c.exitCode := by
  induction lines generalizing c with
  | nil => rfl
  | cons line lines ih => exact ih (c.processOutput line)

@[simp] theorem heard_output (lines : List Text) :
    (c.heard lines).output = c.output ++ lines.flatMap (· ++ ['\n']) := by
  induction lines generalizing c with
  | nil => simp
  | cons line lines ih =>
      have next : (c.heard (line :: lines)).output = _ := ih (c.processOutput line)
      rw [next, processOutput, List.flatMap_cons, List.append_assoc, List.append_assoc,
        List.append_assoc]

end Command

theorem token_oneLine : Java.OneLine token := by decide

theorem number_oneLine (n : ℕ) : Java.OneLine (number n) := by
  constructor
  · exact fun member => absurd (TransProxy.number_isDigit n _ member) (by decide)
  · exact fun member => absurd (TransProxy.number_isDigit n _ member) (by decide)

theorem number_no_blank (n : ℕ) : ' ' ∉ number n :=
  fun member => absurd (TransProxy.number_isDigit n _ member) (by decide)

theorem marker_oneLine (i status : ℕ) : Java.OneLine (marker i status) := by
  have blank {s : Text} (oneLine : Java.OneLine s) : Java.OneLine (' ' :: s) :=
    Java.oneLine_cons.mpr ⟨by decide, oneLine⟩
  exact Java.oneLine_append.mpr
    ⟨Java.oneLine_append.mpr ⟨token_oneLine, blank (number_oneLine i)⟩, blank (number_oneLine status)⟩

theorem marker_ne_nil (i status : ℕ) : marker i status ≠ [] := nofun

/-- The words of a marker. -/
theorem split_marker (i status : ℕ) :
    Java.split (marker i status) ' ' = [token, number i, number status] := by
  have words : (marker i status).splitOn ' ' = [token, number i, number status] := by
    rw [marker, List.append_assoc, List.cons_append, Java.splitOn_append (by decide),
      Java.splitOn_append (number_no_blank i), Java.splitOn_of_not_mem (number_no_blank status)]
  have last : (marker i status).getLast? ≠ some ' ' := by
    rw [marker, List.append_cons _ ' ' (number status),
      List.getLast?_append_of_ne_nil _ (number_ne_nil status)]
    exact fun ends => number_no_blank status (List.mem_of_getLast? ends)
  rw [Java.split_eq_splitOn last, words]
  simp [marker]

theorem parseInt_number (tables : CharTables) {n : ℕ} (small : n < 2147483648) :
    Java.parseInt tables (number n) = .ok n := by
  rw [Java.parseInt_of_digits tables (number_ne_nil n) (TransProxy.number_isDigit n),
    TransProxy.decimalValue_number]
  rw [TransProxy.decimalValue_number]
  omega

theorem tokenExitCode_marker (tables : CharTables) {i status : ℕ} (index : i < 2147483648)
    (exits : status < 2147483648) :
    tokenExitCode tables i (marker i status) = .ok (some status) := by
  simp [tokenExitCode, split_marker, parseInt_number tables index, parseInt_number tables exits,
    bind, Except.bind, pure, Except.pure]

/-- A line without the token is output. -/
theorem processLine_of_no_token (tables : CharTables) (r : ReadOutput) (commands : List Command)
    {line : Text} (noToken : ¬ token <:+: line) :
    processLine tables r commands line =
      (r, commands.modify r.commandIndex (·.processOutput line)) := by
  rw [processLine, Java.indexOfText_eq_none.mpr noToken]

/-- What a command printed behind its last line end is a line of its own, if it
    is anything. -/
def rest (s : Text) : List Text := if s = [] then [] else [s]

/-- The token of the command ends it. -/
theorem processLine_marker (tables : CharTables) (r : ReadOutput) (commands : List Command)
    {s : Text} {status : ℕ} (noToken : ¬ token <:+: s ++ token.dropLast)
    (index : r.commandIndex < 2147483648) (exits : status < 2147483648) :
    processLine tables r commands (s ++ marker r.commandIndex status) =
      ({ r with commandIndex := r.commandIndex + 1, command := false },
        commands.modify r.commandIndex fun c => (c.heard (rest s)).setExitCode status) := by
  have found : Java.indexOfText (s ++ marker r.commandIndex status) token = some s.length := by
    rw [marker, List.append_assoc token, ← List.append_assoc]
    exact Java.indexOfText_append _ noToken
  rw [processLine, found]
  simp only [List.take_left, List.drop_left, tokenExitCode_marker tables index exits]
  by_cases empty : s = []
  · subst empty
    simp [rest]
  · have some : s.length > 0 := List.length_pos_iff.mpr empty
    rw [if_pos some, List.modify_modify_eq]
    simp [rest, empty, Command.heard, Function.comp_def]

end Orbot.RootCommands
