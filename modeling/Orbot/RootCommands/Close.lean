import Mathlib.Algebra.GroupWithZero.Nat
import Orbot.RootCommands.Attribution

/-! # Coming to rest

Left to themselves the threads of a shell and its process come to rest, in
whatever order they go on. A command that was added while the shell was open is
then through, also where the shell was closed in the meantime. What is added
once the reader has ended is never finished.
-/

namespace Orbot.RootCommands

open Java (Text CharTables LineBuffer)
open Lib.Transition Lib.Numbered

/-! ## Steps without a cause outside -/

/-- What the threads and the process do by themselves. -/
def Action.Internal : Action → Prop
  | .addToCommands _ | .writeCommand | .findNone | .writeExit | .writeFails | .execute | .ends _
  | .echo | .exit | .readLine | .endOfFile | .waitFor | .terminate => True
  | .add _ | .closeShell | .timeout _ | .print _ | .dies => False

instance : (a : Action) → Decidable a.Internal
  | .addToCommands _ | .writeCommand | .findNone | .writeExit | .writeFails | .execute | .ends _
  | .echo | .exit | .readLine | .endOfFile | .waitFor | .terminate => .isTrue trivial
  | .add _ | .closeShell | .timeout _ | .print _ | .dies => .isFalse id

variable (tables : CharTables)

def AtRest (s : Shell) : Prop := ∀ a : Action, a.Internal → step tables s a = none

def Request.weight : Request → ℕ
  | .script _ => 3
  | .echo _ => 3
  | .exit => 0

def Writer.weight : Writer → ℕ
  | .looping => 2
  | .closing => 1
  | .returned => 0

def Stage.weight : Stage → ℕ
  | .reading => 3
  | .readAll => 2
  | .terminating => 1
  | .ended => 0
  | .failed => 0

/-- What is left to do. -/
def Shell.weight (s : Shell) : ℕ :=
  12 * s.adding.length + 8 * (s.commands.length - s.written) +
    (s.stdin.map Request.weight).sum + s.running.toNat + s.alive.toNat + s.writer.weight +
    (s.stdout.all.length - s.consumed) + s.reader.stage.weight +
    (s.commands.length - s.reader.commandIndex)

theorem Stage.weight_le (stage : Stage) : stage.weight ≤ Stage.reading.weight := by
  cases stage <;> decide

/-- Every step leaves less to do. -/
theorem internal_weight {s s' : Shell} {a : Action} (internal : a.Internal)
    (taken : step tables s a = some s') : s'.weight < s.weight := by
  cases a with
  | add | closeShell | timeout | print | dies => cases internal
  | addToCommands i =>
      simp only [step] at taken
      split at taken
      next c found =>
        split_ifs at taken with room
        obtain rfl := Option.some.inj taken
        have fewer := List.length_eraseIdx_of_lt (List.getElem?_eq_some_iff.mp found).1
        have some := (List.getElem?_eq_some_iff.mp found).1
        simp only [Shell.weight, List.length_append, List.length_singleton, fewer]
        omega
      next => cases taken
  | writeCommand =>
      simp only [step] at taken
      split at taken
      next next found =>
        split_ifs at taken with looping
        obtain rfl := Option.some.inj taken
        have inside := (List.getElem?_eq_some_iff.mp found).1
        simp [Shell.weight, Request.weight]
        omega
      next => cases taken
  | findNone =>
      simp only [step] at taken
      split_ifs at taken with none
      obtain rfl := Option.some.inj taken
      simp [Shell.weight, none.1, Writer.weight]
  | writeExit =>
      simp only [step] at taken
      split_ifs at taken with closing
      obtain rfl := Option.some.inj taken
      simp [Shell.weight, closing, Writer.weight, Request.weight]
  | writeFails =>
      simp only [step] at taken
      split_ifs at taken with fails
      obtain rfl := Option.some.inj taken
      have writing : 0 < s.writer.weight := by
        cases writer : s.writer with
        | looping | closing => decide
        | returned => exact absurd writer fails.1
      simpa [Shell.weight, Writer.weight] using writing
  | execute =>
      simp only [step] at taken
      split at taken
      next command rest head =>
        split_ifs at taken with prompt
        obtain rfl := Option.some.inj taken
        simp [Shell.weight, head, prompt.2, Request.weight]
        omega
      next => cases taken
  | ends status =>
      simp only [step] at taken
      split_ifs at taken with running
      obtain rfl := Option.some.inj taken
      simp [Shell.weight, running.2.1]
  | echo =>
      simp only [step] at taken
      split at taken
      next commandIndex rest head =>
        split_ifs at taken with prompt
        obtain rfl := Option.some.inj taken
        have more : (s.stdout.write (marker commandIndex s.lastExit ++ ['\n'])).all.length ≤
            s.stdout.all.length + 1 := by
          rw [LineBuffer.write_line _ (marker_oneLine _ _) (marker_ne_nil _ _)]
          simp [LineBuffer.all, LineBuffer.after, LineBuffer.empty]
        simp [Shell.weight, head, Request.weight]
        omega
      next => cases taken
  | exit =>
      simp only [step] at taken
      split at taken
      next =>
        split_ifs at taken with prompt
        obtain rfl := Option.some.inj taken
        simp [Shell.weight, prompt.1]
      next => cases taken
  | readLine =>
      simp only [step] at taken
      split_ifs at taken with reading
      split at taken
      next line available =>
        obtain rfl := Option.some.inj taken
        have unread : s.consumed < s.stdout.all.length := by
          have inside := (List.getElem?_eq_some_iff.mp available).1
          refine inside.trans_le ?_
          unfold Shell.available
          split_ifs
          · exact (List.prefix_append _ _).length_le
          · exact le_rfl
        have index := (readOutput_keeps tables s.close s.reader s.commands line).index
        have stage := (readOutput tables s.close s.reader s.commands line).1.stage.weight_le
        simp only [Shell.weight, readOutput_length, reading]
        omega
      next => cases taken
  | endOfFile =>
      simp only [step] at taken
      split_ifs at taken with ended
      obtain rfl := Option.some.inj taken
      simp [Shell.weight, ended.1, Stage.weight]
  | waitFor =>
      simp only [step] at taken
      split_ifs at taken with ended
      obtain rfl := Option.some.inj taken
      simp [Shell.weight, ended.1, Stage.weight]
  | terminate =>
      simp only [step] at taken
      split_ifs at taken with terminating left
      · obtain rfl := Option.some.inj taken
        simp [Shell.weight]
        omega
      · obtain rfl := Option.some.inj taken
        simp [Shell.weight, terminating, Stage.weight]

/-- In whatever order the threads go on, they come to rest. -/
theorem internal_run_bounded {s s' : Shell} (actions : List Action)
    (internal : ∀ a ∈ actions, a.Internal) (executed : run (step tables) s actions = some s') :
    s'.weight + actions.length ≤ s.weight := by
  induction actions generalizing s with
  | nil =>
      obtain rfl : s = s' := by simpa only [run, Option.some.injEq] using executed
      exact le_rfl
  | cons a rest ih =>
      obtain ⟨mid, taken, remaining⟩ := Option.bind_eq_some_iff.mp executed
      have first := internal_weight tables (internal a List.mem_cons_self) taken
      have later := ih (fun a member => internal a (List.mem_cons_of_mem _ member)) remaining
      rw [List.length_cons]
      omega

/-- An echo and the end of a command, by the process alone. -/
theorem internal_run_bounded_exit :
    ∃ s s' : Shell, s'.weight + [Action.execute, .ends 3, .echo].length ≤ s.weight ∧
      s.stdin = [.script ["exit 3".toList], .echo 0] ∧ s'.stdin = [] := by
  let s : Shell :=
    { commands := [{ command := ["exit 3".toList] }]
      written := 1
      stdin := [.script ["exit 3".toList], .echo 0] }
  obtain ⟨s', executed, empty⟩ : ∃ s', run (step .ascii) s [.execute, .ends 3, .echo] = some s' ∧
      s'.stdin = [] := ⟨_, rfl, rfl⟩
  exact ⟨s, s', internal_run_bounded .ascii _ (by decide) executed, rfl, empty⟩

/-! ## At rest -/

variable {tables}

/-- Where the process has begun with everything that was written, and no token
    is due. -/
theorem Shell.Inv.scripts_written {s : Shell} (inv : s.Inv) (noToken : s.script = none)
    (all : (s.commands.map (·.command)).take s.written = s.begun) :
    s.scripts.length = s.written := by
  have length := congrArg List.length all
  have bound := inv.written
  rw [Shell.begun, noToken, Option.toList_none, List.append_nil, List.length_take, List.length_map,
    List.length_map] at length
  omega

namespace AtRest

variable {s : Shell}

theorem not_running (rest : AtRest tables s) (alive : s.alive = true) : s.running = false := by
  have ends : step tables s (.ends 0) = none := rest _ trivial
  rw [Bool.eq_false_iff]
  intro running
  simp [step, alive, running] at ends

theorem writer (rest : AtRest tables s) : s.writer ≠ .closing := by
  intro closing
  have exits : step tables s .writeExit = none := rest _ trivial
  simp [step, closing] at exits

/-- Everything was written to the process. -/
theorem written (rest : AtRest tables s) (inv : s.Inv) (looping : s.writer = .looping) :
    s.written = s.commands.length := by
  have written := inv.written
  by_contra some
  have inside : s.written < s.commands.length := by omega
  have writes : step tables s .writeCommand = none := rest _ trivial
  simp [step, looping, inside] at writes

/-- The process has nothing more to do. -/
theorem process (rest : AtRest tables s) (inv : s.Inv) (alive : s.alive = true) :
    s.writer = .looping ∧ s.scripts.length = s.written := by
  have stopped := rest.not_running alive
  obtain ⟨waiting, closing, written, pending, closes⟩ := inv.piped
  have noToken : s.script = none := by
    cases script : s.script with
    | none => rfl
    | some command =>
        have echoes : step tables s .echo = none := rest _ trivial
        simp [step, pending, script, alive, stopped] at echoes
  have nothing : waiting = [] := by
    cases waiting with
    | nil => rfl
    | cons next waiting =>
        have executes : step tables s .execute = none := rest _ trivial
        simp [step, pending, noToken, alive, stopped] at executes
  have open' : closing = [] ∧ (s.writer = .returned → s.alive = false) := by
    refine closes.resolve_right ?_
    rintro ⟨exits, -⟩
    have ends : step tables s .exit = none := rest _ trivial
    simp [step, pending, noToken, nothing, exits, alive, stopped] at ends
  constructor
  · cases writer : s.writer with
    | looping => rfl
    | closing => exact absurd writer rest.writer
    | returned => exact absurd (alive.symm.trans (open'.2 writer)) (by simp)
  · exact inv.scripts_written noToken (by rw [written, nothing, List.append_nil])

/-- Everything was read. -/
theorem reader (rest : AtRest tables s) {k j : ℕ} (heard : s.Heard k j) (inv : s.Inv) :
    k = s.scripts.length := by
  rcases heard.stage with ⟨reading, -⟩ | ended
  · apply heard.all_read inv
    by_contra more
    have inside : s.consumed < s.available.length := by omega
    have reads : step tables s .readLine = none := rest _ trivial
    simp [step, reading, inside] at reads
  · exact ended.2.2.2

end AtRest

/-! ## Closing the shell -/

/-- The process ends when it is told to. -/
def Orderly (s : Shell) (a : Action) : Prop := Quiet s a ∧ a ≠ .dies

instance (s : Shell) (a : Action) : Decidable (Orderly s a) :=
  inferInstanceAs (Decidable (Quiet s a ∧ a ≠ .dies))

/-- These commands were added, and are written before the process is told to exit. -/
structure Drains (added : List (List Text)) (s : Shell) : Prop where
  there : added <+: s.commands.map (·.command)
  closing : s.writer ≠ .looping → added.length ≤ s.written ∧ s.close = true
  dead : s.alive = false → s.writer = .returned ∧ s.scripts.length = s.written

/-- The process is told to exit when it has had everything else. -/
theorem Shell.Inv.exit {s : Shell} (inv : s.Inv) {rest : List Request}
    (head : s.stdin = .exit :: rest) : s.writer = .returned ∧ s.scripts.length = s.written := by
  obtain ⟨waiting, closing, written, pending, closes⟩ := inv.piped
  rw [head] at pending
  cases script : s.script with
  | some command => rw [script] at pending; cases pending
  | none =>
      rw [script] at pending
      cases waiting with
      | cons next waiting => cases pending
      | nil =>
          refine ⟨?_, inv.scripts_written script (by rw [written, List.append_nil])⟩
          rcases closes with ⟨rfl, -⟩ | ⟨-, returned⟩
          · cases pending
          · exact returned

theorem drains_start : Drains [] {} where
  there := List.nil_prefix
  closing := fun closing => absurd rfl closing
  dead := by simp

theorem drains_step {added : List (List Text)} {s s' : Shell} {a : Action} (drains : Drains added s)
    (inv : s.Inv) (orderly : Orderly s a) (taken : step tables s a = some s') : Drains added s' := by
  cases a with
  | add command =>
      simp only [step] at taken
      split_ifs at taken
      obtain rfl := Option.some.inj taken
      exact { drains with }
  | addToCommands i =>
      simp only [step] at taken
      split at taken
      next c found =>
        split_ifs at taken
        obtain rfl := Option.some.inj taken
        refine { drains with there := drains.there.trans ?_ }
        rw [List.map_append]
        exact List.prefix_append _ _
      next => cases taken
  | closeShell =>
      obtain rfl := Option.some.inj taken
      exact { drains with closing := fun closing => ⟨(drains.closing closing).1, rfl⟩ }
  | timeout i =>
      simp only [step] at taken
      split at taken
      next c found =>
        split_ifs at taken
        obtain rfl := Option.some.inj taken
        exact { drains with
          there := (map_command_modify (f := Command.terminated) (fun _ => rfl) _ _).symm ▸ drains.there
          closing := fun closing => ⟨(drains.closing closing).1, rfl⟩ }
      next => cases taken
  | writeCommand =>
      simp only [step] at taken
      split at taken
      next next found =>
        split_ifs at taken with looping
        obtain rfl := Option.some.inj taken
        exact { drains with
          closing := fun closing => absurd looping closing
          dead := fun dead => absurd (looping.symm.trans (drains.dead dead).1) (by simp) }
      next => cases taken
  | findNone =>
      simp only [step] at taken
      split_ifs at taken with none
      obtain rfl := Option.some.inj taken
      obtain ⟨looping, close, all⟩ := none
      have length := drains.there.length_le
      rw [List.length_map] at length
      exact { drains with
        closing := fun _ => ⟨length.trans all, close⟩
        dead := fun dead => absurd (looping.symm.trans (drains.dead dead).1) (by simp) }
  | writeExit =>
      simp only [step] at taken
      split_ifs at taken with closing
      obtain rfl := Option.some.inj taken
      exact { drains with
        closing := fun _ => drains.closing (by rw [closing]; simp)
        dead := fun dead => absurd (closing.symm.trans (drains.dead dead).1) (by simp) }
  | writeFails =>
      simp only [step] at taken
      split_ifs at taken with fails
      exact absurd (drains.dead fails.2).1 fails.1
  | execute =>
      simp only [step] at taken
      split at taken
      next command rest head =>
        split_ifs at taken
        obtain rfl := Option.some.inj taken
        exact { drains with }
      next => cases taken
  | print chunk =>
      simp only [step] at taken
      split_ifs at taken
      obtain rfl := Option.some.inj taken
      exact { drains with }
  | ends status =>
      simp only [step] at taken
      split_ifs at taken
      obtain rfl := Option.some.inj taken
      exact { drains with }
  | echo =>
      simp only [step] at taken
      split at taken
      next commandIndex rest head =>
        split_ifs at taken with prompt
        obtain rfl := Option.some.inj taken
        exact { drains with dead := fun dead => absurd (prompt.1.symm.trans dead) (by simp) }
      next => cases taken
  | exit =>
      simp only [step] at taken
      split at taken
      next rest head =>
        split_ifs at taken with prompt
        obtain rfl := Option.some.inj taken
        exact { drains with dead := fun _ => inv.exit head }
      next => cases taken
  | dies => exact absurd rfl orderly.2
  | readLine =>
      simp only [step] at taken
      split_ifs at taken with reading
      split at taken
      next line available =>
        obtain rfl := Option.some.inj taken
        exact { drains with there := (readOutput_keeps tables _ _ _ _).strings.symm ▸ drains.there }
      next => cases taken
  | endOfFile =>
      simp only [step] at taken
      split_ifs at taken
      obtain rfl := Option.some.inj taken
      exact { drains with }
  | waitFor =>
      simp only [step] at taken
      split_ifs at taken
      obtain rfl := Option.some.inj taken
      exact { drains with }
  | terminate =>
      simp only [step] at taken
      split_ifs at taken
      · obtain rfl := Option.some.inj taken
        exact { drains with
          there := (map_command_modify (f := Command.terminated) (fun _ => rfl) _ _).symm ▸
            drains.there }
      · obtain rfl := Option.some.inj taken
        exact { drains with }

/-- Two commands, one of them given up, and the shell closed before either was
    written. -/
def addAndClose : List Action :=
  [.add ["sleep 20".toList], .addToCommands 0, .add ["id -u".toList], .addToCommands 0]

def closeAndRest : List Action :=
  [.timeout 0, .writeCommand, .writeCommand, .findNone, .execute, .ends 0, .echo, .execute,
    .writeExit, .print "0".toList, .ends 0, .echo, .exit, .readLine, .readLine, .endOfFile, .waitFor,
    .terminate]

def added : Shell := (run (step .ascii) {} addAndClose).getD {}

def closed : Shell := (run (step .ascii) added closeAndRest).getD {}

theorem closed_rests : AtRest .ascii closed := by
  intro a internal
  cases a with
  | addToCommands i =>
      have none : closed.adding = [] := by decide +kernel
      simp [step, none]
  | ends status =>
      have dead : closed.alive = false := by decide +kernel
      simp [step, dead]
  | add | closeShell | timeout | print | dies => cases internal
  | writeCommand | findNone | writeExit | writeFails | execute | echo | exit | readLine | endOfFile
  | waitFor | terminate => decide +kernel

/-- What is still to be added has been told nothing. -/
theorem fresh_step {s s' : Shell} {a : Action}
    (fresh : ∀ c ∈ s.adding, c = { command := c.command }) (taken : step tables s a = some s') :
    ∀ c ∈ s'.adding, c = { command := c.command } := by
  cases a with
  | add command =>
      simp only [step] at taken
      split_ifs at taken
      obtain rfl := Option.some.inj taken
      exact List.forall_mem_append.mpr ⟨fresh, List.forall_mem_singleton.mpr rfl⟩
  | addToCommands k =>
      simp only [step] at taken
      split at taken
      · split_ifs at taken
        obtain rfl := Option.some.inj taken
        exact fun c member => fresh c (List.mem_of_mem_eraseIdx member)
      · cases taken
  | closeShell =>
      obtain rfl := Option.some.inj taken
      exact fresh
  | timeout | writeCommand | execute | echo | exit =>
      simp only [step] at taken
      split at taken
      · split_ifs at taken
        obtain rfl := Option.some.inj taken
        exact fresh
      · cases taken
  | findNone | writeExit | writeFails | print | ends | dies | endOfFile | waitFor =>
      simp only [step] at taken
      split_ifs at taken
      obtain rfl := Option.some.inj taken
      exact fresh
  | readLine =>
      simp only [step] at taken
      split_ifs at taken
      split at taken
      · obtain rfl := Option.some.inj taken
        exact fresh
      · cases taken
  | terminate =>
      simp only [step] at taken
      split_ifs at taken
      · obtain rfl := Option.some.inj taken
        exact fresh
      · obtain rfl := Option.some.inj taken
        exact fresh

/-- A reader that has ended, and a command that it has not seen. -/
structure Unseen (i : ℕ) (s : Shell) : Prop where
  ended : s.reader.stage = .ended
  adding : ∀ c ∈ s.adding, c = { command := c.command }
  command : ∀ c, s.commands[i]? = some c → c = { command := c.command }

theorem unseen_step {i : ℕ} {s s' : Shell} {a : Action} (unseen : Unseen i s)
    (patient : a ≠ .timeout i) (taken : step tables s a = some s') : Unseen i s' := by
  have adding := fresh_step unseen.adding taken
  cases a with
  | addToCommands k =>
      simp only [step] at taken
      split at taken
      next c found =>
        split_ifs at taken
        obtain rfl := Option.some.inj taken
        refine ⟨unseen.ended, adding, fun c' found' => ?_⟩
        rcases Nat.lt_or_ge i s.commands.length with old | new
        · exact unseen.command c' (by rw [← found', List.getElem?_append_left old])
        · rw [List.getElem?_append_right new] at found'
          rw [List.mem_singleton.mp (List.mem_of_getElem? found')]
          exact unseen.adding c (List.mem_of_getElem? found)
      next => cases taken
  | timeout k =>
      simp only [step] at taken
      split at taken
      next c found =>
        split_ifs at taken
        obtain rfl := Option.some.inj taken
        refine ⟨unseen.ended, adding, fun c' found' => ?_⟩
        rcases getElem?_modify_cases found' with ⟨same, -⟩ | ⟨-, found'⟩
        · exact absurd (congrArg Action.timeout same.symm) patient
        · exact unseen.command c' found'
      next => cases taken
  | closeShell =>
      obtain rfl := Option.some.inj taken
      exact ⟨unseen.ended, adding, unseen.command⟩
  | writeCommand | execute | echo | exit =>
      simp only [step] at taken
      split at taken
      · split_ifs at taken
        obtain rfl := Option.some.inj taken
        exact ⟨unseen.ended, adding, unseen.command⟩
      · cases taken
  | add | findNone | writeExit | writeFails | print | ends | dies =>
      simp only [step] at taken
      split_ifs at taken
      obtain rfl := Option.some.inj taken
      exact ⟨unseen.ended, adding, unseen.command⟩
  | readLine | endOfFile | waitFor | terminate => simp [step, unseen.ended] at taken

/-- What is added to a shell whose reader has ended is told nothing, and finished
    by nobody but a client that gives it up. -/
theorem added_after_end_stays {s s' : Shell} (reached : Reachable (step tables) {} s)
    (ended : s.reader.stage = .ended) {i : ℕ} (new : s.commands.length ≤ i)
    (later : Reaches (step tables) (fun _ a => a ≠ .timeout i) s s') {c : Command}
    (found : s'.commands[i]? = some c) : c = { command := c.command } := by
  let Fresh (s : Shell) : Prop := ∀ c ∈ s.adding, c = { command := c.command }
  have initial : Fresh {} := List.forall_mem_nil _
  have fresh : Fresh s :=
    reached.invariant initial fun _ _ _ fresh _ taken => fresh_step fresh taken
  have start : Unseen i s := by
    refine ⟨ended, fresh, fun c found => ?_⟩
    rw [List.getElem?_eq_none new] at found
    cases found
  have unseen := later.invariant start fun _ _ _ unseen patient taken =>
    unseen_step unseen patient taken
  exact unseen.command c found

/-- A process that dies while the shell is open. -/
def processDies : List Action :=
  [.add ["reboot".toList], .addToCommands 0, .writeCommand, .execute, .dies, .endOfFile, .waitFor,
    .terminate, .terminate]

def dead : Shell := (run (step .ascii) {} processDies).getD {}

def afterDead : Shell :=
  (run (step .ascii) dead [.add ["id".toList], .addToCommands 0, .writeCommand]).getD {}

theorem added_after_end_stays_dead :
    ∃ c, afterDead.commands[1]? = some c ∧ c = { command := c.command } := by
  have reached : Reachable (step .ascii) {} dead := reachable_of_run processDies (by decide +kernel)
  have later : Reaches (step .ascii) (fun _ a => a ≠ .timeout 1) dead afterDead :=
    reaches_of_run [.add ["id".toList], .addToCommands 0, .writeCommand] (by decide +kernel)
  have found : afterDead.commands[1]? = some { command := ["id".toList] } := by decide +kernel
  exact ⟨_, found, added_after_end_stays reached (by decide +kernel) (by decide +kernel) later found⟩

end Orbot.RootCommands
