import Orbot.Lib.Numbered
import Orbot.RootCommands.Shell

/-! # Whose output, whose exit code

However the threads of a shell take turns: what a command is told is what its
own script printed, line by line from the first, and the exit code it is given
by the reader is that of its own script.
-/

namespace Orbot.RootCommands

open Java (Text CharTables LineBuffer)
open Lib.Transition Lib.Numbered

/-! ## The lines of the stream -/

/-- The lines of a script, the last one with its token. -/
def Script.block (i : ℕ) (f : Script) : List Text :=
  let b := LineBuffer.empty.write f.printed
  b.ended ++ [b.current ++ marker i f.status]

/-- The lines of scripts that were run one after another. -/
abbrev blocks : ℕ → List Script → List Text := numbered Script.block

theorem blocks_split {k : ℕ} {scripts : List Script} (known : k ≤ scripts.length) :
    blocks 0 scripts = blocks 0 (scripts.take k) ++ blocks k (scripts.drop k) := by
  rw [blocks, numbered_split _ 0 k scripts known, Nat.zero_add]

/-- What is written to the process for these commands. -/
abbrev requests : ℕ → List (List Text) → List Request :=
  numbered fun i command => [.script command, .echo i]

/-! ## The invariant -/

namespace Shell

variable (s : Shell)

/-- The scripts the process has begun with. -/
def begun : List (List Text) := s.scripts.map (·.command) ++ s.script.toList

/-- What was printed for the k-th command. -/
def text (k : ℕ) : Text := (s.scripts.map (·.printed) ++ [s.printed])[k]?.getD []

/-- The lines printed after the last token that the reader can have. -/
def newest : List Text :=
  let b := LineBuffer.empty.write s.printed
  if s.alive then b.ended else b.all

/-- The lines of the k-th command that come before the one with its token. -/
def before (k : ℕ) : List Text :=
  if k < s.scripts.length then (LineBuffer.empty.write (s.text k)).ended else s.newest

/-- The pipe holds the scripts that were written and not begun with, after the
    token that is due. -/
def Piped : Prop :=
  ∃ waiting closing, (s.commands.map (·.command)).take s.written = s.begun ++ waiting ∧
    s.stdin = s.script.toList.map (fun _ => .echo s.scripts.length) ++
      requests s.begun.length waiting ++ closing ∧
    (closing = [] ∧ (s.writer = .returned → s.alive = false) ∨
      closing = [.exit] ∧ s.writer = .returned)

end Shell

/-- A command whose token was not read: it was told these lines, and may have
    been given up. -/
def Command.Told (lines : List Text) (c : Command) : Prop :=
  c = ({ command := c.command } : Command).heard lines ∨
    c = (({ command := c.command } : Command).heard lines).terminated

/-- The command of a script, once the token was read. -/
def Script.result (f : Script) : Command :=
  (({ command := f.command } : Command).heard (Java.lines f.printed)).setExitCode f.status

/-- The reader has read k tokens, and j lines after the last one. -/
structure Shell.Heard (s : Shell) (k j : ℕ) : Prop where
  position : s.consumed = (blocks 0 (s.scripts.take k)).length + j
  known : k ≤ s.scripts.length
  ready : j ≤ (s.before k).length
  passed : ∀ i < k, ∀ c, s.commands[i]? = some c → ∃ f, s.scripts[i]? = some f ∧ c = f.result
  told : ∀ c, s.commands[k]? = some c → c.Told ((Java.lines (s.text k)).take j)
  later : ∀ i, k < i → ∀ c, s.commands[i]? = some c → c.Told []
  index : k ≤ s.reader.commandIndex
  bound : s.reader.commandIndex ≤ s.commands.length
  terminated : ∀ i, k ≤ i → i < s.reader.commandIndex → ∀ c, s.commands[i]? = some c → c.finished
  givenUp : ∀ i, k ≤ i → ∀ c, s.commands[i]? = some c → c.finished = true →
    s.close = true ∨ s.alive = false
  stage : s.reader.stage = .reading ∧ s.reader.commandIndex = k ∨
    s.reader.stage ≠ .reading ∧ s.reader.stage ≠ .failed ∧ s.alive = false ∧ k = s.scripts.length

structure Shell.Inv (s : Shell) : Prop where
  size : s.commands.length ≤ 2147483647
  fresh : ∀ c ∈ s.adding, c = { command := c.command }
  written : s.written ≤ s.commands.length
  piped : s.Piped
  running : s.running = true → s.script.isSome
  unprinted : s.script = none → s.printed = []
  stdout : s.stdout = (LineBuffer.empty.write s.printed).after (blocks 0 s.scripts)
  noToken : ¬ token <:+: s.printed
  prompt : s.running = false → ¬ token <:+: s.printed ++ token.dropLast
  lastExit : s.lastExit < 256
  scripts : ∀ f ∈ s.scripts, ¬ token <:+: f.printed ++ token.dropLast ∧ f.status < 256
  heard : ∃ k j, s.Heard k j

theorem no_token_nil : ¬ token <:+: [] := by decide

theorem no_token_dropLast : ¬ token <:+: [] ++ token.dropLast := by decide

theorem inv_start : ({} : Shell).Inv where
  size := by decide
  fresh := by simp
  written := le_rfl
  piped := ⟨[], [], rfl, rfl, .inl ⟨rfl, by simp⟩⟩
  running := by simp
  unprinted := fun _ => rfl
  stdout := rfl
  noToken := no_token_nil
  prompt := fun _ => no_token_dropLast
  lastExit := by decide
  scripts := by simp
  heard :=
    ⟨0, 0,
      { position := rfl
        known := le_rfl
        ready := Nat.zero_le _
        passed := by simp
        told := by simp
        later := by simp
        index := le_rfl
        bound := le_rfl
        terminated := by simp
        givenUp := by simp
        stage := .inl ⟨rfl, rfl⟩ }⟩

/-! ## What the reader has next -/

namespace Shell

variable {s : Shell}

theorem text_of_lt {k : ℕ} {f : Script} (found : s.scripts[k]? = some f) : s.text k = f.printed := by
  have inside : k < (s.scripts.map (·.printed)).length := by
    rw [List.length_map]
    exact (List.getElem?_eq_some_iff.mp found).1
  rw [text, List.getElem?_append_left inside, List.getElem?_map, found]
  rfl

theorem text_length : s.text s.scripts.length = s.printed := by
  rw [text, List.getElem?_append_right (by simp)]
  simp

theorem newest_printed : s.newest <+: Java.lines s.printed := by
  rw [newest, ← LineBuffer.all_write]
  split_ifs
  · exact List.prefix_append _ _
  · exact List.prefix_refl _

theorem before_printed {k : ℕ} (known : k ≤ s.scripts.length) :
    s.before k <+: Java.lines (s.text k) := by
  unfold before
  split_ifs with older
  · rw [← LineBuffer.all_write]
    exact List.prefix_append _ _
  · obtain rfl : k = s.scripts.length := by omega
    rw [text_length]
    exact newest_printed

theorem begun_le (piped : s.Piped) (written : s.written ≤ s.commands.length) :
    s.begun.length ≤ s.written := by
  obtain ⟨waiting, closing, scripts, -⟩ := piped
  have count := congrArg List.length scripts
  rw [List.length_take, List.length_map, List.length_append, Nat.min_eq_left written] at count
  omega

theorem Inv.available (inv : s.Inv) : s.available = blocks 0 s.scripts ++ s.newest := by
  rw [Shell.available, newest, inv.stdout]
  split_ifs
  · rfl
  · exact LineBuffer.all_after _ _

variable {k j : ℕ} {line : Text}

theorem before_of_ran {f : Script} (found : s.scripts[k]? = some f) :
    s.before k = (LineBuffer.empty.write f.printed).ended := by
  rw [before, if_pos (List.getElem?_eq_some_iff.mp found).1, text_of_lt found]

theorem before_of_not_lt (last : ¬ k < s.scripts.length) : s.before k = s.newest := if_neg last

/-- Some output of the command, or the line with its token. -/
theorem Heard.next (heard : s.Heard k j) (inv : s.Inv)
    (available : s.available[s.consumed]? = some line) :
    (s.before k)[j]? = some line ∨
      ∃ f, s.scripts[k]? = some f ∧ j = (s.before k).length ∧
        line = (LineBuffer.empty.write f.printed).current ++ marker k f.status := by
  rw [inv.available, blocks_split heard.known, List.append_assoc, heard.position, List.getElem?_append_right (Nat.le_add_right _ _), Nat.add_sub_cancel_left]
    at available
  by_cases older : k < s.scripts.length
  · have found : s.scripts[k]? = some s.scripts[k] := List.getElem?_eq_getElem older
    rw [List.drop_eq_getElem_cons older, blocks, numbered_cons, Script.block, List.append_assoc,
      List.append_assoc, ← before_of_ran found] at available
    rcases Nat.lt_or_eq_of_le heard.ready with output | token
    · rw [List.getElem?_append_left output] at available
      exact .inl available
    · rw [token, List.getElem?_append_right le_rfl, Nat.sub_self] at available
      exact .inr ⟨_, found, token, (Option.some.inj available).symm⟩
  · have all : k = s.scripts.length := by have := heard.known; omega
    rw [all, List.drop_length, blocks, numbered_nil, List.nil_append, ← before_of_not_lt older, all]
      at available
    rw [all]
    exact .inl available

/-- The command is there. -/
theorem Heard.inside (heard : s.Heard k j) (inv : s.Inv)
    (more : 0 < (s.before k).length ∨ k < s.scripts.length) : k < s.commands.length := by
  have begun := begun_le inv.piped inv.written
  have written := inv.written
  rw [Shell.begun, List.length_append, List.length_map] at begun
  rcases Nat.lt_or_eq_of_le heard.known with older | rfl
  · omega
  · have printed : s.printed ≠ [] := by
      intro nothing
      rcases more with more | more
      · have lines := (before_printed heard.known).length_le
        rw [text_length, nothing] at lines
        exact absurd (Nat.lt_of_lt_of_le more lines) (Nat.not_lt_zero _)
      · exact absurd more (lt_irrefl _)
    cases script : s.script with
    | none => exact absurd (inv.unprinted script) printed
    | some command =>
        rw [script, Option.toList_some, List.length_singleton] at begun
        omega

end Shell

/-! ## What a step keeps -/

namespace Command

variable {c : Command} {lines : List Text}

theorem Told.processOutput (told : c.Told lines) (line : Text) :
    (c.processOutput line).Told (lines ++ [line]) := by
  unfold Told
  rw [heard_concat]
  rcases told with same | same
  · exact .inl (congrArg (Command.processOutput line) same)
  · exact .inr (congrArg (Command.processOutput line) same)

theorem Told.terminated (told : c.Told lines) : c.terminated.Told lines := by
  rcases told with same | same
  · exact .inr (congrArg Command.terminated same)
  · have twice := congrArg Command.terminated same
    exact .inr twice

/-- The rest of the output and the exit code. -/
theorem Told.finish (told : c.Told lines) (rest : List Text) (code : Int) :
    (c.heard rest).setExitCode code =
      (({ command := c.command } : Command).heard (lines ++ rest)).setExitCode code := by
  have same (d : Command) (given : c = d) :
      (c.heard rest).setExitCode code = (d.heard rest).setExitCode code := by rw [given]
  rw [heard_append]
  rcases told with told | told
  · exact same _ told
  · rw [same _ told, heard_terminated]
    rfl

end Command

theorem getElem?_modify_cases {commands : List Command} {f : Command → Command} {k i : ℕ}
    {c : Command} (found : (commands.modify k f)[i]? = some c) :
    (i = k ∧ ∃ old, commands[k]? = some old ∧ c = f old) ∨ (i ≠ k ∧ commands[i]? = some c) := by
  rw [List.getElem?_modify] at found
  by_cases same : k = i
  · subst same
    obtain ⟨old, before, new⟩ := Option.map_eq_some_iff.mp found
    exact .inl ⟨rfl, old, before, by simpa using new.symm⟩
  · refine .inr ⟨Ne.symm same, ?_⟩
    obtain ⟨old, before, new⟩ := Option.map_eq_some_iff.mp found
    rw [before, ← new, if_neg same]

namespace Shell

variable {s : Shell} {k j : ℕ} {line : Text}

theorem Heard.output (heard : s.Heard k j) (reading : s.reader.stage = .reading)
    (next : (s.before k)[j]? = some line) :
    Heard { s with
      commands := s.commands.modify k (·.processOutput line)
      consumed := s.consumed + 1
      reader := { s.reader with command := true } } k (j + 1) := by
  obtain ⟨-, index⟩ := heard.stage.resolve_right fun left => left.1 reading
  constructor
  case position => rw [heard.position, Nat.add_assoc]
  case known => exact heard.known
  case ready => exact (List.getElem?_eq_some_iff.mp next).1
  case passed =>
    intro i passed c found
    rcases getElem?_modify_cases found with ⟨same, -⟩ | ⟨-, found⟩
    · omega
    · exact heard.passed i passed c found
  case told =>
    intro c found
    rcases getElem?_modify_cases found with ⟨-, old, before, rfl⟩ | ⟨other, -⟩
    · have isNext : (Java.lines (s.text k))[j]? = some line := by
        obtain ⟨rest, lines⟩ := before_printed heard.known
        rw [← lines, List.getElem?_append_left (List.getElem?_eq_some_iff.mp next).1, next]
      have told := (heard.told old before).processOutput line
      rw [← Option.toList_some, ← isNext, ← List.take_add_one] at told
      exact told
    · exact absurd rfl other
  case later =>
    intro i later c found
    rcases getElem?_modify_cases found with ⟨same, -⟩ | ⟨-, found⟩
    · omega
    · exact heard.later i later c found
  case index => exact heard.index
  case bound => exact (List.length_modify _ _ _).symm ▸ heard.bound
  case terminated =>
    intro i from' before
    have : i < s.reader.commandIndex := before
    omega
  case givenUp =>
    intro i from' c found finished
    rcases getElem?_modify_cases found with ⟨rfl, old, before, rfl⟩ | ⟨-, found⟩
    · exact heard.givenUp _ from' old before finished
    · exact heard.givenUp i from' c found finished
  case stage => exact .inl ⟨reading, index⟩

/-- The scripts are those of the commands. -/
theorem command_eq (piped : s.Piped) {f : Script} {c : Command} (ran : s.scripts[k]? = some f)
    (found : s.commands[k]? = some c) : c.command = f.command := by
  obtain ⟨waiting, closing, scripts, -⟩ := piped
  have inside : k < (s.scripts.map (·.command)).length := by
    rw [List.length_map]
    exact (List.getElem?_eq_some_iff.mp ran).1
  have same := congrArg (·[k]?) scripts
  simp only [begun, List.append_assoc] at same
  rw [List.getElem?_append_left inside, List.getElem?_map, ran, List.getElem?_take] at same
  split_ifs at same
  · rw [List.getElem?_map, found] at same
    exact Option.some.inj same
  · cases same

theorem lines_eq {f : Script} (older : s.scripts[k]? = some f) :
    Java.lines (s.text k) =
      s.before k ++ rest (LineBuffer.empty.write f.printed).current := by
  rw [before_of_ran older, text_of_lt older, ← LineBuffer.all_write]
  rfl

theorem Heard.readToken (heard : s.Heard k j) (piped : s.Piped) (reading : s.reader.stage = .reading)
    (there : k < s.commands.length)
    {f : Script} (ran : s.scripts[k]? = some f) (last : j = (s.before k).length) :
    Heard { s with
      commands := s.commands.modify k fun c =>
        (c.heard (rest (LineBuffer.empty.write f.printed).current)).setExitCode f.status
      consumed := s.consumed + 1
      reader := { s.reader with commandIndex := k + 1, command := false } } (k + 1) 0 := by
  have inside := (List.getElem?_eq_some_iff.mp ran).1
  have taken : (Java.lines (s.text k)).take j = s.before k := by
    rw [lines_eq ran, last, List.take_left]
  constructor
  case position =>
    have block : f.block k = s.before k ++
        [(LineBuffer.empty.write f.printed).current ++ marker k f.status] := by
      rw [Script.block, before_of_ran ran]
    rw [heard.position, last, List.take_add_one, ran, Option.toList_some, blocks, numbered_concat,
      List.length_take, Nat.min_eq_left heard.known, Nat.zero_add, block]
    simp only [List.length_append, List.length_singleton]
    omega
  case known => exact inside
  case ready => exact Nat.zero_le _
  case passed =>
    intro i passed c found
    rcases getElem?_modify_cases found with ⟨rfl, old, before, rfl⟩ | ⟨other, found⟩
    · refine ⟨f, ran, ?_⟩
      rw [(heard.told old before).finish, taken, ← lines_eq ran, text_of_lt ran,
        command_eq piped ran before]
      rfl
    · exact heard.passed i (by omega) c found
  case told =>
    intro c found
    rcases getElem?_modify_cases found with ⟨same, -⟩ | ⟨-, found⟩
    · omega
    · exact heard.later (k + 1) (by omega) c found
  case later =>
    intro i later c found
    rcases getElem?_modify_cases found with ⟨same, -⟩ | ⟨-, found⟩
    · omega
    · exact heard.later i (by omega) c found
  case index => exact le_rfl
  case bound => exact (List.length_modify _ _ _).symm ▸ there
  case terminated =>
    intro i from' before
    have : i < k + 1 := before
    omega
  case givenUp =>
    intro i from' c found finished
    rcases getElem?_modify_cases found with ⟨same, -⟩ | ⟨-, found⟩
    · omega
    · exact heard.givenUp i (by omega) c found finished
  case stage => exact .inl ⟨reading, rfl⟩

/-- Output has no token in it. -/
theorem Inv.before_no_token (inv : s.Inv)
    (next : (s.before k)[j]? = some line) : ¬ token <:+: line := by
  have member := List.mem_of_getElem? next
  unfold before at member
  split_ifs at member with older
  · have found : s.scripts[k]? = some s.scripts[k] := List.getElem?_eq_getElem older
    rw [text_of_lt found] at member
    have quiet := (inv.scripts _ (List.mem_of_getElem? found)).1
    rcases LineBuffer.infix_of_mem_ended _ member with none | inside
    · cases none
    · exact fun has => quiet ((has.trans inside).trans (List.prefix_append _ _).isInfix)
  · have inside := LineBuffer.infix_of_mem_lines (newest_printed.subset member)
    exact fun has => inv.noToken (has.trans inside)

/-- What a turn of the loop makes of the line. -/
theorem Heard.readLine (tables : CharTables) (heard : s.Heard k j) (inv : s.Inv)
    (reading : s.reader.stage = .reading) (available : s.available[s.consumed]? = some line) :
    ∃ k j, Heard { s with
      commands := (readOutput tables s.close s.reader s.commands line).2
      consumed := s.consumed + 1
      reader := (readOutput tables s.close s.reader s.commands line).1 } k j := by
  obtain ⟨-, rfl⟩ := heard.stage.resolve_right fun left => left.1 reading
  have process (inside : s.reader.commandIndex < s.commands.length) :
      readOutput tables s.close s.reader s.commands line =
        processLine tables { s.reader with command := true } s.commands line := by
    unfold readOutput
    split_ifs with command gone
    · rw [← command]
    · omega
    · omega
    · rfl
  rcases heard.next inv available with output | ⟨f, ran, last, rfl⟩
  · have inside := heard.inside inv (.inl (Nat.zero_lt_of_lt (List.getElem?_eq_some_iff.mp output).1))
    rw [process inside, processLine_of_no_token tables _ _ (inv.before_no_token output)]
    exact ⟨_, j + 1, heard.output reading output⟩
  · have inside := heard.inside inv (.inr (List.getElem?_eq_some_iff.mp ran).1)
    have size := inv.size
    obtain ⟨quiet, exits⟩ := inv.scripts f (List.mem_of_getElem? ran)
    have noToken : ¬ token <:+: (LineBuffer.empty.write f.printed).current ++ token.dropLast := by
      obtain ⟨before, whole⟩ := LineBuffer.current_suffix LineBuffer.empty f.printed
      have printed : before ++ (LineBuffer.empty.write f.printed).current = f.printed := whole
      rw [← printed, List.append_assoc] at quiet
      exact fun has => quiet (has.trans (List.suffix_append _ _).isInfix)
    have small : s.reader.commandIndex < 2147483648 := by omega
    rw [process inside, processLine_marker tables { s.reader with command := true } _ noToken small
      (by omega)]
    exact ⟨_, 0, heard.readToken inv.piped reading inside ran last⟩

/-- Where nothing is left to read every token was read. -/
theorem Heard.all_read (heard : s.Heard k j) (inv : s.Inv)
    (read : s.available.length ≤ s.consumed) : k = s.scripts.length := by
  have known := heard.known
  have ready := heard.ready
  have size : (blocks 0 s.scripts).length =
      (blocks 0 (s.scripts.take k)).length + (blocks k (s.scripts.drop k)).length := by
    rw [blocks_split known, List.length_append]
  rw [inv.available, heard.position, List.length_append] at read
  by_cases older : k < s.scripts.length
  · have found : s.scripts[k]? = some s.scripts[k] := List.getElem?_eq_getElem older
    rw [List.drop_eq_getElem_cons older, blocks, numbered_cons, Script.block, ← before_of_ran found]
      at size
    simp only [List.length_append, List.length_singleton, blocks] at size read
    omega
  · omega

theorem Heard.addToCommands (heard : s.Heard k j) (inv : s.Inv) {new : Command}
    (fresh : new = { command := new.command }) (adding : List Command) :
    Heard { s with adding, commands := s.commands ++ [new] } k j := by
  have cases' {i : ℕ} {c : Command} (found : (s.commands ++ [new])[i]? = some c) :
      s.commands[i]? = some c ∨ i = s.commands.length ∧ c = new := by
    rcases Nat.lt_or_ge i s.commands.length with old | last
    · rw [List.getElem?_append_left old] at found
      exact .inl found
    · rw [List.getElem?_append_right last, List.getElem?_singleton] at found
      split_ifs at found with last
      exact .inr ⟨by omega, (Option.some.inj found).symm⟩
  have index := heard.index
  have bound := heard.bound
  refine { heard with
    passed := ?passed, told := ?told, later := ?later, bound := ?bound, terminated := ?terminated
    givenUp := ?givenUp }
  case passed =>
    intro i passed c found
    rcases cases' found with found | ⟨last, rfl⟩
    · exact heard.passed i passed c found
    · omega
  case told =>
    intro c found
    rcases cases' found with found | ⟨last, rfl⟩
    · exact heard.told c found
    · obtain rfl : j = 0 := by
        by_contra some
        have ready := heard.ready
        have inside := heard.inside inv (.inl (by omega))
        omega
      exact .inl fresh
  case later =>
    intro i later c found
    rcases cases' found with found | ⟨last, rfl⟩
    · exact heard.later i later c found
    · exact .inl fresh
  case bound => exact bound.trans (List.prefix_append _ _).length_le
  case terminated =>
    intro i from' before c found
    rcases cases' found with found | ⟨last, rfl⟩
    · exact heard.terminated i from' before c found
    · have : i < s.reader.commandIndex := before
      omega
  case givenUp =>
    intro i from' c found finished
    rcases cases' found with found | ⟨last, rfl⟩
    · exact heard.givenUp i from' c found finished
    · rw [fresh] at finished
      cases finished

/-- A command that was finished by the reader is not given up any more. -/
theorem Heard.giveUp (heard : s.Heard k j) {i : ℕ} {c : Command} (found : s.commands[i]? = some c)
    (waits : c.finished = false) :
    Heard { s with close := true, commands := s.commands.modify i (·.terminated) } k j := by
  have open' : k ≤ i := by
    by_contra passed
    obtain ⟨f, -, rfl⟩ := heard.passed i (by omega) c found
    cases waits
  refine { heard with
    passed := ?passed, told := ?told, later := ?later, bound := ?bound, terminated := ?terminated
    givenUp := fun _ _ _ _ _ => .inl rfl }
  case passed =>
    intro i' passed c' found'
    rcases getElem?_modify_cases found' with ⟨same, -⟩ | ⟨-, found'⟩
    · omega
    · exact heard.passed i' passed c' found'
  case told =>
    intro c' found'
    rcases getElem?_modify_cases found' with ⟨rfl, old, before, rfl⟩ | ⟨-, found'⟩
    · exact (heard.told old before).terminated
    · exact heard.told c' found'
  case later =>
    intro i' later c' found'
    rcases getElem?_modify_cases found' with ⟨rfl, old, before, rfl⟩ | ⟨-, found'⟩
    · exact (heard.later i' later old before).terminated
    · exact heard.later i' later c' found'
  case bound => exact (List.length_modify _ _ _).symm ▸ heard.bound
  case terminated =>
    intro i' from' before c' found'
    rcases getElem?_modify_cases found' with ⟨rfl, old, -, rfl⟩ | ⟨-, found'⟩
    · rfl
    · exact heard.terminated i' from' before c' found'

/-- Where more lines come, what was read stays. -/
theorem take_lines {s' : Shell} (known : k ≤ s.scripts.length) (known' : k ≤ s'.scripts.length)
    (grows : s.before k <+: s'.before k) (ready : j ≤ (s.before k).length) :
    (Java.lines (s'.text k)).take j = (Java.lines (s.text k)).take j := by
  have taken {lines : List Text} (isPrefix : s.before k <+: lines) :
      lines.take j = (s.before k).take j := by
    obtain ⟨more, rfl⟩ := isPrefix
    exact List.take_append_of_le_length ready
  rw [taken (before_printed known), taken (grows.trans (before_printed known'))]

/-- The process goes on, or ends. -/
theorem Heard.goesOn {s' : Shell} (heard : s.Heard k j) (grows : s.before k <+: s'.before k)
    (scripts : s.scripts <+: s'.scripts)
    (alive : s.alive = false → s'.alive = false ∧ s'.scripts = s.scripts)
    (commands : s'.commands = s.commands) (close : s'.close = s.close)
    (consumed : s'.consumed = s.consumed) (reader : s'.reader = s.reader) : s'.Heard k j := by
  have known := heard.known.trans scripts.length_le
  constructor
  case position =>
    obtain ⟨more, same⟩ := scripts
    rw [consumed, heard.position, ← same, List.take_append_of_le_length heard.known]
  case known => exact known
  case ready => exact heard.ready.trans grows.length_le
  case passed =>
    intro i passed c found
    obtain ⟨f, ran, result⟩ := heard.passed i passed c (commands ▸ found)
    obtain ⟨more, same⟩ := scripts
    refine ⟨f, ?_, result⟩
    rw [← same, List.getElem?_append_left (List.getElem?_eq_some_iff.mp ran).1, ran]
  case told =>
    rw [commands, take_lines heard.known known grows heard.ready]
    exact heard.told
  case later => exact commands ▸ heard.later
  case index => exact reader ▸ heard.index
  case bound => exact reader ▸ commands ▸ heard.bound
  case terminated => exact reader ▸ commands ▸ heard.terminated
  case givenUp =>
    intro i from' c found finished
    rw [close]
    exact (heard.givenUp i from' c (commands ▸ found) finished).imp_right fun dead => (alive dead).1
  case stage =>
    rw [reader]
    apply heard.stage.imp_right
    rintro ⟨notReading, notFailed, dead, all⟩
    obtain ⟨dead', same⟩ := alive dead
    exact ⟨notReading, notFailed, dead', same ▸ all⟩

theorem before_print (alive : s.alive = true) (chunk : Text) (stdout : LineBuffer) (k : ℕ) :
    s.before k <+: before { s with printed := s.printed ++ chunk, stdout } k := by
  by_cases older : k < s.scripts.length
  · have found : s.scripts[k]? = some s.scripts[k] := List.getElem?_eq_getElem older
    rw [before_of_ran found, before_of_ran (s := { s with printed := _, stdout }) found]
  · rw [before_of_not_lt older, before_of_not_lt (s := { s with printed := _, stdout }) older]
    simp only [newest, alive, if_true, LineBuffer.write_append]
    exact LineBuffer.ended_prefix _ _

theorem before_processEnds (k : ℕ) : s.before k <+: before { s with alive := false } k := by
  by_cases older : k < s.scripts.length
  · have found : s.scripts[k]? = some s.scripts[k] := List.getElem?_eq_getElem older
    rw [before_of_ran found, before_of_ran (s := { s with alive := false }) found]
  · rw [before_of_not_lt older, before_of_not_lt (s := { s with alive := false }) older]
    unfold newest
    cases s.alive with
    | true => exact List.prefix_append _ _
    | false => exact List.prefix_refl _

theorem before_echo (alive : s.alive = true) (known : k ≤ s.scripts.length) (stdin : List Request)
    (stdout : LineBuffer) (command : List Text) :
    s.before k <+: before { s with
      stdin
      script := none
      printed := []
      scripts := s.scripts ++ [⟨command, s.printed, s.lastExit⟩]
      stdout } k := by
  rcases Nat.lt_or_eq_of_le known with older | rfl
  · have found : s.scripts[k]? = some s.scripts[k] := List.getElem?_eq_getElem older
    rw [before_of_ran found, before_of_ran ((List.getElem?_append_left older).trans found)]
  · have found : (s.scripts ++ [(⟨command, s.printed, s.lastExit⟩ : Script)])[s.scripts.length]? =
        some ⟨command, s.printed, s.lastExit⟩ := by
      rw [List.getElem?_append_right le_rfl, Nat.sub_self]
      rfl
    rw [before_of_not_lt (lt_irrefl _), before_of_ran found, newest, alive]
    exact List.prefix_refl _

/-- One of the commands that are left when the output has ended. -/
theorem Heard.terminate (heard : s.Heard k j) (terminating : s.reader.stage = .terminating)
    (left : s.reader.commandIndex < s.commands.length) :
    Heard { s with
      commands := s.commands.modify s.reader.commandIndex (·.terminated)
      reader := { s.reader with
        commandIndex := s.reader.commandIndex + 1
        command := false } } k j := by
  have index := heard.index
  have ended := heard.stage.resolve_left fun reading =>
    absurd (terminating.symm.trans reading.1) (by simp)
  refine { heard with
    passed := ?passed, told := ?told, later := ?later, index := ?index, bound := ?bound
    terminated := ?terminated, givenUp := fun _ _ _ _ _ => .inr ended.2.2.1, stage := .inr ended }
  case passed =>
    intro i passed c found
    rcases getElem?_modify_cases found with ⟨same, -⟩ | ⟨-, found⟩
    · omega
    · exact heard.passed i passed c found
  case told =>
    intro c found
    rcases getElem?_modify_cases found with ⟨same, old, before, rfl⟩ | ⟨-, found⟩
    · exact (heard.told old (same ▸ before)).terminated
    · exact heard.told c found
  case later =>
    intro i later c found
    rcases getElem?_modify_cases found with ⟨same, old, before, rfl⟩ | ⟨-, found⟩
    · exact (heard.later i later old (same ▸ before)).terminated
    · exact heard.later i later c found
  case index => exact index.trans (Nat.le_succ _)
  case bound => exact (List.length_modify _ _ _).symm ▸ left
  case terminated =>
    intro i from' before c found
    rcases getElem?_modify_cases found with ⟨-, old, -, rfl⟩ | ⟨other, found⟩
    · rfl
    · have : i < s.reader.commandIndex + 1 := before
      exact heard.terminated i from' (by omega) c found

end Shell

theorem map_command_modify {f : Command → Command} (keeps : ∀ c, (f c).command = c.command)
    (commands : List Command) (i : ℕ) :
    (commands.modify i f).map (·.command) = commands.map (·.command) := by
  apply List.ext_getElem?
  intro k
  rw [List.getElem?_map, List.getElem?_modify, List.getElem?_map, Option.map_eq_map, Option.map_map]
  congr 1
  funext c
  by_cases same : i = k
  · rw [Function.comp_apply, if_pos same, keeps]
  · rw [Function.comp_apply, if_neg same]

/-- From a list of commands, n of them ended by the reader, to a later one. -/
structure Keeps (commands : List Command) (n : ℕ) (commands' : List Command) (n' : ℕ) : Prop where
  index : n ≤ n'
  strings : commands'.map (·.command) = commands.map (·.command)
  same : ∀ i < n, commands'[i]? = commands[i]?
  settled : (∀ i c, commands[i]? = some c → c.finished = true → i < n) →
    ∀ i c, commands'[i]? = some c → c.finished = true → i < n'

theorem Keeps.refl (commands : List Command) (n : ℕ) : Keeps commands n commands n :=
  ⟨le_rfl, rfl, fun _ _ => rfl, id⟩

theorem Keeps.trans {first second third : List Command} {n m k : ℕ} (left : Keeps first n second m)
    (right : Keeps second m third k) : Keeps first n third k :=
  ⟨left.index.trans right.index, right.strings.trans left.strings,
    fun i inside => (right.same i (inside.trans_le left.index)).trans (left.same i inside),
    fun settled => right.settled (left.settled settled)⟩

/-- A change to the next command, which may end it. -/
theorem Keeps.modify {f : Command → Command} {n n' : ℕ} (commands : List Command) (index : n ≤ n')
    (strings : ∀ c, (f c).command = c.command)
    (ends : (∀ c, (f c).finished = c.finished) ∨ n < n') :
    Keeps commands n (commands.modify n f) n' where
  index
  strings := map_command_modify strings commands n
  same i inside := by
    have other : n ≠ i := by omega
    simp [other]
  settled settled i c found finished := by
    rcases getElem?_modify_cases found with ⟨rfl, old, before, rfl⟩ | ⟨-, found⟩
    · rcases ends with same | later
      · exact (settled i old before (same old ▸ finished)).trans_le index
      · exact later
    · exact (settled i c found finished).trans_le index

theorem readOutput_keeps (tables : CharTables) (close : Bool) (r : ReadOutput) (commands : List Command) (line : Text) :
    Keeps commands r.commandIndex (readOutput tables close r commands line).2
      (readOutput tables close r commands line).1.commandIndex := by
  have told (commands : List Command) (n : ℕ) (line : Text) :
      Keeps commands n (commands.modify n (·.processOutput line)) n :=
    .modify commands le_rfl (fun _ => rfl) (.inl fun _ => rfl)
  have process (r : ReadOutput) : Keeps commands r.commandIndex
      (processLine tables r commands line).2 (processLine tables r commands line).1.commandIndex := by
    unfold processLine
    cases Java.indexOfText line token with
    | none => exact told _ _ _
    | some pos =>
        have front : Keeps commands r.commandIndex
            (if pos > 0 then commands.modify r.commandIndex (·.processOutput (line.take pos))
              else commands) r.commandIndex := by
          split_ifs
          · exact told _ _ _
          · exact .refl _ _
        dsimp only
        cases tokenExitCode tables r.commandIndex (line.drop pos) with
        | error => exact front
        | ok exitCode =>
            cases exitCode with
            | none => exact front.trans (told _ _ _)
            | some code =>
                exact front.trans
                  (.modify _ (Nat.le_succ _) (fun _ => rfl) (.inr (Nat.lt_succ_self _)))
  unfold readOutput
  split_ifs
  · exact process r
  · exact .refl _ _
  · exact .refl _ _
  · exact process { r with command := true }

theorem readOutput_length (tables : CharTables) (close : Bool) (r : ReadOutput)
    (commands : List Command) (line : Text) :
    (readOutput tables close r commands line).2.length = commands.length := by
  have same := congrArg List.length (readOutput_keeps tables close r commands line).strings
  rwa [List.length_map, List.length_map] at same

namespace Shell

variable {s : Shell}

theorem Piped.congr {s' : Shell} (piped : s.Piped)
    (commands : (s'.commands.map (·.command)).take s'.written =
      (s.commands.map (·.command)).take s.written)
    (scripts : s'.scripts = s.scripts) (script : s'.script = s.script) (stdin : s'.stdin = s.stdin)
    (alive : s.alive = false → s'.alive = false)
    (writer : s'.writer = .returned ↔ s.writer = .returned) : s'.Piped := by
  obtain ⟨waiting, closing, written, pending, closes⟩ := piped
  have begun : s'.begun = s.begun := by rw [Shell.begun, scripts, script, Shell.begun]
  refine ⟨waiting, closing, ?_, ?_, ?_⟩
  · rw [commands, begun, written]
  · rw [stdin, script, scripts, begun, pending]
  · rw [writer]
    exact closes.imp_left fun open' => ⟨open'.1, fun returned => alive (open'.2 returned)⟩

theorem Piped.writeCommand (piped : s.Piped) (looping : s.writer = .looping) {next : Command}
    (found : s.commands[s.written]? = some next) :
    Piped { s with
      stdin := s.stdin ++ [.script next.command, .echo s.written]
      written := s.written + 1 } := by
  obtain ⟨waiting, closing, written, pending, closes⟩ := piped
  have count : s.written = s.begun.length + waiting.length := by
    have inside := (List.getElem?_eq_some_iff.mp found).1
    have length := congrArg List.length written
    rw [List.length_take, List.length_map, List.length_append] at length
    omega
  have nothing : closing = [] := by
    rcases closes with ⟨nothing, -⟩ | ⟨-, returned⟩
    · exact nothing
    · rw [looping] at returned
      cases returned
  have more : requests s.begun.length (waiting ++ [next.command]) =
      requests s.begun.length waiting ++ [.script next.command, .echo s.written] := by
    rw [requests, numbered_concat, ← count]
  refine ⟨waiting ++ [next.command], [], ?_, ?_, .inl ⟨rfl, fun returned => absurd (looping.symm.trans returned) (by simp)⟩⟩
  · rw [List.take_add_one, List.getElem?_map, found, written, List.append_assoc]
    rfl
  · rw [pending, nothing, List.append_nil, List.append_nil, List.append_assoc, ← more]
    rfl

theorem Piped.writeExit (piped : s.Piped) (closing : s.writer = .closing) :
    Piped { s with writer := .returned, stdin := s.stdin ++ [.exit] } := by
  obtain ⟨waiting, rest, written, pending, closes⟩ := piped
  have nothing : rest = [] := by
    rcases closes with ⟨nothing, -⟩ | ⟨-, returned⟩
    · exact nothing
    · rw [closing] at returned
      cases returned
  refine ⟨waiting, [.exit], written, ?_, .inr ⟨rfl, rfl⟩⟩
  rw [pending, nothing, List.append_nil]
  rfl

theorem Piped.writeFails (piped : s.Piped) (writing : s.writer ≠ .returned)
    (dead : s.alive = false) : Piped { s with writer := .returned } := by
  obtain ⟨waiting, rest, written, pending, closes⟩ := piped
  have nothing := closes.resolve_right fun exits => writing exits.2
  exact ⟨waiting, rest, written, pending, .inl ⟨nothing.1, fun _ => dead⟩⟩

/-- A script at the head of the pipe is the next one, and no token is due. -/
theorem Piped.execute (piped : s.Piped) {command : List Text} {rest : List Request}
    (head : s.stdin = .script command :: rest) :
    s.script = none ∧ Piped { s with stdin := rest, running := true, script := some command } := by
  obtain ⟨waiting, closing, written, pending, closes⟩ := piped
  rw [head] at pending
  cases script : s.script with
  | some other => rw [script] at pending; cases pending
  | none =>
      have begun : s.begun = s.scripts.map (·.command) := by
        rw [Shell.begun, script, Option.toList_none, List.append_nil]
      rw [script, begun, List.length_map] at pending
      cases waiting with
      | nil => rcases closes with ⟨rfl, -⟩ | ⟨rfl, -⟩ <;> cases pending
      | cons next waiting =>
          obtain ⟨same, rest⟩ := List.cons.inj pending
          obtain rfl := Request.script.inj same
          refine ⟨rfl, waiting, closing, ?_, ?_, closes⟩
          · rw [written, begun]
            simp [Shell.begun]
          · rw [rest]
            simp [Shell.begun]

/-- A token that is printed is that of the script before it. -/
theorem Piped.echo (piped : s.Piped) {commandIndex : ℕ} {rest : List Request}
    (head : s.stdin = .echo commandIndex :: rest) (stdout : LineBuffer) :
    commandIndex = s.scripts.length ∧ Piped { s with
      stdin := rest
      script := none
      printed := []
      scripts := s.scripts ++ [⟨s.script.getD [], s.printed, s.lastExit⟩]
      stdout } := by
  obtain ⟨waiting, closing, written, pending, closes⟩ := piped
  rw [head] at pending
  cases script : s.script with
  | none =>
      rw [script] at pending
      cases waiting with
      | nil => rcases closes with ⟨rfl, -⟩ | ⟨rfl, -⟩ <;> cases pending
      | cons next waiting => cases pending
  | some command =>
      rw [script] at pending
      obtain ⟨same, rest⟩ := List.cons.inj pending
      refine ⟨Request.echo.inj same, waiting, closing, ?_, ?_, closes⟩
      · rw [written, Shell.begun, script]
        simp [Shell.begun]
      · rw [rest, Shell.begun, script]
        simp [Shell.begun]

end Shell

theorem Shell.Inv.processEnds {s : Shell} (inv : s.Inv) : Shell.Inv { s with alive := false } := by
  obtain ⟨k, j, heard⟩ := inv.heard
  exact { inv with
    piped := inv.piped.congr rfl rfl rfl rfl (fun _ => rfl) .rfl
    heard := ⟨k, j, heard.goesOn (Shell.before_processEnds k) (List.prefix_refl _)
      (fun _ => ⟨rfl, rfl⟩) rfl rfl rfl rfl⟩ }

theorem inv_step (tables : CharTables) {s s' : Shell} (a : Action) (inv : s.Inv) (quiet : Quiet s a)
    (taken : step tables s a = some s') : s'.Inv := by
  obtain ⟨k, j, heard⟩ := inv.heard
  cases a with
  | add command =>
      simp only [step] at taken
      split_ifs at taken
      obtain rfl := Option.some.inj taken
      refine { inv with fresh := ?fresh, piped := ?piped, heard := ?heard }
      case fresh =>
        intro c member
        rcases List.mem_append.mp member with old | new
        · exact inv.fresh c old
        · rw [List.mem_singleton.mp new]
      case piped => exact inv.piped.congr rfl rfl rfl rfl id .rfl
      case heard => exact ⟨k, j, { heard with }⟩
  | addToCommands i =>
      simp only [step] at taken
      split at taken
      next c found =>
        split_ifs at taken with room
        obtain rfl := Option.some.inj taken
        have fresh := inv.fresh c (List.mem_of_getElem? found)
        refine { inv with
          size := ?size, fresh := ?fresh, written := ?written, piped := ?piped, heard := ?heard }
        case size =>
          rw [List.length_append]
          exact room
        case fresh => exact fun c member => inv.fresh c (List.mem_of_mem_eraseIdx member)
        case written => exact inv.written.trans (List.prefix_append _ _).length_le
        case piped =>
          refine inv.piped.congr ?_ rfl rfl rfl id .rfl
          rw [List.map_append, List.take_append_of_le_length]
          rw [List.length_map]
          exact inv.written
        case heard => exact ⟨k, j, heard.addToCommands inv fresh _⟩
      next => cases taken
  | closeShell =>
      obtain rfl := Option.some.inj taken
      exact { inv with
        piped := inv.piped.congr rfl rfl rfl rfl id .rfl
        heard := ⟨k, j, { heard with givenUp := fun _ _ _ _ _ => .inl rfl }⟩ }
  | timeout i =>
      simp only [step] at taken
      split at taken
      next c found =>
        split_ifs at taken with finished
        obtain rfl := Option.some.inj taken
        have waits : c.finished = false := Bool.eq_false_iff.mpr finished
        exact { inv with
          size := (List.length_modify _ _ _).symm ▸ inv.size
          written := (List.length_modify _ _ _).symm ▸ inv.written
          piped := inv.piped.congr (congrArg (List.take s.written)
            (map_command_modify (f := Command.terminated) (fun _ => rfl) _ _)) rfl rfl rfl id .rfl
          heard := ⟨k, j, heard.giveUp found waits⟩ }
      next => cases taken
  | writeCommand =>
      simp only [step] at taken
      split at taken
      next next found =>
        split_ifs at taken with looping
        obtain rfl := Option.some.inj taken
        exact { inv with
          written := (List.getElem?_eq_some_iff.mp found).1
          piped := inv.piped.writeCommand looping found
          heard := ⟨k, j, { heard with }⟩ }
      next => cases taken
  | findNone =>
      simp only [step] at taken
      split_ifs at taken with none
      obtain rfl := Option.some.inj taken
      exact { inv with
        piped := inv.piped.congr rfl rfl rfl rfl id
          ⟨by simp, fun returned => absurd (none.1.symm.trans returned) (by simp)⟩
        heard := ⟨k, j, { heard with }⟩ }
  | writeExit =>
      simp only [step] at taken
      split_ifs at taken with closing
      obtain rfl := Option.some.inj taken
      exact { inv with piped := inv.piped.writeExit closing, heard := ⟨k, j, { heard with }⟩ }
  | writeFails =>
      simp only [step] at taken
      split_ifs at taken with fails
      obtain rfl := Option.some.inj taken
      exact { inv with
        piped := inv.piped.writeFails fails.1 fails.2
        heard := ⟨k, j, { heard with }⟩ }
  | execute =>
      simp only [step] at taken
      split at taken
      next command rest head =>
        split_ifs at taken with prompt
        obtain rfl := Option.some.inj taken
        obtain ⟨none, piped⟩ := inv.piped.execute head
        exact { inv with
          piped
          running := fun _ => rfl
          unprinted := fun _ => inv.unprinted none
          prompt := by simp
          heard := ⟨k, j, { heard with }⟩ }
      next => cases taken
  | print chunk =>
      simp only [step] at taken
      split_ifs at taken with running
      obtain rfl := Option.some.inj taken
      obtain ⟨alive, running⟩ := running
      refine { inv with
        piped := ?piped, unprinted := ?unprinted, stdout := ?stdout, noToken := quiet
        prompt := ?prompt, heard := ?heard }
      case piped => exact inv.piped.congr rfl rfl rfl rfl id .rfl
      case unprinted =>
        intro none
        have some := inv.running running
        rw [none] at some
        cases some
      case stdout => rw [inv.stdout, LineBuffer.write_after, LineBuffer.write_append]
      case prompt => exact fun stopped => absurd (running.symm.trans stopped) (by simp)
      case heard =>
        exact ⟨k, j, heard.goesOn (Shell.before_print alive chunk _ k) (List.prefix_refl _)
          (fun dead => absurd (alive.symm.trans dead) (by simp)) rfl rfl rfl rfl⟩
  | ends status =>
      simp only [step] at taken
      split_ifs at taken with running
      obtain rfl := Option.some.inj taken
      exact { inv with
        piped := inv.piped.congr rfl rfl rfl rfl id .rfl
        running := by simp
        prompt := fun _ => quiet
        lastExit := running.2.2
        heard := ⟨k, j, { heard with }⟩ }
  | echo =>
      simp only [step] at taken
      split at taken
      next commandIndex rest head =>
        split_ifs at taken with prompt
        obtain rfl := Option.some.inj taken
        obtain ⟨alive, stopped⟩ := prompt
        obtain ⟨rfl, piped⟩ := inv.piped.echo head
          (s.stdout.write (marker commandIndex s.lastExit ++ ['\n']))
        refine { inv with
          piped, running := ?running, unprinted := fun _ => rfl, stdout := ?stdout
          noToken := no_token_nil, prompt := fun _ => no_token_dropLast
          scripts := ?scripts, heard := ?heard }
        case running => exact fun running => absurd (stopped.symm.trans running) (by simp)
        case stdout =>
          rw [inv.stdout, LineBuffer.write_line _ (marker_oneLine _ _) (marker_ne_nil _ _), blocks,
            numbered_concat, Nat.zero_add]
          exact congrArg LineBuffer.empty.after (List.append_assoc _ _ _)
        case scripts =>
          intro f member
          rcases List.mem_append.mp member with old | new
          · exact inv.scripts f old
          · rw [List.mem_singleton.mp new]
            exact ⟨inv.prompt stopped, inv.lastExit⟩
        case heard =>
          exact ⟨k, j, heard.goesOn (Shell.before_echo alive heard.known _ _ _) (List.prefix_append _ _)
            (fun dead => absurd (alive.symm.trans dead) (by simp)) rfl rfl rfl rfl⟩
      next => cases taken
  | exit =>
      simp only [step] at taken
      split at taken
      next =>
        split_ifs at taken
        obtain rfl := Option.some.inj taken
        exact inv.processEnds
      next => cases taken
  | dies =>
      simp only [step] at taken
      split_ifs at taken
      obtain rfl := Option.some.inj taken
      exact inv.processEnds
  | readLine =>
      simp only [step] at taken
      split_ifs at taken with reading
      split at taken
      next line available =>
        obtain rfl := Option.some.inj taken
        have commands := (readOutput_keeps tables s.close s.reader s.commands line).strings
        have length := readOutput_length tables s.close s.reader s.commands line
        exact { inv with
          size := length.symm ▸ inv.size
          written := length.symm ▸ inv.written
          piped := inv.piped.congr (congrArg (List.take s.written) commands) rfl rfl rfl id .rfl
          heard := heard.readLine tables inv reading available }
      next => cases taken
  | endOfFile =>
      simp only [step] at taken
      split_ifs at taken with ended
      obtain rfl := Option.some.inj taken
      have read : s.available.length ≤ s.consumed := by
        rw [Shell.available, if_neg (Bool.eq_false_iff.mp ended.2.1)]
        exact ended.2.2
      exact { inv with
        piped := inv.piped.congr rfl rfl rfl rfl id .rfl
        heard := ⟨k, j, { heard with
          stage := .inr ⟨by simp, by simp, ended.2.1, heard.all_read inv read⟩ }⟩ }
  | waitFor =>
      simp only [step] at taken
      split_ifs at taken with ended
      obtain rfl := Option.some.inj taken
      have left := heard.stage.resolve_left fun reading => absurd (ended.1.symm.trans reading.1) (by simp)
      exact { inv with
        piped := inv.piped.congr rfl rfl rfl rfl id .rfl
        heard := ⟨k, j, { heard with stage := .inr ⟨by simp, by simp, left.2.2⟩ }⟩ }
  | terminate =>
      simp only [step] at taken
      split_ifs at taken with terminating left
      · obtain rfl := Option.some.inj taken
        exact { inv with
          size := (List.length_modify _ _ _).symm ▸ inv.size
          written := (List.length_modify _ _ _).symm ▸ inv.written
          piped := inv.piped.congr (congrArg (List.take s.written)
            (map_command_modify (f := Command.terminated) (fun _ => rfl) _ _)) rfl rfl rfl id .rfl
          heard := ⟨k, j, heard.terminate terminating left⟩ }
      · obtain rfl := Option.some.inj taken
        have left := heard.stage.resolve_left fun reading =>
          absurd (terminating.symm.trans reading.1) (by simp)
        exact { inv with
          piped := inv.piped.congr rfl rfl rfl rfl id .rfl
          heard := ⟨k, j, { heard with stage := .inr ⟨by simp, by simp, left.2.2⟩ }⟩ }

theorem reachable_inv {tables : CharTables} {s : Shell}
    (reached : Reaches (step tables) Quiet {} s) : s.Inv :=
  reached.invariant inv_start fun _ a _ inv quiet taken => inv_step tables a inv quiet taken

theorem Script.result_output (f : Script) :
    f.result.output = (Java.lines f.printed).flatMap (· ++ ['\n']) := by
  rw [Script.result, Command.setExitCode, Command.heard_output, List.nil_append]

/-- An exit code is that of the command's own script, or -1. -/
theorem Shell.Inv.exitCode_cases {s : Shell} (inv : s.Inv) {i : ℕ} {c : Command}
    (found : s.commands[i]? = some c) (finished : c.finished = true) :
    (∃ f, s.scripts[i]? = some f ∧ c = f.result) ∨ c.exitCode = -1 := by
  obtain ⟨k, j, heard⟩ := inv.heard
  have given {lines : List Text} (told : c.Told lines) : c.exitCode = -1 := by
    rcases told with same | same
    · rw [same, Command.heard_finished] at finished
      cases finished
    · rw [same]
      rfl
  rcases Nat.lt_trichotomy i k with passed | rfl | later
  · exact .inl (heard.passed i passed c found)
  · exact .inr (given (heard.told c found))
  · exact .inr (given (heard.later i later c found))

/-- A command that fails, then one whose last line has no line end. -/
def twoCommands : List Action :=
  [.add ["ls /x".toList], .addToCommands 0, .writeCommand, .add ["id -u".toList], .execute,
    .print "no /x".toList, .addToCommands 0, .print "\r\n".toList, .readLine, .ends 1, .echo,
    .writeCommand, .execute, .print "0".toList, .readLine, .ends 0, .echo, .readLine]

def afterTwoCommands : Shell := (run (step .ascii) {} twoCommands).getD {}

instance (s : Shell) : (a : Action) → Decidable (Quiet s a)
  | .print _ | .ends _ => inferInstanceAs (Decidable (¬ _))
  | .add _ | .addToCommands _ | .closeShell | .timeout _ | .writeCommand | .findNone | .writeExit
  | .writeFails | .execute | .echo | .exit | .dies | .readLine | .endOfFile | .waitFor
  | .terminate => .isTrue trivial

end Orbot.RootCommands
