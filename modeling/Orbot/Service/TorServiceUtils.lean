import Orbot.Java.Pattern
import Orbot.TransProxy.Command

/-! # The process to kill

`findProcessIdWithPS` looks for the path of a binary anywhere in the rows of a
process listing, and leaves out every row that has the word PID in it.
`killProcess` runs four commands on what it finds: three signal the pid, and one
every process that has the name of the binary's file.
-/

namespace Orbot.Service

open Java (Text CharTables RuntimeException PatternClasses OneLine contains lines)
open Lib.Fields
open TransProxy (number number_isDigit number_ne_nil decimalValue_number)

/-- How `killProcess` ends. -/
inductive KillEnd where
  | returned
  | cannotKill
  | raised (exception : RuntimeException)
  deriving Repr, DecidableEq

/-- A turn of the loop of `killProcess`, with the commands it executes. -/
structure KillAttempt where
  killAttempts : ℕ
  procId : Int
  commands : List Text
  deriving Repr, DecidableEq

/-- `fileProcBin` -/
structure ProcBin where
  canonicalPath : Text
  name : Text
  deriving Repr, DecidableEq

/-- A name of a column. -/
def pidName : Text := "PID".toList

def killCommands (fileProcBin : ProcBin) (signal : Text) (procId : Int) : List Text :=
  let pidString := number procId
  [ "busybox killall ".toList ++ signal ++ ' ' :: fileProcBin.name,
    "toolbox kill ".toList ++ signal ++ ' ' :: pidString,
    "busybox kill ".toList ++ signal ++ ' ' :: pidString,
    "kill ".toList ++ signal ++ ' ' :: pidString ]

/-! ## What a command signals -/

/-- `Runtime.exec(String)` splits a command like a `StringTokenizer`. -/
def isDelimiter (c : Char) : Bool :=
  c = ' ' || c = '\t' || c = '\n' || c = '\r' || c = Char.ofNat 12

def execWords (command : Text) : List Text := fields isDelimiter command

/-- The processes a command is to signal: those of some names, or those with
    some pids. -/
structure Targets where
  names : List Text := []
  pids : List Text := []
  deriving Repr, DecidableEq

/-- `killall` and `kill`, with the signal in front of what is to be signalled. -/
def appletTargets : List Text → Targets
  | applet :: _signal :: operands =>
      if applet = "killall".toList then { names := operands }
      else if applet = "kill".toList then { pids := operands }
      else {}
  | _ => {}

/-- BusyBox and Toolbox run the command that their first argument names. -/
def targets (command : Text) : Targets :=
  match execWords command with
  | [] => {}
  | program :: arguments =>
      if program ∈ ["busybox".toList, "toolbox".toList] then appletTargets arguments
      else appletTargets (program :: arguments)

/-- `File.getName()`. A process is named after the file it runs. -/
def fileName (path : Text) : Text := path.rtakeWhile (· ≠ '/')

/-- A signal is given as one word: the callers pass `-9` and `-1`. -/
structure SignalWord where
  text : Text
  nonempty : text ≠ []
  word : ∀ c ∈ text, isDelimiter c = false

theorem execWords_append {word : Text} (nonempty : word ≠ [])
    (apart : ∀ c ∈ word, isDelimiter c = false) (rest : Text) :
    execWords (word ++ ' ' :: rest) = word :: execWords rest := by
  rw [execWords, fields_append_cons word rest rfl, fields_single nonempty apart]
  rfl

theorem execWords_number (n : ℕ) : execWords (number n) = [number n] := by
  refine fields_single (number_ne_nil n) fun c member => ?_
  have digit := number_isDigit n c member
  have apart (d : Char) (other : d.isDigit = false) : c ≠ d := by
    rintro rfl
    exact Bool.false_ne_true (other.symm.trans digit)
  simp [isDelimiter, apart ' ' rfl, apart '\t' rfl, apart '\n' rfl, apart '\r' rfl,
    apart (Char.ofNat 12) rfl]

section Targets

variable (fileProcBin : ProcBin) (signal : SignalWord)

/-- Where the signal is one word, so is every word in front of the operands. -/
theorem targets_words {program applet : Text} (operands : Text)
    (programWord : program ≠ [] ∧ ∀ c ∈ program, isDelimiter c = false)
    (appletWord : applet ≠ [] ∧ ∀ c ∈ applet, isDelimiter c = false) :
    execWords (program ++ ' ' :: (applet ++ ' ' :: (signal.text ++ ' ' :: operands))) =
      program :: applet :: signal.text :: execWords operands := by
  rw [execWords_append programWord.1 programWord.2, execWords_append appletWord.1 appletWord.2,
    execWords_append signal.nonempty signal.word]

theorem targets_killCommands (pid : ℕ) :
    (killCommands fileProcBin signal.text pid).map targets =
      [ { names := execWords fileProcBin.name }, { pids := [number pid] },
        { pids := [number pid] }, { pids := [number pid] } ] := by
  have word (s : Text) (nonempty : s ≠ []) (all : (s.all fun c => !isDelimiter c) = true) :
      s ≠ [] ∧ ∀ c ∈ s, isDelimiter c = false :=
    ⟨nonempty, by simpa using all⟩
  have busybox := word "busybox".toList (by decide) (by decide)
  have toolbox := word "toolbox".toList (by decide) (by decide)
  have killall := word "killall".toList (by decide) (by decide)
  have kill := word "kill".toList (by decide) (by decide)
  have named : execWords ("busybox killall ".toList ++ signal.text ++ ' ' :: fileProcBin.name) =
      "busybox".toList :: "killall".toList :: signal.text :: execWords fileProcBin.name := by
    rw [← targets_words signal fileProcBin.name busybox killall]
    simp
  have toolboxKill : execWords ("toolbox kill ".toList ++ signal.text ++ ' ' :: number pid) =
      "toolbox".toList :: "kill".toList :: signal.text :: [number pid] := by
    rw [← execWords_number, ← targets_words signal (number pid) toolbox kill]
    simp
  have busyboxKill : execWords ("busybox kill ".toList ++ signal.text ++ ' ' :: number pid) =
      "busybox".toList :: "kill".toList :: signal.text :: [number pid] := by
    rw [← execWords_number, ← targets_words signal (number pid) busybox kill]
    simp
  have plainKill : execWords ("kill ".toList ++ signal.text ++ ' ' :: number pid) =
      "kill".toList :: signal.text :: [number pid] := by
    rw [← execWords_number, ← execWords_append signal.nonempty signal.word,
      ← execWords_append kill.1 kill.2]
    simp
  simp only [killCommands, List.map_cons, List.map_nil, targets, named, toolboxKill, busyboxKill,
    plainKill]
  rfl

end Targets

section Code

variable {tables : CharTables} (classes : PatternClasses tables)

/-- For most devices it is the second number, but for samsungs it is the first. -/
def rowProcessId (line : Text) : Except RuntimeException Int :=
  let lineParts := Java.splitSpaces classes line
  match Java.get lineParts 1 with
  | .error e => .error e
  | .ok second =>
      match Java.parseInt tables second with
      | .ok procId => .ok procId
      | .error _ => Java.get lineParts 0 >>= Java.parseInt tables

/-- The loop over the lines that are read. -/
def findInLines (command : Text) : List Text → Except RuntimeException Int
  | [] => .ok (-1)
  | line :: rest =>
      if contains line pidName then findInLines command rest
      else if contains line command then rowProcessId classes line
      else findInLines command rest

/-- `output` is what `ps` prints. -/
def findProcessIdWithPS (output command : Text) : Except RuntimeException Int :=
  findInLines classes command (lines output)

variable (fileProcBin : ProcBin) (signal : Text)

/-- One turn of the loop; an end of it is an error here. -/
def killTurn (output : Text) (killAttempts : ℕ) : Except KillEnd KillAttempt :=
  match findProcessIdWithPS classes output fileProcBin.canonicalPath with
  | .error e => .error (.raised e)
  | .ok procId =>
      if procId = -1 then .error .returned
      else .ok ⟨killAttempts, procId, killCommands fileProcBin signal procId⟩

/-- The loop with so many attempts left; `ps` is run anew in each. -/
def killLoop (ps : ℕ → Text) : ℕ → ℕ → List KillAttempt × KillEnd
  | 0, _ => ([], .cannotKill)
  | left + 1, killAttempts =>
      match killTurn classes fileProcBin signal (ps killAttempts) killAttempts with
      | .error ended => ([], ended)
      | .ok attempt =>
          let (later, ended) := killLoop ps left (killAttempts + 1)
          (attempt :: later, ended)

def killProcess (ps : ℕ → Text) : List KillAttempt × KillEnd :=
  killLoop classes fileProcBin signal ps 5 0

end Code

/-! ## Listings -/

/-- The order of the first two columns. A column of numbers may be indented. -/
inductive Layout where
  | userPid
  | pidUser (indent : Text)
  deriving Repr, DecidableEq

def Layout.columns (user gap pid : Text) : Layout → Text
  | .userPid => user ++ gap ++ pid
  | .pidUser indent => indent ++ pid ++ gap ++ user

section Listings

variable {tables : CharTables} (classes : PatternClasses tables)

/-- All of it is white space, and there is some. -/
structure IsGap (s : Text) : Prop where
  nonempty : s ≠ []
  spaces : ∀ c ∈ s, classes.space c = true

/-- A row of a listing. -/
structure Row where
  layout : Layout
  user : Text
  gap : Text
  pidColumn : Text
  /-- the further columns, with the white space in front and behind -/
  further : Text
  path : Text
  user_nonempty : user ≠ []
  user_word : ∀ c ∈ user, classes.space c = false
  user_not_numeric : ∀ n, Java.parseInt tables user ≠ .ok n
  isGap : IsGap classes gap
  indent_spaces : ∀ indent, layout = .pidUser indent → ∀ c ∈ indent, classes.space c = true
  pid_nonempty : pidColumn ≠ []
  pid_digits : ∀ c ∈ pidColumn, c.isDigit = true
  pid_fits : Java.decimalValue pidColumn ≤ 2147483647
  further_front : ∃ c ∈ further.head?, classes.space c = true
  further_back : ∃ c ∈ further.getLast?, classes.space c = true
  path_nonempty : path ≠ []
  oneLine : OneLine (layout.columns user gap pidColumn ++ further ++ path)

namespace Row

variable {classes} (row : Row classes) (command : Text)

def text : Text :=
  row.layout.columns row.user row.gap row.pidColumn ++ row.further ++ row.path

def pid : ℕ := Java.decimalValue row.pidColumn

/-- The row counts in the search: it has the path somewhere, and not the word PID. -/
def candidate : Bool := !contains row.text pidName && contains row.text command

theorem pid_parses : Java.parseInt tables row.pidColumn = .ok row.pid :=
  Java.parseInt_of_digits tables row.pid_nonempty row.pid_digits row.pid_fits

theorem pid_word : ∀ c ∈ row.pidColumn, classes.space c = false := by
  intro c member
  exact classes.space_of_isDigit (row.pid_digits c member)

/-- A word between white space is one field. -/
theorem fields_gap_word {front word rest : Text} {c : Char}
    (spaces : ∀ d ∈ front, classes.space d = true) (nonempty : word ≠ [])
    (apart : ∀ d ∈ word, classes.space d = false) (space : classes.space c = true) :
    fields classes.space (front ++ word ++ c :: rest) = word :: fields classes.space rest := by
  rw [List.append_assoc, fields_separators_append spaces, fields_append_cons word rest space,
    fields_single nonempty apart, List.singleton_append]

/-- Two columns at the front of a line. -/
theorem splitSpaces_columns {first gap second rest : Text} {c : Char}
    (isGap : IsGap classes gap) (apart : ∀ d ∈ first, classes.space d = false)
    (nonempty : second ≠ []) (apart' : ∀ d ∈ second, classes.space d = false)
    (space : classes.space c = true) :
    Java.splitSpaces classes (first ++ gap ++ second ++ c :: rest) =
      first :: second :: fields classes.space rest := by
  obtain ⟨g, gap', rfl⟩ := List.exists_cons_of_ne_nil isGap.nonempty
  obtain ⟨separates, spaces⟩ := List.forall_mem_cons.mp isGap.spaces
  have second_field : fields classes.space (gap' ++ second ++ c :: rest) =
      second :: fields classes.space rest := fields_gap_word spaces nonempty apart' space
  have line : first ++ (g :: gap') ++ second ++ c :: rest =
      first ++ g :: (gap' ++ second ++ c :: rest) := by
    simp only [List.append_assoc, List.cons_append]
  have more : fields classes.space (gap' ++ second ++ c :: rest) ≠ [] := by
    rw [second_field]
    exact List.cons_ne_nil _ _
  rw [line, Java.splitSpaces_append apart separates more, second_field]

theorem rowProcessId_second {line first second : Text} {others : List Text} {n : Int}
    (parts : Java.splitSpaces classes line = first :: second :: others)
    (number : Java.parseInt tables second = .ok n) : rowProcessId classes line = .ok n := by
  simp only [rowProcessId, parts, Java.get_cons_succ, Java.get_cons_zero, number]

theorem rowProcessId_first {line first second : Text} {others : List Text}
    (parts : Java.splitSpaces classes line = first :: second :: others)
    (noNumber : ∀ n, Java.parseInt tables second ≠ .ok n) :
    rowProcessId classes line = Java.parseInt tables first := by
  cases parsed : Java.parseInt tables second with
  | ok n => exact absurd parsed (noNumber n)
  | error e =>
      simp only [rowProcessId, parts, Java.get_cons_succ, Java.get_cons_zero, parsed]
      rfl

/-- In either layout the number that is read is the pid. -/
theorem rowProcessId_text : rowProcessId classes row.text = .ok row.pid := by
  obtain ⟨c, front, space⟩ := row.further_front
  obtain ⟨further, furtherEq⟩ : ∃ further, row.further = c :: further :=
    List.head?_eq_some_iff.mp front
  cases layout : row.layout with
  | userPid =>
      have text : row.text = row.user ++ row.gap ++ row.pidColumn ++ c :: (further ++ row.path) := by
        simp only [Row.text, layout, Layout.columns, furtherEq, List.append_assoc, List.cons_append]
      rw [text]
      exact rowProcessId_second (splitSpaces_columns row.isGap row.user_word row.pid_nonempty
        row.pid_word space) row.pid_parses
  | pidUser indent =>
      have text : row.text =
          indent ++ row.pidColumn ++ row.gap ++ row.user ++ c :: (further ++ row.path) := by
        simp only [Row.text, layout, Layout.columns, furtherEq, List.append_assoc, List.cons_append]
      have spaces := row.indent_spaces indent layout
      rw [text]
      cases indent with
      | nil =>
          rw [List.nil_append, rowProcessId_first (splitSpaces_columns row.isGap row.pid_word
            row.user_nonempty row.user_word space) row.user_not_numeric, row.pid_parses]
      | cons i indent =>
          -- the indentation leaves an empty first piece, so that the pid is the second
          obtain ⟨g, gap, gapEq⟩ := List.exists_cons_of_ne_nil row.isGap.nonempty
          have separates : classes.space g = true := row.isGap.spaces g (by simp [gapEq])
          have line : i :: indent ++ row.pidColumn ++ row.gap ++ row.user ++
              c :: (further ++ row.path) =
              [] ++ (i :: indent) ++ row.pidColumn ++
                g :: (gap ++ row.user ++ c :: (further ++ row.path)) := by
            simp only [gapEq, List.append_assoc, List.cons_append, List.nil_append]
          rw [line]
          exact rowProcessId_second (splitSpaces_columns ⟨List.cons_ne_nil i indent, spaces⟩
            (List.forall_mem_nil _) row.pid_nonempty row.pid_word separates) row.pid_parses

theorem text_oneLine : OneLine row.text := row.oneLine

end Row

/-- What `ps` prints: the names of the columns, and the rows. -/
structure Listing where
  header : Text
  rows : List (Row classes)
  header_oneLine : OneLine header
  header_pid : contains header pidName = true

namespace Listing

variable {classes} (listing : Listing classes) (command : Text)

def output : Text :=
  (listing.header :: listing.rows.map Row.text).flatMap (· ++ ['\n'])

/-- A process with this pid runs the binary. -/
def Runs (pid : ℕ) : Prop := ∃ row ∈ listing.rows, row.path = command ∧ row.pid = pid

/-- The pid of a process that runs the binary if there is one, and else -1. -/
def Right (result : Except RuntimeException Int) : Prop :=
  ((∃ pid, listing.Runs command pid) →
      ∃ pid : ℕ, listing.Runs command pid ∧ result = .ok (pid : Int)) ∧
    ((¬ ∃ pid, listing.Runs command pid) → result = .ok (-1))

/-- Some row counts in the search. -/
def Found : Prop := ∃ row ∈ listing.rows, row.candidate command = true

/-- The first row that counts in the search is that of a process that runs the
    binary. -/
def FirstRuns : Prop :=
  ∀ row ∈ listing.rows.find? (Row.candidate · command), listing.Runs command row.pid

/-! ## The search -/

theorem lines_output : lines listing.output = listing.header :: listing.rows.map Row.text := by
  have rows (texts : List Text) (oneLine : ∀ text ∈ texts, OneLine text) :
      lines (texts.flatMap (· ++ ['\n'])) = texts := by
    induction texts with
    | nil => rfl
    | cons text texts ih =>
        obtain ⟨first, others⟩ := List.forall_mem_cons.mp oneLine
        rw [List.flatMap_cons, List.append_assoc, List.singleton_append, Java.lines_lf first,
          ih others]
  apply rows
  refine List.forall_mem_cons.mpr ⟨listing.header_oneLine, fun text member => ?_⟩
  obtain ⟨row, -, rfl⟩ := List.mem_map.mp member
  exact row.text_oneLine

theorem findInLines_rows (rows : List (Row classes)) :
    findInLines classes command (rows.map Row.text) =
      .ok ((rows.find? (Row.candidate · command)).elim (-1) fun row => (row.pid : Int)) := by
  induction rows with
  | nil => rfl
  | cons row rows ih =>
      rw [List.map_cons, findInLines, List.find?_cons]
      cases hidden : contains row.text pidName with
      | true => simp only [if_true, ih, Row.candidate, hidden, Bool.not_true, Bool.false_and]
      | false =>
          cases mentioned : contains row.text command with
          | true =>
              simp only [Bool.false_eq_true, if_false, if_true, row.rowProcessId_text,
                Row.candidate, hidden, mentioned, Bool.not_false, Bool.and_self, Option.elim_some]
          | false =>
              simp only [Bool.false_eq_true, if_false, ih, Row.candidate, hidden, mentioned,
                Bool.and_false]

theorem findProcessIdWithPS_output :
    findProcessIdWithPS classes listing.output command =
      .ok ((listing.rows.find? (Row.candidate · command)).elim (-1) fun row => (row.pid : Int)) := by
  rw [findProcessIdWithPS, lines_output, findInLines, if_pos listing.header_pid, findInLines_rows]

theorem found_of_find?_eq_some {row : Row classes}
    (first : listing.rows.find? (Row.candidate · command) = some row) : listing.Found command :=
  ⟨row, List.mem_of_find?_eq_some first, by simpa using List.find?_some first⟩

theorem not_found_of_find?_eq_none
    (none : listing.rows.find? (Row.candidate · command) = none) : ¬ listing.Found command := by
  rintro ⟨row, member, candidate⟩
  exact List.find?_eq_none.mp none row member candidate

theorem firstRuns_of_find?_eq_none
    (none : listing.rows.find? (Row.candidate · command) = none) : listing.FirstRuns command := by
  simp [FirstRuns, none]

theorem firstRuns_iff {row : Row classes}
    (first : listing.rows.find? (Row.candidate · command) = some row) :
    listing.FirstRuns command ↔ listing.Runs command row.pid := by
  simp [FirstRuns, first]

/-- The result is right exactly if the first row that counts is one of the
    binary, and some row counts if the binary runs at all. -/
theorem right_iff :
    listing.Right command (findProcessIdWithPS classes listing.output command) ↔
      listing.FirstRuns command ∧
        ((∃ pid, listing.Runs command pid) → listing.Found command) := by
  rw [findProcessIdWithPS_output]
  cases first : listing.rows.find? (Row.candidate · command) with
  | none =>
      have notFound := listing.not_found_of_find?_eq_none command first
      constructor
      · intro right
        refine ⟨listing.firstRuns_of_find?_eq_none command first, fun runs => ?_⟩
        obtain ⟨pid, -, result⟩ := right.1 runs
        have same : (-1 : Int) = pid := Except.ok.inj result
        omega
      · intro condition
        exact ⟨fun runs => absurd (condition.2 runs) notFound, fun _ => rfl⟩
  | some row =>
      have found := listing.found_of_find?_eq_some command first
      rw [listing.firstRuns_iff command first]
      constructor
      · intro right
        refine ⟨?_, fun _ => found⟩
        by_cases runs : ∃ pid, listing.Runs command pid
        · obtain ⟨pid, runsPid, result⟩ := right.1 runs
          have same : (row.pid : Int) = pid := Except.ok.inj result
          rwa [Int.natCast_inj.mp same]
        · have same : (row.pid : Int) = -1 := Except.ok.inj (right.2 runs)
          omega
      · intro condition
        exact ⟨fun _ => ⟨row.pid, condition.1, rfl⟩, fun none => absurd ⟨_, condition.1⟩ none⟩

/-! ## The signals -/

/-- The command signals the process with this pid. -/
def Signals (executed : Text) (pid : ℕ) : Prop :=
  (∃ row ∈ listing.rows, fileName row.path ∈ (targets executed).names ∧ row.pid = pid) ∨
    number pid ∈ (targets executed).pids

/-- Every process that has the name of the binary's file runs the binary. -/
def NamesakesRun (fileProcBin : ProcBin) : Prop :=
  ∀ row ∈ listing.rows, fileName row.path ∈ execWords fileProcBin.name →
    listing.Runs fileProcBin.canonicalPath row.pid

/-- What is found is the binary, and no other process has its name. -/
def OnlyBinary (fileProcBin : ProcBin) : Prop :=
  listing.Found fileProcBin.canonicalPath →
    listing.FirstRuns fileProcBin.canonicalPath ∧ listing.NamesakesRun fileProcBin

section Kill

variable (fileProcBin : ProcBin) (signal : SignalWord) (listings : ℕ → Listing classes)

/-- Every process that a command of the attempt signals runs the binary, in the
    listing of its turn. -/
def Hits (attempt : KillAttempt) : Prop :=
  ∀ executed ∈ attempt.commands, ∀ pid,
    (listings attempt.killAttempts).Signals executed pid →
      (listings attempt.killAttempts).Runs fileProcBin.canonicalPath pid

theorem hits_iff (n : ℕ) (pid : ℕ) :
    Hits fileProcBin listings ⟨n, (pid : Int), killCommands fileProcBin signal.text pid⟩ ↔
      (listings n).Runs fileProcBin.canonicalPath pid ∧
        (listings n).NamesakesRun fileProcBin := by
  have commands : Hits fileProcBin listings
      ⟨n, (pid : Int), killCommands fileProcBin signal.text pid⟩ ↔
      ∀ t ∈ (killCommands fileProcBin signal.text pid).map targets, ∀ pid,
        ((∃ row ∈ (listings n).rows, fileName row.path ∈ t.names ∧ row.pid = pid) ∨
            number pid ∈ t.pids) → (listings n).Runs fileProcBin.canonicalPath pid := by
    rw [List.forall_mem_map]
    rfl
  have same (pid' : ℕ) : number pid' = number pid ↔ pid' = pid := by
    refine ⟨fun eq => ?_, fun eq => congrArg _ (congrArg _ eq)⟩
    rw [← decimalValue_number pid', eq, decimalValue_number]
  rw [commands, targets_killCommands, NamesakesRun]
  simp only [List.forall_mem_cons, List.not_mem_nil, or_false, false_and, and_false, exists_false,
    false_or, List.mem_singleton, same, forall_eq, and_self]
  refine and_comm.trans (and_congr_right fun _ => ⟨fun named row member isNamed =>
    named row.pid ⟨row, member, isNamed, rfl⟩, ?_⟩)
  rintro named _ ⟨row, member, isNamed, rfl⟩
  exact named row member isNamed

theorem killTurn_output (n : ℕ) :
    killTurn classes fileProcBin signal.text (listings n).output n =
      ((listings n).rows.find? (Row.candidate · fileProcBin.canonicalPath)).elim
        (.error .returned)
        fun row => .ok ⟨n, (row.pid : Int), killCommands fileProcBin signal.text row.pid⟩ := by
  rw [killTurn, findProcessIdWithPS_output]
  cases (listings n).rows.find? (Row.candidate · fileProcBin.canonicalPath) with
  | none => rfl
  | some row =>
      have other : (row.pid : Int) ≠ -1 := by omega
      exact if_neg other

/-- The condition on the turns, apart from the first one. -/
theorem turns_succ_iff (reached good : ℕ → Prop) (first : reached 0) (left : ℕ) :
    (∀ i < left + 1, (∀ j < i, reached j) → good i) ↔
      good 0 ∧ ∀ i < left, (∀ j < i, reached (j + 1)) → good (i + 1) := by
  rw [Nat.forall_lt_succ_left]
  refine and_congr ⟨fun turn => turn (fun j before => absurd before (Nat.not_lt_zero j)),
    fun turn _ => turn⟩ (forall₂_congr fun i _ => ?_)
  rw [Nat.forall_lt_succ_left, and_iff_right first]

/-- The loop goes on as long as something is found, and each time it must be the
    binary. -/
theorem killLoop_hits_iff (left n : ℕ) :
    (∀ attempt ∈
        (killLoop classes fileProcBin signal.text (fun i => (listings i).output) left n).1,
        Hits fileProcBin listings attempt) ↔
      ∀ i < left, (∀ j < i, (listings (n + j)).Found fileProcBin.canonicalPath) →
        (listings (n + i)).OnlyBinary fileProcBin := by
  induction left generalizing n with
  | zero => simp [killLoop]
  | succ left ih =>
      simp only [killLoop, killTurn_output]
      cases first : (listings n).rows.find? (Row.candidate · fileProcBin.canonicalPath) with
      | none =>
          have notFound := (listings n).not_found_of_find?_eq_none _ first
          refine iff_of_true (by simp) fun i _ found => ?_
          cases i with
          | zero => exact fun found => absurd found notFound
          | succ i => exact absurd (found 0 (by omega)) notFound
      | some row =>
          have found := (listings n).found_of_find?_eq_some _ first
          have hit : Hits fileProcBin listings
              ⟨n, (row.pid : Int), killCommands fileProcBin signal.text row.pid⟩ ↔
              (listings n).OnlyBinary fileProcBin := by
            rw [hits_iff, ← (listings n).firstRuns_iff _ first, OnlyBinary, forall_prop_of_true found]
          rw [turns_succ_iff (fun j => (listings (n + j)).Found _) _ found, Option.elim_some,
            List.forall_mem_cons, hit, ih (n + 1)]
          simp only [Nat.add_right_comm n 1, Nat.add_zero, ← Nat.add_assoc]

end Kill

end Listing

end Listings

/-- What is found is right exactly if the first row that counts is one of the
    binary, and if some row counts wherever the binary runs. What is signalled
    runs the binary exactly if in every listing that is come to the first row
    that counts, if there is one, is one of the binary, and all processes with
    its name run it too. -/
theorem right_process_iff {tables : CharTables} (classes : PatternClasses tables) :
    (∀ (listing : Listing classes) (command : Text),
        listing.Right command (findProcessIdWithPS classes listing.output command) ↔
          listing.FirstRuns command ∧
            ((∃ pid, listing.Runs command pid) → listing.Found command)) ∧
      ∀ (listings : ℕ → Listing classes) (fileProcBin : ProcBin) (signal : SignalWord),
        (∀ attempt ∈
            (killProcess classes fileProcBin signal.text fun i => (listings i).output).1,
            Listing.Hits fileProcBin listings attempt) ↔
          ∀ i < 5, (∀ j < i, (listings j).Found fileProcBin.canonicalPath) →
            (listings i).OnlyBinary fileProcBin := by
  constructor
  · exact fun listing command => listing.right_iff command
  · intro listings fileProcBin signal
    have loop := Listing.killLoop_hits_iff fileProcBin signal listings 5 0
    simp only [Nat.zero_add] at loop
    exact loop

/-- A row with the pid in the second column. -/
def exampleRow (path : Text) (nonempty : path ≠ [])
    (oneLine : OneLine ("u0_a99 4321 1 ".toList ++ path)) : Row PatternClasses.ascii where
  layout := .userPid
  user := "u0_a99".toList
  gap := " ".toList
  pidColumn := "4321".toList
  further := " 1 ".toList
  path := path
  user_nonempty := by decide
  user_word := by
    have all : ("u0_a99".toList.all fun c => !PatternClasses.ascii.space c) = true := by decide
    simpa using List.all_eq_true.mp all
  user_not_numeric n same := by
    have word : Java.parseInt CharTables.ascii "u0_a99".toList = .error .numberFormat := rfl
    rw [word] at same
    cases same
  isGap := ⟨by decide, List.all_eq_true.mp (show " ".toList.all _ = true by decide)⟩
  indent_spaces _ same := nomatch same
  pid_nonempty := by decide
  pid_digits := List.all_eq_true.mp (show "4321".toList.all Char.isDigit = true by decide)
  pid_fits := by decide
  further_front := ⟨' ', rfl, rfl⟩
  further_back := ⟨' ', rfl, rfl⟩
  path_nonempty := nonempty
  oneLine := oneLine

def torrentRow : Row PatternClasses.ascii :=
  exampleRow "/data/data/app/app_bin/torrent".toList (by decide) (by decide)

def hiddenRow : Row PatternClasses.ascii :=
  exampleRow "/data/data/app.PID/app_bin/tor".toList (by decide) (by decide)

def exampleListing (row : Row PatternClasses.ascii) : Listing PatternClasses.ascii where
  header := "USER PID PPID NAME".toList
  rows := [row]
  header_oneLine := by decide
  header_pid := by decide

/-- A binary whose path only begins with the path of Tor is killed in its place,
    and a Tor that is installed under a name with PID in it is not found. -/
theorem wrong_process :
    (findProcessIdWithPS PatternClasses.ascii (exampleListing torrentRow).output
          "/data/data/app/app_bin/tor".toList = .ok 4321 ∧
        ¬ ∃ pid, (exampleListing torrentRow).Runs "/data/data/app/app_bin/tor".toList pid) ∧
      findProcessIdWithPS PatternClasses.ascii (exampleListing hiddenRow).output
          "/data/data/app.PID/app_bin/tor".toList = .ok (-1) ∧
        (exampleListing hiddenRow).Runs "/data/data/app.PID/app_bin/tor".toList 4321 := by
  refine ⟨⟨by decide +kernel, ?_⟩, by decide +kernel, hiddenRow, List.mem_singleton_self _, rfl,
    rfl⟩
  rintro ⟨pid, row, member, path, -⟩
  obtain rfl := List.mem_singleton.mp member
  exact absurd path (by decide)

end Orbot.Service
