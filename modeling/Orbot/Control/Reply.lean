import Orbot.Java.Text

/-! # Replies on the control connection

`TorControlConnection.readReply` works on the lines that successive calls of
`readLine` return. A reply ends at the first line with a blank behind its
status; a line with a plus sign there is followed by a data block.
-/

namespace Orbot.Control

open Java (Text RuntimeException)

structure ReplyLine where
  status : Text
  msg : Text
  rest : Option Text
  deriving Repr, DecidableEq

inductive IOException where
  | torControlError (msg : Text)
  | torControlSyntaxError (msg : Text)
  /-- thrown by the connection itself -/
  | connection
  deriving Repr, DecidableEq

inductive Thrown where
  | io (exception : IOException)
  | runtime (exception : RuntimeException)
  deriving Repr, DecidableEq

/-! ## Reading -/

def dot : Text := ".".toList

/-- A leading dot of a data line is dropped. -/
def undot (line : Text) : Text :=
  match line with
  | '.' :: rest => rest
  | _ => line

/-- The data block and the lines behind it; `none` when the lines run out, and
    `null` is dereferenced. -/
def readData : List Text → Option (Text × List Text)
  | [] => none
  | line :: input =>
      if line = dot then some ([], input)
      else (readData input).map fun (data, after) => (undot line ++ '\n' :: data, after)

theorem readData_length {input : List Text} {data : Text} {after : List Text}
    (read : readData input = some (data, after)) : after.length < input.length := by
  induction input generalizing data after with
  | nil => cases read
  | cons line input ih =>
      simp only [readData] at read
      split_ifs at read
      · obtain ⟨rfl, rfl⟩ := Prod.mk.inj (Option.some.inj read)
        simp
      · obtain ⟨⟨data', after'⟩, inner, same⟩ := Option.map_eq_some_iff.mp read
        obtain ⟨rfl, rfl⟩ := Prod.mk.inj same
        have := ih inner
        simp only [List.length_cons]
        omega

/-- Status, separator and message of a line. -/
def replyParts (line : Text) : Except RuntimeException (Text × Char × Text) := do
  let status ← Java.substring line 0 3
  let c ← Java.charAt line 3
  let msg ← Java.substringFrom line 4
  return (status, c, msg)

def brokeDown : Text := "Connection to Tor  broke down while receiving reply!".toList

def tooShort (line : Text) : Text :=
  "Line (\"".toList ++ line ++ "\") too short".toList

/-- The loop of `readReply` after the lines `reply`. -/
def readLines (reply : List ReplyLine) (input : List Text) :
    Except Thrown (List ReplyLine × List Text) :=
  match input with
  | [] =>
      -- nothing received so far, can exit cleanly
      if reply = [] then .ok ([], [])
      else .error (.io (.torControlSyntaxError brokeDown))
  | line :: input =>
      if line.length < 4 then .error (.io (.torControlSyntaxError (tooShort line)))
      else
        match replyParts line with
        | .error e => .error (.runtime e)
        | .ok (status, c, msg) =>
            if c = '+' then
              match block : readData input with
              | none => .error (.runtime .nullPointer)
              | some (data, after) => readLines (reply ++ [⟨status, msg, some data⟩]) after
            else if c = ' ' then .ok (reply ++ [⟨status, msg, none⟩], input)
            else readLines (reply ++ [⟨status, msg, none⟩]) input
termination_by input.length
decreasing_by
  · have := readData_length block
    simp only [List.length_cons]
    omega
  · simp only [List.length_cons]
    omega

def readReply (input : List Text) : Except Thrown (List ReplyLine × List Text) :=
  readLines [] input

/-! ## What the lines spell -/

/-- The text of a data block with these lines. -/
def dataText (body : List Text) : Text :=
  body.flatMap fun line => undot line ++ ['\n']

/-- The lines are exactly those of one reply. -/
inductive Spells : List Text → List ReplyLine → Prop where
  | last {status msg : Text} : status.length = 3 →
      Spells [status ++ ' ' :: msg] [⟨status, msg, none⟩]
  | line {status msg : Text} {c : Char} {block : List Text} {reply : List ReplyLine} :
      status.length = 3 → c ≠ '+' → c ≠ ' ' → Spells block reply →
      Spells ((status ++ c :: msg) :: block) (⟨status, msg, none⟩ :: reply)
  | data {status msg : Text} {body block : List Text} {reply : List ReplyLine} :
      status.length = 3 → dot ∉ body → Spells block reply →
      Spells ((status ++ '+' :: msg) :: (body ++ dot :: block))
        (⟨status, msg, some (dataText body)⟩ :: reply)

/-- The lines break off inside a data block. -/
inductive CutInData : List Text → Prop where
  | here {status msg : Text} {body : List Text} : status.length = 3 → dot ∉ body →
      CutInData ((status ++ '+' :: msg) :: body)
  | line {status msg : Text} {c : Char} {input : List Text} :
      status.length = 3 → c ≠ '+' → c ≠ ' ' → CutInData input →
      CutInData ((status ++ c :: msg) :: input)
  | data {status msg : Text} {body input : List Text} : status.length = 3 → dot ∉ body →
      CutInData input → CutInData ((status ++ '+' :: msg) :: (body ++ dot :: input))

theorem replyParts_spelled {status msg : Text} (c : Char) (three : status.length = 3) :
    replyParts (status ++ c :: msg) = .ok (status, c, msg) := by
  have long : (status ++ c :: msg).length = msg.length + 4 := by simp [three]; omega
  have first : Java.substring (status ++ c :: msg) 0 3 = .ok status := by
    have := Java.substring_nat (status ++ c :: msg) 3 (by omega)
    rwa [List.take_left' three] at this
  have separator : Java.charAt (status ++ c :: msg) 3 = .ok c := by
    rw [Java.charAt, List.getElem?_append_right (by omega), three]
    rfl
  have last : Java.substringFrom (status ++ c :: msg) 4 = .ok msg := by
    have dropped : (status ++ c :: msg).drop 4 = msg := by
      rw [List.append_cons, List.drop_left' (by simp [three])]
    have := Java.substringFrom_nat (status ++ c :: msg) 4 (by omega)
    rwa [dropped] at this
  simp only [replyParts, first, separator, last, bind, Except.bind, pure, Except.pure]

theorem exists_parts {line : Text} (long : ¬ line.length < 4) :
    ∃ (status msg : Text) (c : Char), status.length = 3 ∧ line = status ++ c :: msg := by
  have inside : 3 < line.length := by omega
  refine ⟨line.take 3, line.drop 4, line.get ⟨3, inside⟩, by simp; omega, ?_⟩
  rw [List.get_eq_getElem, List.getElem_cons_drop, List.take_append_drop]

theorem readData_spelled {body : List Text} (noDot : dot ∉ body) (input : List Text) :
    readData (body ++ dot :: input) = some (dataText body, input) := by
  induction body with
  | nil => simp [readData, dataText]
  | cons line rest ih =>
      have apart : line ≠ dot := fun same => noDot (same ▸ List.mem_cons_self ..)
      have remaining := ih fun member => noDot (List.mem_cons_of_mem _ member)
      simp only [List.cons_append, List.nil_append, readData, if_neg apart, remaining,
        Option.map_some, dataText, List.flatMap_cons, List.append_assoc]

theorem readData_cases (input : List Text) :
    (dot ∉ input ∧ readData input = none) ∨
      ∃ body after, dot ∉ body ∧ input = body ++ dot :: after := by
  by_cases ends : dot ∈ input
  · obtain ⟨body, after, split, first⟩ := List.eq_append_cons_of_mem ends
    exact .inr ⟨body, after, first, split⟩
  · refine .inl ⟨ends, ?_⟩
    induction input with
    | nil => rfl
    | cons line rest ih =>
        have apart : line ≠ dot := fun same => ends (same ▸ List.mem_cons_self ..)
        have remaining := ih fun member => ends (List.mem_cons_of_mem _ member)
        simp only [readData, if_neg apart, remaining, Option.map_none]

section Steps

variable {status : Text} (msg : Text) (three : status.length = 3) (reply : List ReplyLine)
  (input : List Text)

include three

theorem readLines_last :
    readLines reply ((status ++ ' ' :: msg) :: input) =
      .ok (reply ++ [⟨status, msg, none⟩], input) := by
  have long : ¬ (status ++ ' ' :: msg).length < 4 := by simp [three]; omega
  rw [readLines, if_neg long, replyParts_spelled ' ' three]
  simp

theorem readLines_line {c : Char} (notPlus : c ≠ '+') (notBlank : c ≠ ' ') :
    readLines reply ((status ++ c :: msg) :: input) =
      readLines (reply ++ [⟨status, msg, none⟩]) input := by
  have long : ¬ (status ++ c :: msg).length < 4 := by simp [three]; omega
  rw [readLines, if_neg long, replyParts_spelled c three]
  simp [notPlus, notBlank]

theorem readLines_data {body : List Text} (noDot : dot ∉ body) :
    readLines reply ((status ++ '+' :: msg) :: (body ++ dot :: input)) =
      readLines (reply ++ [⟨status, msg, some (dataText body)⟩]) input := by
  have long : ¬ (status ++ '+' :: msg).length < 4 := by simp [three]; omega
  rw [readLines, if_neg long, replyParts_spelled '+' three]
  simp only [if_true]
  split
  next none => simp [readData_spelled noDot] at none
  next data after read =>
    rw [readData_spelled noDot] at read
    obtain ⟨rfl, rfl⟩ := Prod.mk.inj (Option.some.inj read)
    rfl

theorem readLines_cut {body : List Text} (noDot : dot ∉ body) :
    readLines reply ((status ++ '+' :: msg) :: body) = .error (.runtime .nullPointer) := by
  have long : ¬ (status ++ '+' :: msg).length < 4 := by simp [three]; omega
  have cut : readData body = none := by
    rcases readData_cases body with ⟨_, none⟩ | ⟨front, after, _, rfl⟩
    · exact none
    · exact absurd (by simp) noDot
  rw [readLines, if_neg long, replyParts_spelled '+' three]
  simp only [if_true]
  split
  next => rfl
  next data after read => simp [cut] at read

end Steps

theorem Spells.readLines {block : List Text} {new : List ReplyLine} (spells : Spells block new)
    (reply : List ReplyLine) (rest : List Text) :
    readLines reply (block ++ rest) = .ok (reply ++ new, rest) := by
  induction spells generalizing reply with
  | last three => exact readLines_last _ three reply rest
  | line three notPlus notBlank _ ih =>
      rw [List.cons_append, readLines_line _ three reply _ notPlus notBlank, ih,
        List.append_assoc, List.singleton_append]
  | data three noDot _ ih =>
      rw [List.cons_append, List.append_assoc, List.cons_append,
        readLines_data _ three reply _ noDot, ih, List.append_assoc, List.singleton_append]

theorem CutInData.readLines {input : List Text} (cut : CutInData input) (reply : List ReplyLine) :
    readLines reply input = .error (.runtime .nullPointer) := by
  induction cut generalizing reply with
  | here three noDot => exact readLines_cut _ three reply noDot
  | line three notPlus notBlank _ ih => rw [readLines_line _ three reply _ notPlus notBlank, ih]
  | data three noDot _ ih => rw [readLines_data _ three reply _ noDot, ih]

theorem Spells.nonempty {block : List Text} {reply : List ReplyLine} (spells : Spells block reply) :
    block ≠ [] ∧ reply ≠ [] := by
  cases spells <;> simp

/-- Once a line has been read, or there is one to read, a reply is spelled out,
    the lines break off inside a data block, or an IOException is thrown. -/
theorem readLines_cases (reply : List ReplyLine) (input : List Text)
    (started : reply ≠ [] ∨ input ≠ []) :
    (∃ block new rest, input = block ++ rest ∧ Spells block new) ∨ CutInData input ∨
      ∃ e, readLines reply input = .error (.io e) := by
  match input with
  | [] =>
      have received : reply ≠ [] := started.resolve_right (by simp)
      exact .inr (.inr ⟨_, by rw [readLines, if_neg received]⟩)
  | line :: input =>
      by_cases short : line.length < 4
      · exact .inr (.inr ⟨_, by rw [readLines, if_pos short]⟩)
      · obtain ⟨status, msg, c, three, rfl⟩ := exists_parts short
        by_cases plus : c = '+'
        · subst plus
          rcases readData_cases input with ⟨noDot, _⟩ | ⟨body, after, noDot, ended⟩
          · exact .inr (.inl (.here three noDot))
          · have shorter : after.length < input.length := by
              rw [ended, List.length_append, List.length_cons]
              omega
            rw [ended]
            have read := readLines_data msg three reply after noDot
            rcases readLines_cases (reply ++ [⟨status, msg, some (dataText body)⟩]) after
              (.inl (by simp)) with ⟨block, new, rest, rfl, spells⟩ | cut | ⟨e, thrown⟩
            · exact .inl ⟨(status ++ '+' :: msg) :: (body ++ dot :: block), _, rest, by simp,
                .data three noDot spells⟩
            · exact .inr (.inl (.data three noDot cut))
            · exact .inr (.inr ⟨e, by rw [read, thrown]⟩)
        · by_cases blank : c = ' '
          · subst blank
            exact .inl ⟨[status ++ ' ' :: msg], _, input, rfl, .last three⟩
          · have read := readLines_line msg three reply input plus blank
            rcases readLines_cases (reply ++ [⟨status, msg, none⟩]) input (.inl (by simp)) with
              ⟨block, new, rest, rfl, spells⟩ | cut | ⟨e, thrown⟩
            · exact .inl ⟨(status ++ c :: msg) :: block, _, rest, rfl,
                .line three plus blank spells⟩
            · exact .inr (.inl (.line three plus blank cut))
            · exact .inr (.inr ⟨e, by rw [read, thrown]⟩)
termination_by input.length

/-- Reading a reply uses up at least one line. -/
theorem readReply_length {reply : List ReplyLine} {input rest : List Text}
    (received : readReply input = .ok (reply, rest)) (nonempty : reply ≠ []) :
    rest.length < input.length := by
  cases input with
  | nil =>
      simp only [readReply, readLines, if_true, Except.ok.injEq, Prod.mk.injEq] at received
      exact absurd received.1.symm nonempty
  | cons line input =>
      rcases readLines_cases [] (line :: input) (.inr (by simp)) with
        ⟨block, new, after, split, spells⟩ | cut | ⟨e, thrown⟩
      · rw [readReply, split, spells.readLines] at received
        obtain ⟨_, rfl⟩ := Prod.mk.inj (Except.ok.inj received)
        have some := List.length_pos_iff.mpr spells.nonempty.1
        rw [split, List.length_append]
        omega
      · simp [readReply, cut.readLines] at received
      · simp [readReply, thrown] at received

end Orbot.Control
