import Orbot.Control.Reply

/-! # The reply format

How Tor writes a reply on the control connection, and that `readReply` gets
back exactly what was written, reply after reply. A data block may hold any
lines: those that look like a status line or like the end of the block too.
-/

namespace Orbot.Control

open Java (Text OneLine lines)

/-! ## Writing -/

/-- A line of text without terminators. -/
abbrev DataLine := { s : Text // OneLine s }

/-- A line of a reply: a status of three characters and a message. -/
structure StatusLine where
  status : Text
  msg : Text
  three : status.length = 3
  oneLine : OneLine (status ++ msg)

/-- A reply is a list of lines with an optional data block each, and a last line
    without one. -/
structure Reply where
  front : List (StatusLine × Option (List DataLine))
  last : StatusLine

def crlf : Text := ['\r', '\n']

/-- A dot is put before a line that starts with one. -/
def stuffDot (line : Text) : Text :=
  match line with
  | '.' :: _ => '.' :: line
  | _ => line

def renderData (data : List DataLine) : Text :=
  data.flatMap (fun line => stuffDot line.val ++ crlf) ++ (dot ++ crlf)

def StatusLine.text (line : StatusLine) (separator : Char) : Text :=
  line.status ++ separator :: line.msg

/-- A line that is not the last of its reply. -/
def renderLine : StatusLine × Option (List DataLine) → Text
  | (line, none) => line.text '-' ++ crlf
  | (line, some data) => line.text '+' ++ crlf ++ renderData data

def Reply.render (reply : Reply) : Text :=
  reply.front.flatMap renderLine ++ (reply.last.text ' ' ++ crlf)

/-- The data lines, each followed by a newline. -/
def restOf (data : List DataLine) : Text :=
  data.flatMap fun line => line.val ++ ['\n']

/-- What a reader is to be given for the reply. -/
def Reply.received (reply : Reply) : List ReplyLine :=
  reply.front.map (fun line => ⟨line.1.status, line.1.msg, line.2.map restOf⟩) ++
    [⟨reply.last.status, reply.last.msg, none⟩]

/-! ## Line by line -/

/-- A line with its terminator is the first one read. -/
theorem lines_oneLine {s : Text} (oneLine : OneLine s) (rest : Text) :
    lines (s ++ (crlf ++ rest)) = s :: lines rest := by
  induction s with
  | nil => simp only [List.nil_append, crlf, List.cons_append, lines]
  | cons c s ih =>
      obtain ⟨⟨notCr, notLf⟩, remaining⟩ := Java.oneLine_cons.mp oneLine
      rw [List.cons_append, lines, ih remaining]
      · exact fun same => absurd same notLf
      · exact fun _ same => absurd same notCr
      · exact fun same => absurd same notCr

theorem undot_stuffDot (line : Text) : undot (stuffDot line) = line := by
  unfold stuffDot
  split
  · rfl
  · unfold undot
    split
    next rest other => exact absurd rfl (other rest)
    next => rfl

theorem stuffDot_ne_dot (line : Text) : stuffDot line ≠ dot := by
  unfold stuffDot
  split
  · simp [dot]
  next other => exact fun same => other [] same

theorem stuffDot_oneLine {line : Text} (oneLine : OneLine line) : OneLine (stuffDot line) := by
  unfold stuffDot
  split
  · exact Java.oneLine_cons.mpr ⟨by decide, oneLine⟩
  · exact oneLine

theorem StatusLine.text_oneLine (line : StatusLine) {separator : Char} (notCr : separator ≠ '\r')
    (notLf : separator ≠ '\n') : OneLine (line.text separator) := by
  obtain ⟨status, msg⟩ := Java.oneLine_append.mp line.oneLine
  exact Java.oneLine_append.mpr ⟨status, Java.oneLine_cons.mpr ⟨⟨notCr, notLf⟩, msg⟩⟩

theorem StatusLine.lines_text (line : StatusLine) {separator : Char} (notCr : separator ≠ '\r')
    (notLf : separator ≠ '\n') (rest : Text) :
    lines (line.text separator ++ (crlf ++ rest)) = line.text separator :: lines rest :=
  lines_oneLine (line.text_oneLine notCr notLf) rest

/-- The lines of a data block as they are sent. -/
def stuffed (data : List DataLine) : List Text := data.map fun line => stuffDot line.val

theorem dot_not_mem_stuffed (data : List DataLine) : dot ∉ stuffed data := by
  intro member
  obtain ⟨line, _, same⟩ := List.mem_map.mp member
  exact stuffDot_ne_dot line.val same

theorem dataText_stuffed (data : List DataLine) : dataText (stuffed data) = restOf data := by
  simp only [dataText, stuffed, restOf, List.flatMap_map, undot_stuffDot]

theorem lines_renderData (data : List DataLine) (rest : Text) :
    lines (renderData data ++ rest) = stuffed data ++ dot :: lines rest := by
  induction data with
  | nil =>
      simp only [renderData, stuffed, List.flatMap_nil, List.nil_append, List.map_nil,
        List.append_assoc]
      exact lines_oneLine (by decide) rest
  | cons line data ih =>
      have first := lines_oneLine (stuffDot_oneLine line.property) (renderData data ++ rest)
      simp only [renderData, List.flatMap_cons, List.append_assoc] at first ih ⊢
      rw [first, ih]
      rfl

/-! ## Reply by reply -/

/-- The lines of a rendered reply spell it. -/
theorem Reply.spells (reply : Reply) (rest : Text) :
    ∃ block, lines (reply.render ++ rest) = block ++ lines rest ∧
      Spells block reply.received := by
  obtain ⟨front, last⟩ := reply
  induction front with
  | nil =>
      refine ⟨[last.text ' '], ?_, .last last.three⟩
      simp only [Reply.render, List.flatMap_nil, List.nil_append, List.append_assoc]
      exact last.lines_text (by decide) (by decide) rest
  | cons entry front ih =>
      obtain ⟨block, read, spells⟩ := ih
      obtain ⟨line, data⟩ := entry
      cases data with
      | none =>
          refine ⟨line.text '-' :: block, ?_, .line line.three (by decide) (by decide) spells⟩
          simp only [Reply.render, List.flatMap_cons, renderLine, List.append_assoc] at read ⊢
          rw [line.lines_text (by decide) (by decide), read, List.cons_append]
      | some data =>
          refine ⟨line.text '+' :: (stuffed data ++ dot :: block), ?_, ?_⟩
          · simp only [Reply.render, List.flatMap_cons, renderLine, List.append_assoc] at read ⊢
            rw [line.lines_text (by decide) (by decide), lines_renderData, read, List.cons_append,
              List.append_assoc, List.cons_append]
          · have spelled := @Spells.data _ line.msg _ _ _ line.three
              (dot_not_mem_stuffed data) spells
            rwa [dataText_stuffed] at spelled

theorem readReply_render (reply : Reply) (rest : Text) :
    readReply (lines (reply.render ++ rest)) = .ok (reply.received, lines rest) := by
  obtain ⟨block, read, spells⟩ := reply.spells rest
  rw [read, readReply, spells.readLines, List.nil_append]

/-- What the first calls of `readReply` return, and the lines they leave. -/
def readReplies : Nat → List Text → Except Thrown (List (List ReplyLine) × List Text)
  | 0, input => .ok ([], input)
  | n + 1, input => do
      let (reply, afterReply) ← readReply input
      let (replies, rest) ← readReplies n afterReply
      return (reply :: replies, rest)

/-- Rendered replies are read first; the calls after them see what follows. -/
theorem readReplies_render (replies : List Reply) (n : Nat) (rest : Text) :
    readReplies (replies.length + n) (lines (replies.flatMap Reply.render ++ rest)) =
      (readReplies n (lines rest)).map fun later =>
        (replies.map Reply.received ++ later.1, later.2) := by
  induction replies with
  | nil =>
      simp only [List.length_nil, Nat.zero_add, List.flatMap_nil, List.nil_append, List.map_nil]
      cases readReplies n (lines rest) <;> rfl
  | cons reply replies ih =>
      have count : (reply :: replies).length + n = (replies.length + n) + 1 := by
        rw [List.length_cons]
        omega
      rw [count, readReplies, List.flatMap_cons, List.append_assoc, readReply_render]
      simp only [bind, Except.bind, ih, pure, Except.pure]
      cases readReplies n (lines rest) <;> rfl

/-- However many replies have been read, exactly the lines of the others are
    left; behind the last one there is only the empty list. -/
theorem readReply_inverts_render (replies : List Reply) :
    (∀ n ≤ replies.length,
      readReplies n (lines (replies.flatMap Reply.render)) =
        .ok ((replies.take n).map Reply.received,
          lines ((replies.drop n).flatMap Reply.render))) ∧
    readReplies (replies.length + 1) (lines (replies.flatMap Reply.render)) =
      .ok (replies.map Reply.received ++ [[]], []) := by
  constructor
  · intro n inside
    have read := readReplies_render (replies.take n) 0 ((replies.drop n).flatMap Reply.render)
    rw [← List.flatMap_append, List.take_append_drop, List.length_take,
      Nat.min_eq_left inside] at read
    simpa [readReplies, Except.map] using read
  · have read := readReplies_render replies 1 []
    rw [List.append_nil] at read
    have ended : readReplies 1 (lines []) = .ok ([[]], []) := by
      simp [readReplies, readReply, readLines, lines, bind, Except.bind, pure, Except.pure]
    rw [read, ended]
    simp only [Except.map]

end Orbot.Control
