import Orbot.Control.Connection

/-! # The loop behind the reader's steps

The connection takes a reply as one message. What its reader hands over is what
`react` hands over for the characters that spell the same replies.
-/

namespace Orbot.Control

open Java (Text)
open Lib.Transition
open Service (TorEventHandler SharedPreferences)

/-- The lines that spell one reply after the other. -/
inductive SpellsAll : List Text → List (List ReplyLine) → Prop where
  | nil : SpellsAll [] []
  | cons {block rest : List Text} {reply : List ReplyLine} {replies : List (List ReplyLine)} :
      Spells block reply → SpellsAll rest replies → SpellsAll (block ++ rest) (reply :: replies)

theorem react_spellsAll (tables : Java.CharTables) (prefs : SharedPreferences)
    {input : List Text} {replies : List (List ReplyLine)} (spells : SpellsAll input replies)
    (good : ∀ reply ∈ replies, ¬ BadReply tables reply) (s : ReaderState TorEventHandler) :
    ∃ h, react tables (some (TorEventHandler.handler prefs)) input s =
      (.returned, ⟨h, s.handed ++ replies.filter (!isEvent ·)⟩) := by
  induction spells generalizing s with
  | nil =>
      have read : readReply [] = .ok ([], []) := by rw [readReply, readLines, if_pos rfl]
      exact ⟨s.handler, by rw [react_end read, List.filter_nil, List.append_nil]⟩
  | @cons block rest reply replies first _ ih =>
      obtain ⟨goodFirst, goodRest⟩ := List.forall_mem_cons.mp good
      obtain ⟨h, onward⟩ := (react_spells tables prefs first rest s).2 goodFirst
      obtain ⟨h', ended⟩ := ih goodRest ⟨h, s.handed ++ [reply].filter (!isEvent ·)⟩
      refine ⟨h', (onward.trans ended).trans ?_⟩
      rw [List.append_assoc, ← List.filter_append, List.singleton_append]

/-- The reader takes a message off the stream, and hands it over if it is no
    event. -/
theorem delivers_one {s : Conn} {message : Message} {rest : List Message}
    (reading : s.reader = .reading) (inbound : s.inbound = message :: rest) :
    ∃ s', Reachable step s s' ∧ s'.reader = .reading ∧ s'.inbound = rest ∧
      s'.handed.map (·.message.lines) =
        s.handed.map (·.message.lines) ++ [message.lines].filter (!isEvent ·) := by
  have read : step s .read = some { s with reader := .holding message, inbound := rest } := by
    simp [step, reading, inbound]
  obtain ⟨s', dispatched, after⟩ : ∃ s',
      step { s with reader := .holding message, inbound := rest } .dispatch = some s' ∧
        s'.reader = .reading ∧ s'.inbound = rest ∧ s'.handed.map (·.message.lines) =
          s.handed.map (·.message.lines) ++ [message.lines].filter (!isEvent ·) := by
    cases kind : isEvent message.lines with
    | true => simp [step, kind]
    | false =>
        cases queue : s.waiters with
        | nil => simp [step, kind]
        | cons w waiters => simp [step, kind]
  exact ⟨s', (Reaches.here.next trivial read).next trivial dispatched, after⟩

theorem delivers {s : Conn} (reading : s.reader = .reading) :
    ∃ s', Reachable step s s' ∧ s'.inbound = [] ∧
      s'.handed.map (·.message.lines) = s.handed.map (·.message.lines) ++
        (s.inbound.map (·.lines)).filter (!isEvent ·) := by
  induction inbound : s.inbound generalizing s with
  | nil => exact ⟨s, .here, inbound, by simp⟩
  | cons message rest ih =>
      obtain ⟨mid, toMid, midReading, midInbound, midHanded⟩ := delivers_one reading inbound
      obtain ⟨s', onward, empty, handed⟩ := ih midReading midInbound
      refine ⟨s', toMid.trans onward, empty, ?_⟩
      rw [handed, midHanded, List.append_assoc, ← List.filter_append, List.singleton_append,
        List.map_cons]

/-- From the same replies, the loop and the reader of the connection hand over
    the same. -/
theorem delivers_react (tables : Java.CharTables) (prefs : SharedPreferences) {s : Conn}
    {input : List Text} (reading : s.reader = .reading)
    (spells : SpellsAll input (s.inbound.map (·.lines)))
    (good : ∀ reply ∈ s.inbound.map (·.lines), ¬ BadReply tables reply) (h : TorEventHandler) :
    ∃ s', Reachable step s s' ∧ s'.inbound = [] ∧
      s'.handed.map (·.message.lines) =
        (react tables (some (TorEventHandler.handler prefs)) input
          ⟨h, s.handed.map (·.message.lines)⟩).2.handed := by
  obtain ⟨s', reached, empty, handed⟩ := delivers reading
  obtain ⟨h', loop⟩ := react_spellsAll tables prefs spells good ⟨h, s.handed.map (·.message.lines)⟩
  exact ⟨s', reached, empty, by rw [handed, loop]⟩

end Orbot.Control
