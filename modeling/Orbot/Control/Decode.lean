import Orbot.Control.Commands
import Orbot.Lib.Quoting

/-! # Reading the arguments back

What Tor makes of the arguments of SETCONF and MAPADDRESS: a key up to the
equals sign and a quoted value for each item, with one blank before it. A value
may have quotes, backslashes, blanks and line terminators.
-/

namespace Orbot.Control

open Java (Text RuntimeException)
open Lib

/-! ## The rule -/

def readQuoted (s : Text) : Option (Text × Text) := Quoting.readQuoted '\\' '"' s

/-- An entry and what is behind it. -/
def readEntry (s : Text) : Option (Entry × Text) :=
  match s.dropWhile (· ≠ '=') with
  | '=' :: '"' :: rest =>
      (readQuoted rest).map fun read => ((s.takeWhile (· ≠ '='), read.1), read.2)
  | _ => none

theorem readEntry_length {s : Text} {entry : Entry} {rest : Text}
    (read : readEntry s = some (entry, rest)) : rest.length < s.length := by
  unfold readEntry at read
  split at read
  next inside behind =>
    obtain ⟨⟨value, after⟩, quoted, same⟩ := Option.map_eq_some_iff.mp read
    cases same
    have shorter : after.length < inside.length := Quoting.readQuoted_length _ _ quoted
    have suffix := (List.dropWhile_suffix (· ≠ '=') (l := s)).length_le
    rw [behind, List.length_cons, List.length_cons] at suffix
    show after.length < s.length
    omega
  next => cases read

/-- The entries of a text in which every entry stands behind one blank. -/
def decode (s : Text) : Option (List Entry) :=
  match s with
  | [] => some []
  | c :: rest =>
      if c = ' ' then
        match _read : readEntry rest with
        | none => none
        | some (entry, after) => (decode after).map (entry :: ·)
      else none
termination_by s.length
decreasing_by
  have shorter := readEntry_length _read
  simp only [List.length_cons]
  omega

/-! ## Reading what was written -/

/-- The characters `quote` puts a backslash before. -/
def isQuoted (c : Char) : Bool := c = '\r' ∨ c = '\n' ∨ c = '\\' ∨ c = '"'

theorem quote_eq (s : Text) :
    quote s = '"' :: (Quoting.escapeAll '\\' isQuoted s ++ ['"']) := by
  have each : quoteChar = fun c => if isQuoted c then ['\\', c] else [c] := by
    funext c
    simp only [quoteChar, isQuoted, decide_eq_true_eq]
  rw [quote, each, Quoting.escapeAll, List.cons_append]

theorem readQuoted_quote (value rest : Text) :
    ∃ inside, quote value ++ rest = '"' :: inside ∧ readQuoted inside = some (value, rest) := by
  refine ⟨Quoting.escapeAll '\\' isQuoted value ++ '"' :: rest, ?_, ?_⟩
  · rw [quote_eq, List.cons_append, List.append_assoc, List.singleton_append]
  · exact Quoting.readQuoted_escapeAll (by decide) (by decide) (by decide) value rest

theorem readEntry_written {key : Text} (noEquals : '=' ∉ key) (value rest : Text) :
    readEntry (key ++ '=' :: (quote value ++ rest)) = some ((key, value), rest) := by
  obtain ⟨inside, opened, read⟩ := readQuoted_quote value rest
  rw [opened, readEntry, Java.dropWhile_ne_append noEquals]
  simp only [read, Java.takeWhile_ne_append noEquals, Option.map_some]

/-- The text of a list of entries. -/
def written (entries : List Entry) : Text :=
  entries.flatMap fun e => ' ' :: e.1 ++ '=' :: quote e.2

theorem decode_written {entries : List Entry} (noEquals : ∀ e ∈ entries, '=' ∉ e.1) :
    decode (written entries) = some entries := by
  induction entries with
  | nil => rw [written, List.flatMap_nil, decode]
  | cons entry entries ih =>
      obtain ⟨first, others⟩ := List.forall_mem_cons.mp noEquals
      have text : written (entry :: entries) =
          ' ' :: (entry.1 ++ '=' :: (quote entry.2 ++ written entries)) := by
        simp only [written, List.flatMap_cons, List.cons_append, List.append_assoc]
      have read := readEntry_written first entry.2 (written entries)
      rw [text, decode, if_pos rfl]
      split
      next failed => cases read.symm.trans failed
      next entry' after succeeded =>
        obtain ⟨rfl, rfl⟩ := Prod.mk.inj (Option.some.inj (read.symm.trans succeeded))
        rw [ih others, Option.map_some]

/-! ## Both commands -/

/-- A round that appends the pair of a string whose first blank ends its key. -/
theorem appendItems_written {item : Text → Except RuntimeException Text}
    (appends : ∀ key value, ' ' ∉ key →
      item (key ++ ' ' :: value) = .ok (' ' :: key ++ '=' :: quote value))
    {entries : List Entry} (noBlank : ∀ e ∈ entries, ' ' ∉ e.1) :
    appendItems item (entries.map fun e => e.1 ++ ' ' :: e.2) = .ok (written entries) := by
  induction entries with
  | nil => rfl
  | cons entry entries ih =>
      obtain ⟨first, others⟩ := List.forall_mem_cons.mp noBlank
      simp only [List.map_cons, appendItems, appends _ _ first, ih others, bind, Except.bind, pure,
        Except.pure, written, List.flatMap_cons]

theorem mapAddressesItem_pair (key value : Text) (noBlank : ' ' ∉ key) :
    mapAddressesItem (key ++ ' ' :: value) = .ok (' ' :: key ++ '=' :: quote value) := by
  rw [mapAddressesItem, Java.indexOf_append noBlank, keyAndValue_pair]

theorem setConfItem_pair (key value : Text) (noBlank : ' ' ∉ key) :
    setConfItem (key ++ ' ' :: value) = .ok (' ' :: key ++ '=' :: quote value) := by
  have found : ((key.length : Int) = -1) = False := by simp
  simp only [setConfItem, Java.indexOf_append noBlank, keyAndValue_pair, found, if_false, bind,
    Except.bind, pure, Except.pure, List.nil_append]

/-- A key that can stand before an equals sign. -/
structure IsConfKey (key : Text) : Prop where
  nonempty : key ≠ []
  noBlank : ' ' ∉ key
  noEquals : '=' ∉ key
  noQuote : '"' ∉ key

/-- What stands between the command word and the end of the line decodes to the
    pairs the command was built from, whatever the values are. -/
theorem arguments_decode {entries : List Entry} (some : entries ≠ [])
    (keys : ∀ e ∈ entries, IsConfKey e.1) :
    (∃ arguments, setConfCollection (entries.map fun e => e.1 ++ ' ' :: e.2) =
        .ok (.some ("SETCONF".toList ++ arguments ++ crlf)) ∧
      decode arguments = .some entries) ∧
    ∃ arguments, (mapAddressesCollection (entries.map fun e => e.1 ++ ' ' :: e.2)).map (·.text) =
        .ok ("MAPADDRESS".toList ++ arguments ++ crlf) ∧
      decode arguments = .some entries := by
  have read := decode_written fun e member => (keys e member).noEquals
  have noBlank : ∀ e ∈ entries, ' ' ∉ e.1 := fun e member => (keys e member).noBlank
  refine ⟨⟨written entries, ?_, read⟩, written entries, ?_, read⟩
  · have nonempty : entries.map (fun e => e.1 ++ ' ' :: e.2) ≠ [] := by simpa using some
    rw [setConfCollection, if_neg nonempty, appendItems_written setConfItem_pair noBlank]
    rfl
  · rw [mapAddressesCollection, appendItems_written mapAddressesItem_pair noBlank]
    rfl

/-- A value with a quote, a backslash at its end and a line break. -/
theorem arguments_decode_nasty :
    ∃ arguments, setConfCollection ["ExitNodes a\"b\r\n\\".toList, "StrictNodes 1".toList] =
        .ok (some ("SETCONF".toList ++ arguments ++ crlf)) ∧
      decode arguments = some [("ExitNodes".toList, "a\"b\r\n\\".toList),
        ("StrictNodes".toList, "1".toList)] := by
  have keys : ∀ e ∈ [("ExitNodes".toList, "a\"b\r\n\\".toList),
      ("StrictNodes".toList, "1".toList)], IsConfKey e.1 := by
    intro e member
    rcases List.mem_cons.mp member with rfl | last
    · exact ⟨by decide, by decide, by decide, by decide⟩
    · obtain rfl := List.mem_singleton.mp last
      exact ⟨by decide, by decide, by decide, by decide⟩
  exact (arguments_decode (List.cons_ne_nil _ _) keys).1

end Orbot.Control
