import Mathlib.Data.List.Basic

/-! # Quoted strings

In a quoted string an escape makes the next symbol literal, and the first quote
that is not escaped ends the string. Which symbols the writer escapes is up to
the writer; it is enough that the escape and the quote are among them.
-/

namespace Orbot.Lib.Quoting

variable {α : Type} [DecidableEq α]

section Read

variable (escape quote : α)

/-- The string up to its end and what is behind it. With `literal` the next
    symbol stands for itself. -/
def readFrom (literal : Bool) : List α → Option (List α × List α)
  | [] => none
  | c :: rest =>
      if literal then (readFrom false rest).map fun read => (c :: read.1, read.2)
      else if c = escape then readFrom true rest
      else if c = quote then some ([], rest)
      else (readFrom false rest).map fun read => (c :: read.1, read.2)

def readQuoted (s : List α) : Option (List α × List α) := readFrom escape quote false s

theorem readFrom_length {literal : Bool} {s value rest : List α}
    (read : readFrom escape quote literal s = some (value, rest)) : rest.length < s.length := by
  induction s generalizing literal value with
  | nil => cases read
  | cons c s ih =>
      have shorter : rest.length < s.length → rest.length < (c :: s).length := by
        intro less
        exact Nat.lt_succ_of_lt less
      simp only [readFrom] at read
      split_ifs at read with isLiteral isEscape isQuote
      · obtain ⟨⟨_, _⟩, later, same⟩ := Option.map_eq_some_iff.mp read
        cases same
        exact shorter (ih later)
      · exact shorter (ih read)
      · cases read
        exact Nat.lt_succ_self _
      · obtain ⟨⟨_, _⟩, later, same⟩ := Option.map_eq_some_iff.mp read
        cases same
        exact shorter (ih later)

theorem readQuoted_length {s value rest : List α}
    (read : readQuoted escape quote s = some (value, rest)) : rest.length < s.length :=
  readFrom_length escape quote read

end Read

/-! ## Writing -/

/-- Special symbols are written behind an escape. -/
def escapeAll (escape : α) (special : α → Bool) (s : List α) : List α :=
  s.flatMap fun c => if special c then [escape, c] else [c]

/-- What is written is read back, and no more is read. -/
theorem readQuoted_escapeAll {escape quote : α} (apart : quote ≠ escape) {special : α → Bool}
    (escapes : special escape = true) (quotes : special quote = true) (s rest : List α) :
    readQuoted escape quote (escapeAll escape special s ++ quote :: rest) = some (s, rest) := by
  unfold readQuoted
  induction s with
  | nil => simp [escapeAll, readFrom, apart]
  | cons c s ih =>
      simp only [escapeAll, List.flatMap_cons, List.append_assoc] at ih ⊢
      by_cases isSpecial : special c = true
      · simp [isSpecial, readFrom, ih]
      · have notEscape : c ≠ escape := fun same => isSpecial (same ▸ escapes)
        have notQuote : c ≠ quote := fun same => isSpecial (same ▸ quotes)
        simp [isSpecial, readFrom, notEscape, notQuote, ih]

end Orbot.Lib.Quoting
