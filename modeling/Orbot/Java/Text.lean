import Mathlib.Data.List.DropRight
import Mathlib.Data.List.Basic
import Mathlib.Data.List.Infix

/-! # Java strings

A Java string is the list of its `char` values: a `Char` stands for one UTF-16
unit, and where the code cuts a string at an index it cuts between units. (A
surrogate is then a character above U+FFFF, which the code treats like any other
beyond ASCII.) The operations below follow the documented behaviour of
`java.lang.String`, `StringTokenizer`, `Integer` and `BufferedReader` as far as
the service uses them; an index outside the string or the array is an exception,
never a default value.
-/

namespace Orbot.Java

abbrev Text := List Char

instance : LawfulBEq Text := inferInstance

/-- The unchecked exceptions the modelled code can raise. -/
inductive RuntimeException where
  | nullPointer
  | indexOutOfBounds
  | stringIndexOutOfBounds
  | numberFormat
  deriving Repr, DecidableEq

/-! ## Characters -/

/-- The character tables of the virtual machine. `digit` is `Character.digit`
    in radix ten, `foldCase` is `Character.toLowerCase` of
    `Character.toUpperCase`, `toUpperCase` is `String.toUpperCase` in the
    default locale; all reach beyond ASCII, so they are data here. -/
structure CharTables where
  digit : Char → Option Nat
  digit_ascii : ∀ c : Char, c.isDigit = true → digit c = some (c.toNat - '0'.toNat)
  foldCase : Char → Char
  toUpperCase : Text → Text

/-- Tables of a machine that knows the ASCII digits and letters only. -/
def CharTables.ascii : CharTables where
  digit c := if c.isDigit then some (c.toNat - '0'.toNat) else none
  digit_ascii c isDigit := by simp [isDigit]
  foldCase c := c.toUpper.toLower
  toUpperCase s := s.map Char.toUpper

/-- `String.equalsIgnoreCase` -/
def equalsIgnoreCase (tables : CharTables) (s t : Text) : Bool :=
  s.map tables.foldCase = t.map tables.foldCase

/-! ## Slicing -/

/-- `String.indexOf`: the first position of the character, or -1. -/
def indexOf (s : Text) (c : Char) : Int :=
  match s.idxOf? c with
  | some i => i
  | none => -1

/-- `String.substring(begin, end)`. -/
def substring (s : Text) (first last : Int) : Except RuntimeException Text :=
  if 0 ≤ first ∧ first ≤ last ∧ last ≤ s.length then
    .ok ((s.take last.toNat).drop first.toNat)
  else .error .stringIndexOutOfBounds

/-- `String.substring(begin)`. -/
def substringFrom (s : Text) (first : Int) : Except RuntimeException Text :=
  substring s first s.length

/-- `String.charAt` -/
def charAt (s : Text) (i : Nat) : Except RuntimeException Char :=
  match s[i]? with
  | some c => .ok c
  | none => .error .stringIndexOutOfBounds

/-- `List.get` and array indexing. -/
def get {α : Type} (xs : List α) (i : Nat) : Except RuntimeException α :=
  match xs[i]? with
  | some x => .ok x
  | none => .error .indexOutOfBounds

@[simp] theorem get_cons_zero {α : Type} (x : α) (xs : List α) : get (x :: xs) 0 = .ok x := rfl

@[simp] theorem get_cons_succ {α : Type} (x : α) (xs : List α) (i : Nat) :
    get (x :: xs) (i + 1) = get xs i := by
  simp only [get, List.getElem?_cons_succ]

@[simp] theorem get_nil {α : Type} (i : Nat) : get ([] : List α) i = .error .indexOutOfBounds := rfl

theorem indexOf_of_not_mem {s : Text} {c : Char} (absent : c ∉ s) : indexOf s c = -1 := by
  rw [indexOf, List.idxOf?_eq_none_iff.mpr absent]

/-- The first occurrence is the one behind a part without the character. -/
theorem indexOf_append {s rest : Text} {c : Char} (absent : c ∉ s) :
    indexOf (s ++ c :: rest) c = s.length := by
  have first : (s ++ c :: rest).idxOf? c = some s.length := by
    rw [List.idxOf?_eq_some_iff]
    refine ⟨by simp, by simp, fun j before => ?_⟩
    rw [List.getElem_append_left before]
    exact fun same => absent (same ▸ List.getElem_mem before)
  rw [indexOf, first]

theorem indexOf_cases (s : Text) (c : Char) :
    (c ∉ s ∧ indexOf s c = -1) ∨
      ∃ before after, s = before ++ c :: after ∧ c ∉ before ∧ indexOf s c = before.length := by
  by_cases member : c ∈ s
  · obtain ⟨before, after, rfl, absent⟩ := List.eq_append_cons_of_mem member
    exact .inr ⟨before, after, rfl, absent, indexOf_append absent⟩
  · exact .inl ⟨member, indexOf_of_not_mem member⟩

/-- What stands before and behind the first occurrence is determined. -/
theorem append_cons_inj {s s' rest rest' : Text} {c : Char} (absent : c ∉ s) (absent' : c ∉ s')
    (same : s ++ c :: rest = s' ++ c :: rest') : s = s' ∧ rest = rest' := by
  have first := @indexOf_append s rest c absent
  rw [same, indexOf_append absent'] at first
  obtain ⟨front, back⟩ := List.append_inj same (by omega)
  exact ⟨front, (List.cons.inj back).2⟩

theorem forall_ne_of_not_mem {s : Text} {c : Char} (absent : c ∉ s) :
    ∀ d ∈ s, decide (d ≠ c) = true :=
  fun _ member => decide_eq_true fun same => absent (same ▸ member)

theorem takeWhile_ne_of_not_mem {s : Text} {c : Char} (absent : c ∉ s) :
    s.takeWhile (· ≠ c) = s :=
  List.takeWhile_eq_self_iff.mpr (forall_ne_of_not_mem absent)

/-- What stands before the first occurrence. -/
theorem takeWhile_ne_append {s rest : Text} {c : Char} (absent : c ∉ s) :
    (s ++ c :: rest).takeWhile (· ≠ c) = s := by
  rw [List.takeWhile_append_of_pos (forall_ne_of_not_mem absent),
    List.takeWhile_cons_of_neg (by simp), List.append_nil]

/-- The first occurrence and what stands behind it. -/
theorem dropWhile_ne_append {s rest : Text} {c : Char} (absent : c ∉ s) :
    (s ++ c :: rest).dropWhile (· ≠ c) = c :: rest := by
  rw [List.dropWhile_append_of_pos (forall_ne_of_not_mem absent),
    List.dropWhile_cons_of_neg (by simp)]

theorem substringFrom_nat (s : Text) (i : Nat) (inside : i ≤ s.length) :
    substringFrom s i = .ok (s.drop i) := by
  have bounds : (0 : Int) ≤ i ∧ (i : Int) ≤ s.length ∧ (s.length : Int) ≤ s.length := by omega
  simp only [substringFrom, substring, if_pos bounds, Int.toNat_natCast, List.take_length]

/-- Dropping the first character. -/
@[simp] theorem substringFrom_one_cons (c : Char) (rest : Text) :
    substringFrom (c :: rest) 1 = .ok rest :=
  substringFrom_nat (c :: rest) 1 (by simp)

@[simp] theorem substringFrom_one_nil :
    substringFrom [] 1 = .error .stringIndexOutOfBounds := rfl

theorem substring_nat (s : Text) (i : Nat) (inside : i ≤ s.length) :
    substring s 0 i = .ok (s.take i) := by
  have bounds : (0 : Int) ≤ 0 ∧ (0 : Int) ≤ i ∧ (i : Int) ≤ s.length := by omega
  simp only [substring, if_pos bounds, Int.toNat_natCast, Int.toNat_zero, List.drop_zero]

/-! ## Splitting -/

/-- `String.split(sep)` for a one-character separator: trailing empty pieces
    are removed, and a string without the separator is its own only piece. -/
def split (s : Text) (sep : Char) : List Text :=
  if sep ∈ s then (s.splitOn sep).rdropWhile (· = []) else [s]

/-- `String.split(sep, -1)`: every piece is kept. -/
def splitAll (s : Text) (sep : Char) : List Text :=
  s.splitOn sep

/-- The tokens of a `StringTokenizer` with one delimiter character. -/
def tokens (s : Text) (delim : Char) : List Text :=
  (s.splitOn delim).filter (· ≠ [])

/-- `String.split("\\r?\\n")`: a carriage return goes with the line feed it stands
    before. -/
def splitLineEnds (s : Text) : List Text :=
  if '\n' ∈ s then
    let pieces := s.splitOn '\n'
    let ended := pieces.dropLast.map fun piece =>
      if piece.getLast? = some '\r' then piece.dropLast else piece
    (ended ++ [pieces.getLastD []]).rdropWhile (· = [])
  else [s]

/-- `String.contains` -/
def contains (s part : Text) : Bool := s.tails.any part.isPrefixOf

/-- `String.trim` -/
def trim (s : Text) : Text := (s.dropWhile (· ≤ ' ')).rdropWhile (· ≤ ' ')

theorem splitOn_of_not_mem {s : Text} {sep : Char} (absent : sep ∉ s) : s.splitOn sep = [s] := by
  apply List.splitOnP_eq_singleton
  intro c member
  simpa using fun same : c = sep => absent (same ▸ member)

theorem splitOn_append {s rest : Text} {sep : Char} (absent : sep ∉ s) :
    (s ++ sep :: rest).splitOn sep = s :: rest.splitOn sep := by
  refine List.splitOnP_append_cons_of_forall_mem ?_ sep (by simp) rest
  intro c member
  simpa using fun same : c = sep => absent (same ▸ member)

/-- A string has no separator, or one behind a part without it. -/
theorem splitOn_induction (sep : Char) {motive : Text → Prop}
    (single : ∀ s, sep ∉ s → motive s)
    (cons : ∀ s rest, sep ∉ s → motive rest → motive (s ++ sep :: rest)) (s : Text) : motive s := by
  by_cases member : sep ∈ s
  · obtain ⟨before, after, rfl, absent⟩ := List.eq_append_cons_of_mem member
    have shorter : after.length < (before ++ sep :: after).length := by
      rw [List.length_append, List.length_cons]
      omega
    exact cons before after absent (splitOn_induction sep single cons after)
  · exact single s member
termination_by s.length

/-- The first piece ends at the first separator. -/
theorem splitOn_eq_cons (s : Text) (sep : Char) :
    ∃ others, s.splitOn sep = s.takeWhile (· ≠ sep) :: others := by
  induction s using splitOn_induction sep with
  | single s absent =>
      exact ⟨[], by rw [splitOn_of_not_mem absent, takeWhile_ne_of_not_mem absent]⟩
  | cons s rest absent _ =>
      exact ⟨_, by rw [splitOn_append absent, takeWhile_ne_append absent]⟩

/-- The first piece goes on with the front. -/
theorem splitOn_append_left {front : Text} {sep : Char} (absent : sep ∉ front) (s : Text) :
    (front ++ s).splitOn sep = (front ++ s.takeWhile (· ≠ sep)) :: (s.splitOn sep).tail := by
  induction s using splitOn_induction sep with
  | single s absent' =>
      rw [splitOn_of_not_mem (List.not_mem_append absent absent'),
        takeWhile_ne_of_not_mem absent', splitOn_of_not_mem absent', List.tail_cons]
  | cons s rest absent' _ =>
      rw [← List.append_assoc, splitOn_append (List.not_mem_append absent absent'),
        takeWhile_ne_append absent', splitOn_append absent', List.tail_cons]

/-- Behind a last character that is no separator there is no empty piece. -/
theorem splitOn_getLast {s : Text} {sep : Char} (nonempty : s ≠ [])
    (last : s.getLast? ≠ some sep) : (s.splitOn sep).getLast? ≠ some [] := by
  induction s using splitOn_induction sep with
  | single s absent =>
      rw [splitOn_of_not_mem absent]
      simpa using nonempty
  | cons s rest absent ih =>
      have behind : rest ≠ [] := by
        rintro rfl
        simp at last
      have same : (s ++ sep :: rest).getLast? = rest.getLast? := by
        rw [List.getLast?_append_cons, List.getLast?_cons, List.getLast?_eq_some_getLast behind]
        simp
      obtain ⟨first, others, pieces⟩ := List.exists_cons_of_ne_nil (List.splitOn_ne_nil sep rest)
      rw [splitOn_append absent, pieces, List.getLast?_cons_cons, ← pieces]
      exact ih behind (same ▸ last)

theorem split_eq_splitOn {s : Text} {sep : Char} (last : s.getLast? ≠ some sep)
    (inside : sep ∈ s) : split s sep = s.splitOn sep := by
  rw [split, if_pos inside, List.rdropWhile_eq_self_iff]
  intro some
  have ends := splitOn_getLast (List.ne_nil_of_mem inside) last
  rw [List.getLast?_eq_some_getLast some] at ends
  simpa using ends

theorem infix_of_mem_splitOnP {p : Char → Bool} {s piece : Text} (member : piece ∈ s.splitOnP p) :
    piece <:+: s := by
  -- the first piece even is a prefix
  have pieces : ∀ first others, s.splitOnP p = first :: others →
      first <+: s ∧ ∀ other ∈ others, other <:+: s := by
    clear member
    induction s with
    | nil =>
        intro first others same
        obtain ⟨rfl, rfl⟩ := List.cons.inj (List.splitOnP_nil.symm.trans same)
        simp
    | cons c s ih =>
        intro first others same
        rw [List.splitOnP_cons_eq_if_modifyHead] at same
        obtain ⟨front, rest, split⟩ := List.exists_cons_of_ne_nil (List.splitOnP_ne_nil p s)
        obtain ⟨isPrefix, areInfixes⟩ := ih front rest split
        rw [split] at same
        split_ifs at same
        · obtain ⟨rfl, rfl⟩ := List.cons.inj same
          refine ⟨List.nil_prefix, List.forall_mem_cons.mpr ⟨?_, fun other inRest => ?_⟩⟩
          · exact isPrefix.isInfix.trans (List.suffix_cons c s).isInfix
          · exact (areInfixes other inRest).trans (List.suffix_cons c s).isInfix
        · obtain ⟨rfl, rfl⟩ := List.cons.inj same
          exact ⟨(List.prefix_cons_inj c).mpr isPrefix, fun other inRest =>
            (areInfixes other inRest).trans (List.suffix_cons c s).isInfix⟩
  obtain ⟨first, others, split⟩ := List.exists_cons_of_ne_nil (List.splitOnP_ne_nil p s)
  obtain ⟨isPrefix, areInfixes⟩ := pieces first others split
  rw [split] at member
  rcases List.mem_cons.mp member with rfl | later
  · exact isPrefix.isInfix
  · exact areInfixes piece later

theorem infix_of_mem_splitOn {s piece : Text} {sep : Char} (member : piece ∈ s.splitOn sep) :
    piece <:+: s :=
  infix_of_mem_splitOnP member

/-- A line is a piece between line feeds, perhaps without its last character. -/
theorem mem_splitLineEnds {s line : Text} (member : line ∈ splitLineEnds s) :
    ∃ piece ∈ s.splitOn '\n', line = piece ∨ line = piece.dropLast := by
  unfold splitLineEnds at member
  split_ifs at member with lineFeed
  · have kept := (List.rdropWhile_prefix _ _).subset member
    rcases List.mem_append.mp kept with ended | last
    · obtain ⟨piece, early, rfl⟩ := List.mem_map.mp ended
      refine ⟨piece, (List.dropLast_subset _) early, ?_⟩
      split_ifs with carriageReturn
      · exact .inr rfl
      · exact .inl rfl
    · rw [List.mem_singleton.mp last, List.getLastD_eq_getLast?,
        List.getLast?_eq_some_getLast (List.splitOn_ne_nil '\n' s)]
      exact ⟨_, List.getLast_mem _, .inl rfl⟩
  · obtain rfl : line = s := List.mem_singleton.mp member
    exact ⟨line, by rw [splitOn_of_not_mem lineFeed]; exact List.mem_singleton_self _, .inl rfl⟩

theorem splitOn_length (s : Text) (sep : Char) : (s.splitOn sep).length = s.count sep + 1 := by
  induction s using splitOn_induction sep with
  | single s absent =>
      rw [splitOn_of_not_mem absent, List.count_eq_zero_of_not_mem absent, List.length_singleton]
  | cons s rest absent ih =>
      rw [splitOn_append absent, List.length_cons, ih, List.count_append, List.count_cons_self,
        List.count_eq_zero_of_not_mem absent]
      omega

theorem infix_of_mem_splitLineEnds {s line : Text} (member : line ∈ splitLineEnds s) :
    line <:+: s := by
  obtain ⟨piece, inPieces, rfl | rfl⟩ := mem_splitLineEnds member
  · exact infix_of_mem_splitOn inPieces
  · exact (List.dropLast_prefix piece).isInfix.trans (infix_of_mem_splitOn inPieces)

theorem contains_iff {s part : Text} : contains s part = true ↔ part <:+: s := by
  simp only [contains, List.any_eq_true, List.mem_tails, List.isPrefixOf_iff_prefix]
  rw [List.infix_iff_prefix_suffix]
  exact exists_congr fun t => and_comm

/-- The only piece of a string is empty only if the string is. -/
theorem ne_nil_of_split_eq_singleton {s part : Text} {sep : Char} (nonempty : s ≠ [])
    (only : split s sep = [part]) : part ≠ [] := by
  rw [split] at only
  split_ifs at only
  · have some : (s.splitOn sep).rdropWhile (· = []) ≠ [] := by simp [only]
    have last := List.rdropWhile_last_not (· = []) (s.splitOn sep) some
    simpa [only] using last
  · obtain rfl : s = part := by simpa using only
    exact nonempty

theorem ne_nil_of_mem_tokens {s token : Text} {delim : Char} (member : token ∈ tokens s delim) :
    token ≠ [] := by
  simpa using (List.mem_filter.mp member).2

theorem tokens_nil (delim : Char) : tokens [] delim = [] := rfl

theorem tokens_append (s rest : Text) (delim : Char) :
    tokens (s ++ delim :: rest) delim = tokens s delim ++ tokens rest delim := by
  rw [tokens, List.splitOn_append_cons_self, List.filter_append]
  rfl

theorem tokens_of_not_mem {s : Text} {delim : Char} (absent : delim ∉ s) (nonempty : s ≠ []) :
    tokens s delim = [s] := by
  rw [tokens, splitOn_of_not_mem absent]
  simpa using nonempty

/-- A separator between two pieces that are free of it, the last one not empty. -/
theorem split_pair {s rest : Text} {sep : Char} (absent : sep ∉ s) (absent' : sep ∉ rest)
    (nonempty : rest ≠ []) : split (s ++ sep :: rest) sep = [s, rest] := by
  have member : sep ∈ s ++ sep :: rest := by simp
  rw [split, if_pos member, splitOn_append absent, splitOn_of_not_mem absent']
  exact List.rdropWhile_concat_neg (· = []) [s] rest (by simpa using nonempty)

/-! ## Numbers -/

/-- Value of a string of digits, most significant first. -/
def digitsValue (tables : CharTables) (s : Text) : Option Nat :=
  s.foldl (fun value c => value.bind fun v => (tables.digit c).map fun d => 10 * v + d) (some 0)

def sign : Text → Int × Text
  | '-' :: rest => (-1, rest)
  | '+' :: rest => (1, rest)
  | s => (1, s)

/-- `Integer.parseInt`: an optional sign, at least one digit, and a value that
    fits in 32 bits. -/
def parseInt (tables : CharTables) (s : Text) : Except RuntimeException Int :=
  let (sign, digits) := sign s
  if digits = [] then .error .numberFormat
  else
    match digitsValue tables digits with
    | none => .error .numberFormat
    | some v =>
        if -2147483648 ≤ sign * v ∧ sign * v ≤ 2147483647 then .ok (sign * v)
        else .error .numberFormat

/-- The number a string of ASCII digits stands for. -/
def decimalValue (s : Text) : Nat :=
  s.foldl (fun value c => 10 * value + (c.toNat - '0'.toNat)) 0

theorem digitsValue_of_digits (tables : CharTables) {s : Text}
    (digits : ∀ c ∈ s, c.isDigit = true) : digitsValue tables s = some (decimalValue s) := by
  have go (value : Nat) :
      s.foldl (fun value c => value.bind fun v => (tables.digit c).map fun d => 10 * v + d)
          (some value) =
        some (s.foldl (fun value c => 10 * value + (c.toNat - '0'.toNat)) value) := by
    induction s generalizing value with
    | nil => rfl
    | cons c rest ih =>
        have first := tables.digit_ascii c (digits c (by simp))
        simp only [List.foldl_cons, Option.bind_some, first, Option.map_some]
        exact ih (fun d member => digits d (by simp [member])) _
  exact go 0

theorem sign_of_digits {s : Text} (digits : ∀ c ∈ s, c.isDigit = true) : sign s = (1, s) := by
  unfold sign
  split
  · exact absurd (digits '-' (by simp)) (by decide)
  · exact absurd (digits '+' (by simp)) (by decide)
  · rfl

theorem parseInt_of_digits (tables : CharTables) {s : Text} (nonempty : s ≠ [])
    (digits : ∀ c ∈ s, c.isDigit = true) (fits : decimalValue s ≤ 2147483647) :
    parseInt tables s = .ok (decimalValue s) := by
  have range : (-2147483648 : Int) ≤ decimalValue s ∧ (decimalValue s : Int) ≤ 2147483647 := by
    omega
  rw [parseInt, sign_of_digits digits]
  simp only [if_neg nonempty, digitsValue_of_digits tables digits, Int.one_mul, if_pos range]

/-- The value a `long` has after an operation with this exact result, modulo
    2^64. -/
def wrap64 (n : Int) : Int := n.bmod 18446744073709551616

/-- The first number that is no `long`, 2^63. -/
def longLimit : ℕ := 9223372036854775808

theorem wrap64_natCast_iff (n : ℕ) : wrap64 n = n ↔ n < longLimit := by
  rw [longLimit]
  have below : wrap64 n < (18446744073709551616 + 1) / 2 := Int.bmod_lt (by decide)
  constructor
  · intro kept
    omega
  · intro small
    exact Int.bmod_eq_of_le (by omega) (by omega)

/-! ## Lines -/

/-- The text has no line terminator. -/
def OneLine (s : Text) : Prop := '\r' ∉ s ∧ '\n' ∉ s

instance (s : Text) : Decidable (OneLine s) := inferInstanceAs (Decidable ('\r' ∉ s ∧ '\n' ∉ s))

theorem OneLine.nil : OneLine [] := ⟨List.not_mem_nil, List.not_mem_nil⟩

theorem oneLine_cons {c : Char} {s : Text} :
    OneLine (c :: s) ↔ (c ≠ '\r' ∧ c ≠ '\n') ∧ OneLine s := by
  simp only [OneLine, List.mem_cons, not_or, ne_eq, eq_comm (a := c)]
  exact and_and_and_comm

theorem oneLine_append {s t : Text} : OneLine (s ++ t) ↔ OneLine s ∧ OneLine t := by
  simp only [OneLine, List.mem_append, not_or]
  exact and_and_and_comm

/-- The characters up to the first line end, and what follows it. A line ends
    at a line feed, at a carriage return, at both in a row, or with the input. -/
def takeLine : Text → Text × Text
  | [] => ([], [])
  | '\n' :: rest => ([], rest)
  | '\r' :: '\n' :: rest => ([], rest)
  | '\r' :: rest => ([], rest)
  | c :: rest => (c :: (takeLine rest).1, (takeLine rest).2)

/-- `BufferedReader.readLine`: `none` is the `null` at the end of the stream. -/
def readLine : Text → Option (Text × Text)
  | [] => none
  | input => some (takeLine input)

/-- Every line that successive `readLine` calls return. -/
def lines : Text → List Text
  | [] => []
  | '\n' :: rest => [] :: lines rest
  | '\r' :: '\n' :: rest => [] :: lines rest
  | '\r' :: rest => [] :: lines rest
  | c :: rest =>
      match lines rest with
      | [] => [[c]]
      | line :: others => (c :: line) :: others

/-- `lines` is what repeated `readLine` calls see. -/
theorem lines_readLine (input : Text) :
    lines input = match readLine input with
      | none => []
      | some (line, rest) => line :: lines rest := by
  induction input using lines.induct with
  | case1 => rfl
  | case2 rest _ => rfl
  | case3 rest _ => rfl
  | case4 rest notLf _ => simp only [lines, readLine, takeLine]
  | case5 c rest notLf notCrLf notCr empty ih =>
      have ended : rest = [] := by
        cases rest with
        | nil => rfl
        | cons d more => simp [ih, readLine] at empty
      subst ended
      simp only [lines, readLine, takeLine]
  | case6 c rest notLf notCrLf notCr line others found ih =>
      cases rest with
      | nil => simp [lines] at found
      | cons d more =>
          simp only [readLine] at ih
          simp only [lines, ih, readLine, takeLine]

theorem lines_lf {line : Text} (oneLine : OneLine line) (rest : Text) :
    lines (line ++ '\n' :: rest) = line :: lines rest := by
  induction line with
  | nil => simp only [List.nil_append, lines]
  | cons c line ih =>
      obtain ⟨⟨notCr, notLf⟩, remaining⟩ := oneLine_cons.mp oneLine
      rw [List.cons_append, lines, ih remaining]
      · exact fun same => absurd same notLf
      · exact fun _ same => absurd same notCr
      · exact fun same => absurd same notCr

theorem lines_last {line : Text} (oneLine : OneLine line) (some : line ≠ []) :
    lines line = [line] := by
  induction line with
  | nil => exact absurd rfl some
  | cons c line ih =>
      obtain ⟨⟨notCr, notLf⟩, remaining⟩ := oneLine_cons.mp oneLine
      cases line with
      | nil => simp only [lines]
      | cons d line =>
          rw [lines, ih remaining (List.cons_ne_nil _ _)]
          · exact fun same => absurd same notLf
          · exact fun _ same => absurd same notCr
          · exact fun same => absurd same notCr

end Orbot.Java
