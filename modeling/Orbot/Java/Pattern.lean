import Orbot.Java.Text
import Orbot.Lib.Fields
import Orbot.Lib.GreedyMatch

/-! # Regular expressions

The predefined classes of `java.util.regex.Pattern`, `String.split` at white
space, and the search for a pattern that is anchored at both ends.
-/

namespace Orbot.Java

open Lib.Fields Lib.GreedyMatch

/-- What the classes hold beyond ASCII is not the same on every machine: on
    Android they are those of Unicode. A pattern takes a surrogate pair as one
    character, so that `\d` may hold more than `Character.digit` has a value for. -/
structure PatternClasses (tables : CharTables) where
  /-- `\s` -/
  space : Char → Bool
  /-- `\d` -/
  digit : Char → Bool
  /-- the line terminators, which `.` leaves out -/
  terminator : Char → Bool
  space_blank : space ' ' = true
  digit_ascii : ∀ c : Char, c.toNat < 127 → digit c = c.isDigit
  digit_not_space : ∀ c : Char, digit c = true → space c = false
  terminator_feed : terminator '\n' = true
  terminator_return : terminator '\r' = true
  terminator_printable : ∀ c : Char, 32 ≤ c.toNat → c.toNat < 127 → terminator c = false

def asciiSpaces : Text := [' ', '\t', '\n', '\x0b', '\x0c', '\r']

/-- The classes as they are without `UNICODE_CHARACTER_CLASS`. -/
def PatternClasses.ascii : PatternClasses CharTables.ascii where
  space c := c ∈ asciiSpaces
  digit := Char.isDigit
  terminator c := c ∈ ['\n', '\r', '\u0085', '\u2028', '\u2029']
  space_blank := by decide
  digit_ascii _ _ := rfl
  digit_not_space c digit := by
    by_contra member
    simp only [Bool.not_eq_false, decide_eq_true_eq] at member
    have none : asciiSpaces.all (fun d => !d.isDigit) = true := by decide
    have other := List.all_eq_true.mp none c member
    rw [digit] at other
    cases other
  terminator_feed := by decide
  terminator_return := by decide
  terminator_printable c low high := by
    by_contra member
    simp only [Bool.not_eq_false, decide_eq_true_eq] at member
    have outside : ['\n', '\r', '\u0085', '\u2028', '\u2029'].all
        (fun d => d.toNat < 32 ∨ 127 ≤ d.toNat) = true := by decide
    have apart : c.toNat < 32 ∨ 127 ≤ c.toNat := by simpa using List.all_eq_true.mp outside c member
    omega

variable {tables : CharTables} (classes : PatternClasses tables)

theorem PatternClasses.digit_of_isDigit {c : Char} (isDigit : c.isDigit = true) :
    classes.digit c = true := by
  have small : c.toNat < 127 := by
    simp only [Char.isDigit, Bool.and_eq_true, decide_eq_true_eq] at isDigit
    have nine : c.toNat ≤ '9'.toNat := isDigit.2
    exact nine.trans_lt (by decide)
  rw [classes.digit_ascii c small, isDigit]

theorem PatternClasses.space_of_isDigit {c : Char} (isDigit : c.isDigit = true) :
    classes.space c = false :=
  classes.digit_not_space c (classes.digit_of_isDigit isDigit)

/-! ## Numbers -/

variable {classes}

theorem sign_of_class {digits : Text} (areDigits : ∀ c ∈ digits, classes.digit c = true) :
    sign digits = (1, digits) := by
  have other {c : Char} (low : c.toNat < 127) (notDigit : c.isDigit = false) : c ∉ digits := by
    intro member
    have isDigit := areDigits c member
    rw [classes.digit_ascii c low, notDigit] at isDigit
    cases isDigit
  unfold sign
  split
  next => exact absurd (List.mem_cons_self ..) (other (c := '-') (by decide) (by decide))
  next => exact absurd (List.mem_cons_self ..) (other (c := '+') (by decide) (by decide))
  next => rfl

/-- Digits that all have a value for `Integer.parseInt`, and together one no larger
    than an `int`. -/
def FitsInt (tables : CharTables) (digits : Text) (value : Nat) : Prop :=
  digits ≠ [] ∧ digitsValue tables digits = some value ∧ value ≤ 2147483647

theorem parseInt_of_class_iff {digits : Text} (areDigits : ∀ c ∈ digits, classes.digit c = true)
    (n : Int) :
    parseInt tables digits = .ok n ↔ ∃ value : Nat, FitsInt tables digits value ∧ n = value := by
  rw [parseInt, sign_of_class areDigits]
  by_cases nonempty : digits = []
  · simp [FitsInt, nonempty]
  · simp only [FitsInt, if_neg nonempty]
    cases known : digitsValue tables digits with
    | none => simp
    | some value =>
        simp only [Int.one_mul]
        constructor
        · intro parsed
          split_ifs at parsed with fits
          obtain rfl := Except.ok.inj parsed
          exact ⟨value, ⟨nonempty, rfl, Int.ofNat_le.mp fits.2⟩, rfl⟩
        · rintro ⟨value', ⟨-, same, fits⟩, rfl⟩
          obtain rfl := Option.some.inj same
          rw [if_pos ⟨by omega, Int.ofNat_le.mpr fits⟩]

/-! ## Split -/

variable (classes)

/-- `String.split("\\s+")`: white space at the front leaves an empty first piece,
    white space at the end leaves nothing. -/
def splitSpaces (s : Text) : List Text :=
  if s.any classes.space then
    match s.splitOnP classes.space with
    | [] => []
    | first :: others => (first :: others.filter (!·.isEmpty)).rdropWhile (· = [])
  else [s]

variable {classes}

/-- The piece up to the first white space, and then the fields. -/
theorem splitSpaces_append {word rest : Text} {c : Char}
    (apart : ∀ d ∈ word, classes.space d = false) (space : classes.space c = true)
    (more : fields classes.space rest ≠ []) :
    splitSpaces classes (word ++ c :: rest) = word :: fields classes.space rest := by
  have inside : (word ++ c :: rest).any classes.space = true :=
    List.any_eq_true.mpr ⟨c, by simp, space⟩
  have pieces : (word ++ c :: rest).splitOnP classes.space =
      word :: rest.splitOnP classes.space :=
    List.splitOnP_append_cons_of_forall_mem (by simpa using apart) c space rest
  rw [splitSpaces, if_pos inside, pieces]
  change (word :: fields classes.space rest).rdropWhile (· = []) = _
  rw [List.rdropWhile_eq_self_iff]
  intro nonempty
  rw [List.getLast_cons more]
  simpa using (mem_fields (List.getLast_mem more)).1

/-! ## Anchored patterns -/

variable (classes)

/-- `.` -/
def PatternClasses.dot (c : Char) : Bool := !classes.terminator c

/-- `$`: at the end, or before a line terminator there. The place between the two
    characters of one is none; the patterns cannot reach it, as `.` is not a
    carriage return. -/
def PatternClasses.atEnd : Text → Bool
  | [] => true
  | [c] => classes.terminator c
  | [c, d] => c = '\r' && d = '\n'
  | _ => false

/-- `find` for the pattern `^`, the items and `$`, with what it captures. -/
def PatternClasses.find (items : List (Item Char)) (s : Text) : Option (List Text) :=
  firstMatch classes.atEnd items s

variable {classes}

theorem atEnd_cases {s : Text} (ended : classes.atEnd s = true) :
    s = [] ∨ ∃ c rest, s = c :: rest ∧ classes.terminator c = true := by
  unfold PatternClasses.atEnd at ended
  split at ended
  next => exact .inl rfl
  next c => exact .inr ⟨c, [], rfl, ended⟩
  next c d =>
      obtain ⟨rfl, -⟩ : c = '\r' ∧ d = '\n' := by simpa using ended
      exact .inr ⟨_, _, rfl, classes.terminator_return⟩
  next => cases ended

theorem PatternClasses.dot_of_printable {s : Text}
    (printable : s.all (fun c => 32 ≤ c.toNat ∧ c.toNat < 127) = true) :
    ∀ c ∈ s, classes.dot c = true := by
  intro c member
  have range : 32 ≤ c.toNat ∧ c.toNat < 127 := by
    simpa using List.all_eq_true.mp printable c member
  rw [PatternClasses.dot, classes.terminator_printable c range.1 range.2]
  rfl

/-- A line and the end of it. -/
structure LineAtEnd (classes : PatternClasses tables) (s line eol : Text) : Prop where
  split : s = line ++ eol
  dots : ∀ c ∈ line, classes.dot c = true
  ended : classes.atEnd eol = true

/-- A line goes as far as the first line terminator. -/
theorem LineAtEnd.eq_takeWhile {s line eol : Text} (lineAtEnd : LineAtEnd classes s line eol) :
    line = s.takeWhile classes.dot ∧ eol = s.dropWhile classes.dot := by
  obtain ⟨rfl, dots, ended⟩ := lineAtEnd
  rw [List.takeWhile_append_of_pos dots, List.dropWhile_append_of_pos dots]
  rcases atEnd_cases ended with rfl | ⟨c, rest, rfl, terminator⟩
  · simp
  · have stops : classes.dot c = false := by simp [PatternClasses.dot, terminator]
    simp [stops]

theorem LineAtEnd.unique {s line line' eol eol' : Text}
    (lineAtEnd : LineAtEnd classes s line eol) (lineAtEnd' : LineAtEnd classes s line' eol') :
    line = line' :=
  lineAtEnd.eq_takeWhile.1.trans lineAtEnd'.eq_takeWhile.1.symm

end Orbot.Java
