import Mathlib.Data.List.Nodup
import Orbot.Java.Text
import Orbot.Lib.Fields

/-! # Recording onion names

When Tor runs, the last loop of `startTor` reads a file for each hidden service
that lacks its domain or its cookie, and stores what the file holds. An
exception inside the loop is caught behind it.
-/

namespace Orbot.Service

open Java (Text RuntimeException)
open Lib.Fields

/-- A row of the hidden service table; `none` is a null column. -/
structure OnionRow where
  domain : Option Text
  port : Int
  authCookie : Int
  authCookieValue : Option Text
  deriving Repr, DecidableEq

/-- The file `hostname` of a hidden service. -/
inductive HostnameFile where
  /-- `getCanonicalPath` throws an `IOException` -/
  | noPath
  | missing
  /-- opening it throws a `FileNotFoundException` -/
  | unreadable
  | text (content : Text)
  deriving Repr, DecidableEq

/-- `fields`, with the columns that are put. -/
structure ContentValues where
  domain : Text
  authCookieValue : Option Text
  deriving Repr, DecidableEq

/-! ## The loop -/

/-- `Utils.readString` -/
def readString (content : Text) : Text := (Java.lines content).flatMap (· ++ ['\n'])

namespace OnionRow

/-- Update only new domains or restored from backup with auth cookie. -/
def isNew (row : OnionRow) : Bool :=
  row.domain.getD [] = [] || (row.authCookie = 1 && row.authCookieValue.getD [] = [])

def store (row : OnionRow) (values : ContentValues) : OnionRow :=
  { row with
    domain := some values.domain
    authCookieValue := values.authCookieValue.or row.authCookieValue }

end OnionRow

/-- The values put for a file with this content. -/
def hostnameValues (authCookie : Int) (content : Text) : Except RuntimeException ContentValues :=
  let onionHostname := Java.trim (readString content)
  if authCookie = 1 then do
    let aux := Java.split onionHostname ' '
    let name ← Java.get aux 0
    let cookie ← Java.get aux 1
    return { domain := name, authCookieValue := some cookie }
  else .ok { domain := onionHostname, authCookieValue := none }

/-- `mCR.update` of the rows with the port. -/
def updatePort (port : Int) (values : ContentValues) (table : List OnionRow) : List OnionRow :=
  table.map fun row => if row.port = port then row.store values else row

/-- The loop over the cursor, with the table it updates. -/
def updateNames (files : Int → HostnameFile) : List OnionRow → List OnionRow → List OnionRow
  | [], table => table
  | row :: rest, table =>
      if row.isNew then
        match files row.port with
        | .noPath => table
        | .missing | .unreadable => updateNames files rest table
        | .text content =>
            match hostnameValues row.authCookie content with
            | .error _ => table
            | .ok values => updateNames files rest (updatePort row.port values table)
      else updateNames files rest table

/-! ## What is to be recorded -/

def blank (c : Char) : Bool := c ≤ ' '

/-- The name in a file, and with the flag the cookie behind it. -/
def heldValues (authCookie : Int) : List Text → Option ContentValues
  | [] => none
  | [name] => if authCookie = 1 then none else some ⟨name, none⟩
  | name :: cookie :: _ => some ⟨name, if authCookie = 1 then some cookie else none⟩

def held (files : Int → HostnameFile) (row : OnionRow) : Option ContentValues :=
  match files row.port with
  | .text content => heldValues row.authCookie (fields blank content)
  | _ => none

/-- The row after the loop, if it is new and its file holds the values. -/
def recorded (files : Int → HostnameFile) (row : OnionRow) : OnionRow :=
  if row.isNew then (held files row).elim row row.store else row

/-- There is something to record for the row. -/
def Records (files : Int → HostnameFile) (row : OnionRow) : Prop :=
  row.isNew = true ∧ held files row ≠ none

theorem heldValues_name {authCookie : Int} (noFlag : authCookie ≠ 1) (name : Text)
    (more : List Text) : heldValues authCookie (name :: more) = some ⟨name, none⟩ := by
  cases more with
  | nil => rw [heldValues, if_neg noFlag]
  | cons cookie more => rw [heldValues, if_neg noFlag]

theorem heldValues_cookie {authCookie : Int} (flag : authCookie = 1) (name cookie : Text)
    (more : List Text) :
    heldValues authCookie (name :: cookie :: more) = some ⟨name, some cookie⟩ := by
  rw [heldValues, if_pos flag]

/-! ## When the loop records it -/

def hostnameText (content : Text) : Text := Java.trim (readString content)

def Word (s : Text) : Prop := s ≠ [] ∧ ∀ c ∈ s, blank c = false

/-- The row ends the loop: its file has no path, or no blank before a cookie. -/
def EndsLoop (files : Int → HostnameFile) (row : OnionRow) : Prop :=
  row.isNew = true ∧
    (files row.port = .noPath ∨
      ∃ content, files row.port = .text content ∧ row.authCookie = 1 ∧
        ' ' ∉ hostnameText content)

/-- A name alone, or an empty file for an empty domain. -/
def TidyName (row : OnionRow) (text : Text) : Prop :=
  Word text ∨ text = [] ∧ row.domain = some []

/-- A name, one blank and a cookie, and another blank before anything else. -/
def TidyCookie (text : Text) : Prop :=
  ∃ name cookie rest, Word name ∧ Word cookie ∧
    (text = name ++ ' ' :: cookie ∨ text = name ++ ' ' :: (cookie ++ ' ' :: rest))

def Tidy (files : Int → HostnameFile) (row : OnionRow) : Prop :=
  ∀ content, row.isNew = true → files row.port = .text content →
    if row.authCookie = 1 then TidyCookie (hostnameText content)
    else TidyName row (hostnameText content)

/-- Every file is tidy up to the first row that ends the loop, and neither that
    row nor a later one has something to record. -/
def AllRecorded (files : Int → HostnameFile) : List OnionRow → Prop
  | [] => True
  | row :: rest =>
      (EndsLoop files row ∧ ∀ later ∈ row :: rest, ¬Records files later) ∨
        (¬EndsLoop files row ∧ Tidy files row ∧ AllRecorded files rest)

/-! ## The text of a file -/

theorem eq_nil_of_lines_eq_nil {s : Text} (none : Java.lines s = []) : s = [] := by
  have read := Java.lines_readLine s
  cases s with
  | nil => rfl
  | cons c rest => simp [none, Java.readLine] at read

/-- A line end is read as a line feed, and separates what it separated. -/
theorem fields_readString_end {c : Char} {ends rest : Text} (isBlank : blank c = true)
    (blanks : ∀ d ∈ ends, blank d = true)
    (read : readString (c :: (ends ++ rest)) = '\n' :: readString rest)
    (same : fields blank (readString rest) = fields blank rest) (front : Text) :
    fields blank (front ++ readString (c :: (ends ++ rest))) =
      fields blank (front ++ c :: (ends ++ rest)) := by
  have lf : blank '\n' = true := by decide
  rw [read, fields_append_cons _ _ lf, fields_append_cons _ _ isBlank,
    fields_separators_append blanks, same]

/-- Reading line by line changes line ends only. -/
theorem fields_readString (content : Text) :
    fields blank (readString content) = fields blank content := by
  have behind : ∀ front, fields blank (front ++ readString content) =
      fields blank (front ++ content) := by
    have lf : blank '\n' = true := by decide
    have cr : blank '\r' = true := by decide
    induction content using Java.lines.induct with
    | case1 =>
        intro front
        rfl
    | case2 rest ih =>
        have read : readString ('\n' :: rest) = '\n' :: readString rest := by
          simp [readString, Java.lines]
        exact @fields_readString_end '\n' [] rest lf (List.forall_mem_nil _) read (ih [])
    | case3 rest ih =>
        have read : readString ('\r' :: '\n' :: rest) = '\n' :: readString rest := by
          simp [readString, Java.lines]
        exact @fields_readString_end '\r' ['\n'] rest cr (List.forall_mem_singleton.mpr lf) read
          (ih [])
    | case4 rest notLf ih =>
        have read : readString ('\r' :: rest) = '\n' :: readString rest := by
          simp [readString, Java.lines]
        exact @fields_readString_end '\r' [] rest cr (List.forall_mem_nil _) read (ih [])
    | case5 c rest notLf notCrLf notCr empty ih =>
        intro front
        obtain rfl := eq_nil_of_lines_eq_nil empty
        have read : readString [c] = [c] ++ ['\n'] := by
          simp only [readString, Java.lines, List.flatMap_cons, List.flatMap_nil, List.append_nil]
        rw [read, ← List.append_assoc,
          fields_append_separators _ (List.forall_mem_singleton.mpr lf)]
    | case6 c rest notLf notCrLf notCr line others found ih =>
        intro front
        have read : readString (c :: rest) = c :: readString rest := by
          simp only [readString, Java.lines, found, List.flatMap_cons, List.cons_append]
        rw [read, List.append_cons front c (readString rest), List.append_cons front c rest]
        exact ih (front ++ [c])
  exact behind []

/-- A text whose first and last characters are no blanks. -/
structure Trimmed (s : Text) : Prop where
  first : ∀ c ∈ s.head?, blank c = false
  last : ∀ c ∈ s.getLast?, blank c = false

theorem trimmed_trim (s : Text) : Trimmed (Java.trim s) := by
  constructor
  case first =>
    intro c head
    have nonempty : Java.trim s ≠ [] := List.ne_nil_of_mem (List.mem_of_mem_head? head)
    have front : Java.trim s <+: s.dropWhile blank := List.rdropWhile_prefix blank _
    rw [List.head?_eq_some_head nonempty, front.head nonempty] at head
    rw [← Option.some.inj head]
    exact List.head_dropWhile_not blank _
  case last =>
    intro c last
    have nonempty : Java.trim s ≠ [] := List.ne_nil_of_mem (List.mem_of_getLast? last)
    rw [List.getLast?_eq_some_getLast nonempty] at last
    rw [← Option.some.inj last]
    exact Bool.eq_false_iff.mpr (List.rdropWhile_last_not blank _ nonempty)

theorem fields_trim (s : Text) : fields blank (Java.trim s) = fields blank s := by
  have back : ∀ c ∈ (s.dropWhile blank).rtakeWhile blank, blank c = true :=
    fun _ inside => List.mem_rtakeWhile_imp inside
  have front : ∀ c ∈ s.takeWhile blank, blank c = true :=
    fun _ inside => List.mem_takeWhile_imp inside
  calc fields blank (Java.trim s)
      = fields blank (Java.trim s ++ (s.dropWhile blank).rtakeWhile blank) :=
        (fields_append_separators _ back).symm
    _ = fields blank (s.dropWhile blank) := by
        rw [show Java.trim s = (s.dropWhile blank).rdropWhile blank from rfl,
          List.rdropWhile_append_rtakeWhile]
    _ = fields blank (s.takeWhile blank ++ s.dropWhile blank) :=
        (fields_separators_append front _).symm
    _ = fields blank s := by rw [List.takeWhile_append_dropWhile]

theorem fields_hostnameText (content : Text) :
    fields blank (hostnameText content) = fields blank content := by
  rw [hostnameText, fields_trim, fields_readString]

theorem Word.noBlank {s : Text} (word : Word s) : ' ' ∉ s :=
  fun inside => absurd (word.2 ' ' inside) (by decide)

theorem word_of_mem_fields {s word : Text} (member : word ∈ fields blank s) : Word word :=
  mem_fields member

/-! ## One file -/

section File

variable {text : Text} (trimmed : Trimmed text)
include trimmed

theorem Trimmed.fields_ne_nil (nonempty : text ≠ []) : fields blank text ≠ [] :=
  Lib.Fields.fields_ne_nil (List.head_mem nonempty)
    (trimmed.first _ (List.head?_eq_some_head nonempty))

/-- With a blank inside there are two words at least. -/
theorem Trimmed.two_fields {front back : Text} (same : text = front ++ ' ' :: back) :
    ∃ name cookie more, fields blank text = name :: cookie :: more := by
  have before : fields blank front ≠ [] := by
    cases front with
    | nil =>
        rw [same, List.nil_append] at trimmed
        exact absurd (trimmed.first ' ' rfl) (by decide)
    | cons c front =>
        rw [same, List.cons_append] at trimmed
        exact Lib.Fields.fields_ne_nil (List.mem_cons_self ..) (trimmed.first c rfl)
  have behind : fields blank back ≠ [] := by
    cases back using List.reverseRecOn with
    | nil =>
        rw [same] at trimmed
        exact absurd (trimmed.last ' ' (by simp)) (by decide)
    | append_singleton back c =>
        rw [same] at trimmed
        have last : c ∈ (front ++ ' ' :: (back ++ [c])).getLast? := by
          rw [← List.cons_append, ← List.append_assoc, List.getLast?_concat]
          rfl
        exact Lib.Fields.fields_ne_nil (List.mem_append_right back (List.mem_singleton_self c))
          (trimmed.last c last)
  obtain ⟨name, names, first⟩ := List.exists_cons_of_ne_nil before
  obtain ⟨cookie, more, second⟩ := List.exists_cons_of_ne_nil behind
  rw [same, fields_append_cons front back (by decide), first, second]
  cases names with
  | nil => exact ⟨name, cookie, more, rfl⟩
  | cons other names => exact ⟨name, other, names ++ cookie :: more, rfl⟩

/-- What stands before the first blank, and from there to the next one. -/
theorem Trimmed.split_eq {front back : Text} (same : text = front ++ ' ' :: back)
    (first : ' ' ∉ front) :
    ∃ others, Java.split text ' ' = front :: back.takeWhile (· ≠ ' ') :: others := by
  have last : text.getLast? ≠ some ' ' :=
    fun ends => absurd (trimmed.last ' ' ends) (by decide)
  obtain ⟨others, pieces⟩ := Java.splitOn_eq_cons back ' '
  rw [Java.split_eq_splitOn last (by simp [same]), same, Java.splitOn_append first, pieces]
  exact ⟨others, rfl⟩

/-- The whole text is the name if it is one word. -/
theorem Trimmed.name_iff (row : OnionRow) (noFlag : row.authCookie ≠ 1) :
    row.store ⟨text, none⟩ = (heldValues row.authCookie (fields blank text)).elim row row.store ↔
      TidyName row text := by
  by_cases empty : text = []
  · subst empty
    rw [fields_nil, heldValues, Option.elim_none, TidyName]
    constructor
    · intro kept
      exact .inr ⟨rfl, (congrArg OnionRow.domain kept).symm⟩
    · rintro (word | ⟨-, domain⟩)
      · exact absurd rfl word.1
      · rw [OnionRow.store, Option.none_or, ← domain]
  · obtain ⟨name, more, words⟩ := List.exists_cons_of_ne_nil (trimmed.fields_ne_nil empty)
    rw [words, heldValues_name noFlag, Option.elim_some]
    constructor
    · intro same
      have whole : text = name := Option.some.inj (congrArg OnionRow.domain same)
      left
      rw [whole]
      exact word_of_mem_fields (words ▸ List.mem_cons_self ..)
    · rintro (word | ⟨none, -⟩)
      · rw [fields_single word.1 word.2] at words
        rw [(List.cons.inj words).1]
      · exact absurd none empty

/-- The two parts are the name and the cookie if one blank stands between them. -/
theorem Trimmed.cookie_iff (row : OnionRow) (flag : row.authCookie = 1) {front back : Text}
    (same : text = front ++ ' ' :: back) (first : ' ' ∉ front) :
    row.store ⟨front, some (back.takeWhile (· ≠ ' '))⟩ =
        (heldValues row.authCookie (fields blank text)).elim row row.store ↔
      TidyCookie text := by
  obtain ⟨name, cookie, more, words⟩ := trimmed.two_fields same
  rw [words, heldValues_cookie flag, Option.elim_some]
  constructor
  · intro stored
    have before : front = name := Option.some.inj (congrArg OnionRow.domain stored)
    have behind : back.takeWhile (· ≠ ' ') = cookie :=
      Option.some.inj (congrArg OnionRow.authCookieValue stored)
    have nameWord : Word name := word_of_mem_fields (words ▸ List.mem_cons_self ..)
    have cookieWord : Word cookie := word_of_mem_fields
      (words ▸ List.mem_cons_of_mem _ (List.mem_cons_self ..))
    subst before
    by_cases more : ' ' ∈ back
    · obtain ⟨part, rest, rfl, absent⟩ := List.eq_append_cons_of_mem more
      rw [Java.takeWhile_ne_append absent] at behind
      subst behind
      exact ⟨front, part, rest, nameWord, cookieWord, .inr same⟩
    · rw [Java.takeWhile_ne_of_not_mem more] at behind
      subst behind
      exact ⟨front, back, [], nameWord, cookieWord, .inl same⟩
  · rintro ⟨name', cookie', rest, nameWord, cookieWord, alone | followed⟩
    · obtain ⟨rfl, rfl⟩ :=
        Java.append_cons_inj first nameWord.noBlank (same.symm.trans alone)
      rw [same, fields_append_cons _ _ (by decide), fields_single nameWord.1 nameWord.2,
        fields_single cookieWord.1 cookieWord.2] at words
      obtain ⟨rfl, rfl, -⟩ : front = name ∧ back = cookie ∧ [] = more := by simpa using words
      rw [Java.takeWhile_ne_of_not_mem cookieWord.noBlank]
    · obtain ⟨rfl, rfl⟩ :=
        Java.append_cons_inj first nameWord.noBlank (same.symm.trans followed)
      rw [same, fields_append_cons _ _ (by decide), fields_append_cons cookie' rest (by decide),
        fields_single nameWord.1 nameWord.2, fields_single cookieWord.1 cookieWord.2] at words
      obtain ⟨rfl, rfl, -⟩ : front = name ∧ cookie' = cookie ∧ fields blank rest = more := by
        simpa using words
      rw [Java.takeWhile_ne_append cookieWord.noBlank]

end File

/-! ## One row -/

/-- What the loop does for a row: the row after it, or the end of the loop. -/
def turn (files : Int → HostnameFile) (row : OnionRow) : Option OnionRow :=
  if row.isNew then
    match files row.port with
    | .noPath => none
    | .missing | .unreadable => some row
    | .text content => (hostnameValues row.authCookie content).toOption.map row.store
  else some row

section Row

variable (files : Int → HostnameFile) (row : OnionRow)

theorem hostnameValues_noFlag (noFlag : row.authCookie ≠ 1) (content : Text) :
    hostnameValues row.authCookie content = .ok ⟨hostnameText content, none⟩ := by
  rw [hostnameValues, if_neg noFlag, hostnameText]

/-- Without a blank there is no second part. -/
theorem hostnameValues_noBlank (flag : row.authCookie = 1) {content : Text}
    (absent : ' ' ∉ hostnameText content) :
    hostnameValues row.authCookie content = .error .indexOutOfBounds := by
  rw [hostnameText] at absent
  rw [hostnameValues, if_pos flag, Java.split, if_neg absent]
  rfl

theorem hostnameValues_blank (flag : row.authCookie = 1) {content front back : Text}
    (same : hostnameText content = front ++ ' ' :: back) (first : ' ' ∉ front) :
    hostnameValues row.authCookie content =
      .ok ⟨front, some (back.takeWhile (· ≠ ' '))⟩ := by
  obtain ⟨others, parts⟩ := (trimmed_trim (readString content)).split_eq same first
  rw [hostnameValues, if_pos flag, parts]
  rfl

theorem turn_none_iff : turn files row = none ↔ EndsLoop files row := by
  rw [turn, EndsLoop]
  cases row.isNew with
  | false => simp
  | true =>
      rw [if_pos rfl]
      cases file : files row.port with
      | noPath => simp
      | missing | unreadable => simp
      | text content =>
          simp only [Option.map_eq_none_iff, reduceCtorEq, HostnameFile.text.injEq, false_or,
            exists_eq_left', true_and]
          by_cases flag : row.authCookie = 1
          · by_cases inside : ' ' ∈ hostnameText content
            · obtain ⟨front, back, same, absent⟩ := List.eq_append_cons_of_mem inside
              rw [hostnameValues_blank row flag same absent]
              simp [Except.toOption, inside]
            · rw [hostnameValues_noBlank row flag inside]
              simp [Except.toOption, inside, flag]
          · rw [hostnameValues_noFlag row flag]
            simp [Except.toOption, flag]

/-- A turn leaves what is to be recorded if and only if the file is tidy. -/
theorem turn_recorded_iff {after : OnionRow} (goes : turn files row = some after) :
    after = recorded files row ↔ Tidy files row := by
  rw [turn] at goes
  rw [recorded, Tidy, held]
  cases new : row.isNew with
  | false =>
      rw [new] at goes
      simp_all
  | true =>
      rw [new, if_pos rfl] at goes
      rw [if_pos rfl]
      cases file : files row.port with
      | noPath =>
          rw [file] at goes
          cases goes
      | missing | unreadable =>
          rw [file] at goes
          simp_all
      | text content =>
          rw [file] at goes
          have trimmed : Trimmed (hostnameText content) := trimmed_trim _
          simp only [HostnameFile.text.injEq, forall_const, forall_eq']
          rw [← fields_hostnameText content]
          by_cases flag : row.authCookie = 1
          · rw [if_pos flag]
            by_cases inside : ' ' ∈ hostnameText content
            · obtain ⟨front, back, same, absent⟩ := List.eq_append_cons_of_mem inside
              simp only [hostnameValues_blank row flag same absent] at goes
              rw [← Option.some.inj goes]
              exact trimmed.cookie_iff row flag same absent
            · simp only [hostnameValues_noBlank row flag inside] at goes
              cases goes
          · rw [if_neg flag]
            simp only [hostnameValues_noFlag row flag] at goes
            rw [← Option.some.inj goes]
            exact trimmed.name_iff row flag

/-- What a file holds are words. -/
theorem word_of_held {values : ContentValues} (found : held files row = some values) :
    Word values.domain ∧
      (row.authCookie = 1 → ∃ cookie, values.authCookieValue = some cookie ∧ Word cookie) := by
  rw [held] at found
  cases file : files row.port with
  | noPath | missing | unreadable =>
      rw [file] at found
      cases found
  | text content =>
      rw [file] at found
      have member : ∀ word ∈ fields blank content, Word word :=
        fun _ inside => word_of_mem_fields inside
      cases words : fields blank content with
      | nil => simp [words, heldValues] at found
      | cons name more =>
          rw [words] at member
          have nameWord := member name (List.mem_cons_self ..)
          simp only [words] at found
          by_cases flag : row.authCookie = 1
          · cases more with
            | nil => simp [heldValues, flag] at found
            | cons cookie more =>
                rw [heldValues_cookie flag] at found
                rw [← Option.some.inj found]
                constructor
                · exact nameWord
                · intro _
                  exact ⟨cookie, rfl, member cookie (by simp)⟩
          · rw [heldValues_name flag] at found
            rw [← Option.some.inj found]
            exact ⟨nameWord, fun flagged => absurd flagged flag⟩

/-- What is recorded for a row changes it. -/
theorem recorded_eq_iff : recorded files row = row ↔ ¬Records files row := by
  rw [recorded, Records]
  cases new : row.isNew with
  | false => simp
  | true =>
      cases found : held files row with
      | none => simp
      | some values =>
          obtain ⟨name, cookie⟩ := word_of_held files row found
          simp only [if_true, Option.elim_some, reduceCtorEq, not_false_eq_true, ne_eq, and_self,
            not_true_eq_false, iff_false]
          intro same
          have domain : row.domain = some values.domain := (congrArg OnionRow.domain same).symm
          rw [OnionRow.isNew, domain] at new
          simp only [Option.getD_some, name.1, decide_false, Bool.false_or, Bool.and_eq_true,
            decide_eq_true_eq] at new
          obtain ⟨value, put, word⟩ := cookie new.1
          have stored : row.authCookieValue = some value := by
            rw [← same, OnionRow.store, put, Option.some_or]
          rw [stored] at new
          exact word.1 new.2

end Row

/-! ## The whole loop -/

section Loop

variable (files : Int → HostnameFile)

/-- The rows after the loop. -/
def walk : List OnionRow → List OnionRow
  | [] => []
  | row :: rest =>
      match turn files row with
      | none => row :: rest
      | some after => after :: walk rest

/-- Updating by port changes one row only. -/
theorem updatePort_one {done rest : List OnionRow} {row : OnionRow}
    (distinct : ((done ++ row :: rest).map OnionRow.port).Nodup) (values : ContentValues) :
    updatePort row.port values (done ++ row :: rest) = done ++ row.store values :: rest := by
  rw [List.map_append, List.map_cons, List.nodup_middle, List.nodup_cons, ← List.map_append]
    at distinct
  have others {rows : List OnionRow} (inside : rows ⊆ done ++ rest) :
      rows.map (fun r => if r.port = row.port then r.store values else r) = rows := by
    refine (List.map_congr_left ?_).trans (List.map_id rows)
    intro r member
    apply if_neg
    intro same
    exact distinct.1 (same ▸ List.mem_map_of_mem (inside member))
  rw [updatePort, List.map_append, List.map_cons, if_pos rfl,
    others (List.subset_append_left done rest), others (List.subset_append_right done rest)]

/-- Going on from a row, the table changes from there on, row by row. -/
theorem updateNames_eq {done rest : List OnionRow}
    (distinct : ((done ++ rest).map OnionRow.port).Nodup) :
    updateNames files rest (done ++ rest) = done ++ walk files rest := by
  induction rest generalizing done with
  | nil => rfl
  | cons row rest ih =>
      have next (after : OnionRow) (port : after.port = row.port) :
          updateNames files rest (done ++ after :: rest) = done ++ after :: walk files rest := by
        have moved : ((done ++ [after] ++ rest).map OnionRow.port).Nodup := by
          simpa [port] using distinct
        have later := ih moved
        rwa [← List.append_cons, ← List.append_cons] at later
      rw [updateNames, walk, turn]
      cases row.isNew with
      | false => exact next row rfl
      | true =>
          rw [if_pos rfl, if_pos rfl]
          cases files row.port with
          | noPath => rfl
          | missing | unreadable => exact next row rfl
          | text content =>
              cases put : hostnameValues row.authCookie content with
              | error e => simp [put, Except.toOption]
              | ok values =>
                  simp only [put, Except.toOption, Option.map_some]
                  rw [updatePort_one distinct values]
                  exact next (row.store values) rfl

theorem walk_recorded_iff (rows : List OnionRow) :
    walk files rows = rows.map (recorded files) ↔ AllRecorded files rows := by
  induction rows with
  | nil => exact iff_of_true rfl trivial
  | cons row rest ih =>
      rw [walk, AllRecorded, ← turn_none_iff]
      cases goes : turn files row with
      | none =>
          have kept : (row :: rest).map (recorded files) = row :: rest ↔
              ∀ later ∈ row :: rest, ¬Records files later := by
            simp only [← recorded_eq_iff]
            constructor
            · intro same
              exact List.map_inj_left.mp (same.trans (List.map_id _).symm)
            · intro same
              exact (List.map_congr_left same).trans (List.map_id _)
          rw [eq_comm, kept]
          simp
      | some after =>
          rw [List.map_cons, List.cons_eq_cons, turn_recorded_iff files row goes, ih]
          simp

/-- The loop leaves everything recorded, and nothing else changed, if and only if
    the files up to its end are tidy and nothing is left to record there. -/
theorem updateNames_recorded_iff (rows : List OnionRow)
    (distinct : (rows.map OnionRow.port).Nodup) :
    updateNames files rows rows = rows.map (recorded files) ↔ AllRecorded files rows := by
  have table := @updateNames_eq files [] rows distinct
  rw [List.nil_append, List.nil_append] at table
  rw [table, walk_recorded_iff]

end Loop

/-! ## Two tables -/

def cookieFile : Int → HostnameFile
  | 80 => .text "a.onion secret # client: web\n".toList
  | _ => .missing

def restoredRows : List OnionRow :=
  [⟨none, 8080, 0, none⟩, ⟨some "old.onion".toList, 80, 1, none⟩]

/-- A tidy file with a cookie is recorded, behind a row without a file. -/
theorem updateNames_recorded_iff_cookie :
    updateNames cookieFile restoredRows restoredRows =
      [⟨none, 8080, 0, none⟩, ⟨some "a.onion".toList, 80, 1, some "secret".toList⟩] := by
  have expected : restoredRows.map (recorded cookieFile) =
      [⟨none, 8080, 0, none⟩, ⟨some "a.onion".toList, 80, 1, some "secret".toList⟩] := by decide
  have allRecorded : AllRecorded cookieFile restoredRows := by
    rw [← walk_recorded_iff, expected]
    decide
  rw [← expected]
  exact (updateNames_recorded_iff cookieFile restoredRows (by decide)).mpr allRecorded

def nameFile : Int → HostnameFile
  | 80 => .text "a.onion\n".toList
  | _ => .text "b.onion\n".toList

/-- A file without a cookie ends the loop before the next name is recorded. -/
theorem missing_cookie_ends_loop :
    ¬∀ (files : Int → HostnameFile) (rows : List OnionRow), (rows.map OnionRow.port).Nodup →
      updateNames files rows rows = rows.map (recorded files) := by
  intro claimed
  have table := claimed nameFile [⟨none, 80, 1, none⟩, ⟨none, 8080, 0, none⟩] (by decide)
  exact absurd table (by decide)

end Orbot.Service
