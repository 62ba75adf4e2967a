import Orbot.Control.ReplyFormat

/-! # Commands with keys and values

`TorControlConnection.setConf` and `mapAddresses`, which build one command line
from strings of the form `key value`. Their overloads add characters of their
own before the value is quoted, and quoting leaves every character in place.
-/

namespace Orbot.Control

open Java (Text OneLine RuntimeException)

/-! ## Building the line -/

def quoteChar (c : Char) : Text :=
  if c = '\r' ∨ c = '\n' ∨ c = '\\' ∨ c = '"' then ['\\', c] else [c]

def quote (s : Text) : Text := '"' :: s.flatMap quoteChar ++ ['"']

/-- What follows a key that ends before position `i`. -/
def keyAndValue (kv : Text) (i : Int) : Except RuntimeException Text := do
  let key ← Java.substring kv 0 i
  let value ← Java.substringFrom kv (i + 1)
  return ' ' :: key ++ '=' :: quote value

/-- A round of the loop of `setConf(Collection)`. There is no `else`: a string
    without a blank is appended and then cut at -1. -/
def setConfItem (kv : Text) : Except RuntimeException Text := do
  let i := Java.indexOf kv ' '
  let alone := if i = -1 then ' ' :: kv else []
  return alone ++ (← keyAndValue kv i)

/-- A round of the loop of `mapAddresses(Collection)`. -/
def mapAddressesItem (kv : Text) : Except RuntimeException Text :=
  keyAndValue kv (Java.indexOf kv ' ')

def appendItems (item : Text → Except RuntimeException Text) :
    List Text → Except RuntimeException Text
  | [] => .ok []
  | kv :: rest => do
      let first ← item kv
      let others ← appendItems item rest
      return first ++ others

/-- An entry of a `Map<String, String>`, in the order of its iterator. -/
abbrev Entry := Text × Text

/-- `setConf(Collection)`: the text handed to `sendAndWaitForResponse`, or `none`
    if nothing is sent. -/
def setConfCollection (kvList : List Text) : Except RuntimeException (Option Text) := do
  if kvList = [] then return none
  let items ← appendItems setConfItem kvList
  return some ("SETCONF".toList ++ items ++ crlf)

/-- `setConf(String, String)` -/
def setConf (key value : Text) : Except RuntimeException (Option Text) :=
  setConfCollection [key ++ ' ' :: value]

/-- `setConf(Map)` -/
def setConfMap (kvMap : List Entry) : Except RuntimeException (Option Text) :=
  setConfCollection (kvMap.map fun ent => ent.1 ++ ' ' :: ent.2 ++ ['\n'])

/-- The map that `mapAddresses` makes of the reply. -/
def addressMap : List ReplyLine → Except RuntimeException (Text → Option Text)
  | [] => .ok fun _ => none
  | line :: rest => do
      let idx := Java.indexOf line.msg '='
      let key ← Java.substring line.msg 0 idx
      let value ← Java.substringFrom line.msg (idx + 1)
      let later ← addressMap rest
      return fun k => (later k).or (if k = key then some value else none)

/-- The text of a command, and what the call makes of the reply to it. -/
structure Exchange (α : Type) where
  text : Text
  result : List ReplyLine → Except RuntimeException α

/-- `mapAddresses(Collection)` -/
def mapAddressesCollection (kvLines : List Text) :
    Except RuntimeException (Exchange (Text → Option Text)) := do
  let items ← appendItems mapAddressesItem kvLines
  return { text := "MAPADDRESS".toList ++ items ++ crlf, result := addressMap }

/-- `mapAddresses(Map)` -/
def mapAddressesMap (addresses : List Entry) :
    Except RuntimeException (Exchange (Text → Option Text)) :=
  mapAddressesCollection (addresses.map fun e => e.1 ++ ' ' :: e.2)

def mapAddress (fromAddr toAddr : Text) : Except RuntimeException (Exchange (Option Text)) := do
  let call ← mapAddressesCollection [fromAddr ++ ' ' :: toAddr ++ ['\n']]
  return { text := call.text, result := fun lst => (call.result lst).map fun m => m fromAddr }

/-! ## What is written -/

/-- The calls that build a command from keys and values. -/
inductive ConfigCall where
  | setConf (key value : Text)
  | setConfMap (kvMap : List Entry)
  | setConfCollection (kvList : List Text)
  | mapAddressesCollection (kvLines : List Text)
  | mapAddressesMap (addresses : List Entry)
  | mapAddress (fromAddr toAddr : Text)
  deriving Repr, DecidableEq

/-- The text a call writes to the control connection. -/
def ConfigCall.written : ConfigCall → Except RuntimeException (Option Text)
  | .setConf key value => Control.setConf key value
  | .setConfMap kvMap => Control.setConfMap kvMap
  | .setConfCollection kvList => Control.setConfCollection kvList
  | .mapAddressesCollection kvLines =>
      (Control.mapAddressesCollection kvLines).map fun call => some call.text
  | .mapAddressesMap addresses =>
      (Control.mapAddressesMap addresses).map fun call => some call.text
  | .mapAddress fromAddr toAddr =>
      (Control.mapAddress fromAddr toAddr).map fun call => some call.text

/-- The text has one line terminator, the one at its end. -/
def OneCommand (text : Text) : Prop := ∃ body, text = body ++ crlf ∧ OneLine body

/-- The call writes exactly one command. -/
def ConfigCall.WritesOneCommand (call : ConfigCall) : Prop :=
  ∃ text, call.written = .ok (some text) ∧ OneCommand text

/-- No blank and no line terminator. -/
def IsKey (s : Text) : Prop := ' ' ∉ s ∧ OneLine s

/-- The part before the first blank. -/
def keyOf (kv : Text) : Text := kv.takeWhile (· ≠ ' ')

/-- The argument is not empty and its keys have no blank and no terminator. -/
def ConfigCall.HasKeys : ConfigCall → Prop
  | .setConf key _ => IsKey key
  | .setConfMap entries | .mapAddressesMap entries => entries ≠ [] ∧ ∀ e ∈ entries, IsKey e.1
  | .setConfCollection kvs | .mapAddressesCollection kvs =>
      kvs ≠ [] ∧ ∀ kv ∈ kvs, IsKey (keyOf kv)
  | .mapAddress fromAddr _ => IsKey fromAddr

/-- The overload adds no newline, and every key has a value without terminators. -/
def ConfigCall.PlainValues : ConfigCall → Prop
  | .setConf _ value => OneLine value
  | .setConfMap _ | .mapAddress _ _ => False
  | .setConfCollection kvs | .mapAddressesCollection kvs => ∀ kv ∈ kvs, ' ' ∈ kv ∧ OneLine kv
  | .mapAddressesMap addresses => ∀ e ∈ addresses, OneLine e.2

/-! ## Quoting keeps the terminators -/

theorem quoteChar_oneLine (c : Char) : OneLine (quoteChar c) ↔ c ≠ '\r' ∧ c ≠ '\n' := by
  unfold quoteChar
  split_ifs with special <;> simp [Java.oneLine_cons, Java.OneLine.nil]

theorem quote_oneLine (s : Text) : OneLine (quote s) ↔ OneLine s := by
  have inner : OneLine (s.flatMap quoteChar) ↔ OneLine s := by
    induction s with
    | nil => rfl
    | cons c s ih =>
        rw [List.flatMap_cons, Java.oneLine_append, quoteChar_oneLine, ih, Java.oneLine_cons]
  simp [quote, Java.oneLine_cons, Java.oneLine_append, inner, Java.OneLine.nil]

/-- A round fails on a string without a blank, and appends the key and the quoted
    value of any other. -/
def AppendsPair (item : Text → Except RuntimeException Text) : Prop :=
  ∀ kv, (' ' ∉ kv ∧ ∃ e, item kv = .error e) ∨
    ∃ key value, kv = key ++ ' ' :: value ∧ item kv = .ok (' ' :: key ++ '=' :: quote value)

theorem keyAndValue_bare (kv : Text) : ∃ e, keyAndValue kv (-1) = .error e := by
  refine ⟨.stringIndexOutOfBounds, ?_⟩
  simp [keyAndValue, Java.substring, bind, Except.bind]

theorem keyAndValue_pair (key value : Text) :
    keyAndValue (key ++ ' ' :: value) key.length = .ok (' ' :: key ++ '=' :: quote value) := by
  have first := Java.substring_nat (key ++ ' ' :: value) key.length (by simp)
  have second := Java.substringFrom_nat (key ++ ' ' :: value) (key.length + 1) (by simp)
  rw [List.take_left] at first
  rw [← List.drop_drop, List.drop_left, List.drop_one, List.tail_cons, Int.natCast_add] at second
  simp only [keyAndValue, first, bind, Except.bind]
  rw [← Int.natCast_one, second]
  rfl

theorem mapAddressesItem_appendsPair : AppendsPair mapAddressesItem := by
  intro kv
  rcases Java.indexOf_cases kv ' ' with ⟨absent, index⟩ | ⟨key, value, rfl, _, index⟩
  · exact .inl ⟨absent, by simpa only [mapAddressesItem, index] using keyAndValue_bare kv⟩
  · exact .inr ⟨key, value, rfl, by
      simpa only [mapAddressesItem, index] using keyAndValue_pair key value⟩

theorem setConfItem_appendsPair : AppendsPair setConfItem := by
  intro kv
  rcases Java.indexOf_cases kv ' ' with ⟨absent, index⟩ | ⟨key, value, rfl, _, index⟩
  · obtain ⟨e, thrown⟩ := keyAndValue_bare kv
    exact .inl ⟨absent, e, by simp only [setConfItem, index, thrown, bind, Except.bind]⟩
  · have some : ((key.length : Int) = -1) = False := by simp
    refine .inr ⟨key, value, rfl, ?_⟩
    simp only [setConfItem, index, keyAndValue_pair, some, if_false, bind, Except.bind, pure,
      Except.pure, List.nil_append]

theorem pair_oneLine (key value : Text) :
    OneLine (' ' :: key ++ '=' :: quote value) ↔ OneLine (key ++ ' ' :: value) := by
  simp [Java.oneLine_append, Java.oneLine_cons, quote_oneLine]

/-- The items are written on one line exactly if every string has a blank and
    stands on one line. -/
theorem appendItems_oneLine {item : Text → Except RuntimeException Text}
    (appends : AppendsPair item) (kvs : List Text) :
    (∃ items, appendItems item kvs = .ok items ∧ OneLine items) ↔
      ∀ kv ∈ kvs, ' ' ∈ kv ∧ OneLine kv := by
  induction kvs with
  | nil => simp [appendItems, Java.OneLine.nil]
  | cons kv rest ih =>
      rw [List.forall_mem_cons, ← ih]
      rcases appends kv with ⟨absent, e, thrown⟩ | ⟨key, value, rfl, appended⟩
      · simp [appendItems, thrown, bind, Except.bind, absent]
      · simp only [appendItems, appended, bind, Except.bind, pure, Except.pure]
        rw [← pair_oneLine]
        cases others : appendItems item rest with
        | error e => simp
        | ok items => simp [Java.oneLine_append, Java.oneLine_cons, and_assoc]

theorem oneCommand_append {word items : Text} (oneLine : OneLine word) :
    OneCommand (word ++ items ++ crlf) ↔ OneLine items := by
  constructor
  · rintro ⟨body, same, bodyOneLine⟩
    rw [← List.append_cancel_right same] at bodyOneLine
    exact (Java.oneLine_append.mp bodyOneLine).2
  · intro itemsOneLine
    exact ⟨_, rfl, Java.oneLine_append.mpr ⟨oneLine, itemsOneLine⟩⟩

/-! ## The condition -/

theorem setConfCollection_oneCommand {kvs : List Text} (nonempty : kvs ≠ []) :
    (∃ text, setConfCollection kvs = .ok (some text) ∧ OneCommand text) ↔
      ∀ kv ∈ kvs, ' ' ∈ kv ∧ OneLine kv := by
  rw [← appendItems_oneLine setConfItem_appendsPair]
  simp only [setConfCollection, if_neg nonempty, pure, Except.pure, bind, Except.bind]
  cases appendItems setConfItem kvs with
  | error e => simp
  | ok items =>
      have command : OneCommand ("SETCONF".toList ++ items ++ crlf) ↔ OneLine items :=
        oneCommand_append (by decide)
      simp only [Except.ok.injEq, Option.some.injEq, exists_eq_left', command]

theorem mapAddressesCollection_oneCommand (kvs : List Text) :
    (∃ text, (mapAddressesCollection kvs).map (fun call => some call.text) = .ok (some text) ∧
        OneCommand text) ↔
      ∀ kv ∈ kvs, ' ' ∈ kv ∧ OneLine kv := by
  rw [← appendItems_oneLine mapAddressesItem_appendsPair]
  simp only [mapAddressesCollection, bind, Except.bind, pure, Except.pure, Except.map]
  cases appendItems mapAddressesItem kvs with
  | error e => simp
  | ok items =>
      have command : OneCommand ("MAPADDRESS".toList ++ items ++ crlf) ↔ OneLine items :=
        oneCommand_append (by decide)
      simp only [Except.ok.injEq, Option.some.injEq, exists_eq_left', command]

theorem mem_and_oneLine_pair (key value : Text) :
    (' ' ∈ key ++ ' ' :: value ∧ OneLine (key ++ ' ' :: value)) ↔ OneLine key ∧ OneLine value := by
  simp [Java.oneLine_append, Java.oneLine_cons]

theorem mapAddress_written (fromAddr toAddr : Text) :
    (mapAddress fromAddr toAddr).map (fun call => some call.text) =
      (mapAddressesCollection [fromAddr ++ ' ' :: toAddr ++ ['\n']]).map
        fun call => some call.text := by
  unfold mapAddress
  cases mapAddressesCollection [fromAddr ++ ' ' :: toAddr ++ ['\n']] <;> rfl

/-- A newline behind the value is always a terminator too many. -/
theorem not_oneLine_newline (s : Text) : ¬ OneLine (s ++ ['\n']) := by
  simp [Java.oneLine_append, Java.oneLine_cons]

/-- A call whose keys are clean writes exactly one command if and only if it adds
    no newline of its own and every key has a value without terminators. -/
theorem writes_one_command_iff (call : ConfigCall) (keys : call.HasKeys) :
    call.WritesOneCommand ↔ call.PlainValues := by
  cases call with
  | setConf key value =>
      have single := setConfCollection_oneCommand (List.cons_ne_nil (key ++ ' ' :: value) [])
      rw [List.forall_mem_singleton, mem_and_oneLine_pair] at single
      exact single.trans (and_iff_right keys.2)
  | setConfMap kvMap =>
      refine iff_of_false ?_ id
      intro written
      obtain ⟨ent, rest, rfl⟩ := List.exists_cons_of_ne_nil keys.1
      have plain := (setConfCollection_oneCommand (List.cons_ne_nil _ _)).mp written
      exact not_oneLine_newline _ (plain _ (List.mem_cons_self ..)).2
  | setConfCollection kvList => exact setConfCollection_oneCommand keys.1
  | mapAddressesCollection kvLines => exact mapAddressesCollection_oneCommand kvLines
  | mapAddressesMap addresses =>
      apply (mapAddressesCollection_oneCommand _).trans
      rw [List.forall_mem_map]
      apply forall₂_congr
      intro e member
      rw [mem_and_oneLine_pair]
      exact and_iff_right (keys.2 e member).2
  | mapAddress fromAddr toAddr =>
      refine iff_of_false ?_ id
      intro written
      rw [ConfigCall.WritesOneCommand, ConfigCall.written, mapAddress_written] at written
      have plain := (mapAddressesCollection_oneCommand _).mp written
      exact not_oneLine_newline _ (plain _ (List.mem_cons_self ..)).2

/-- An address and what it is mapped to. -/
theorem writes_one_command_iff_mapped :
    (ConfigCall.mapAddressesMap [("1.2.3.4".toList, "example.org".toList)]).WritesOneCommand ↔
      (ConfigCall.mapAddressesMap [("1.2.3.4".toList, "example.org".toList)]).PlainValues :=
  writes_one_command_iff _ ⟨List.cons_ne_nil _ _, by simp [IsKey, OneLine]⟩

/-- A line break in the value of `ExitNodes` starts a second command. -/
theorem setConf_injects :
    ¬ ∀ call : ConfigCall, call.HasKeys → call.WritesOneCommand := by
  intro always
  have written := always (.setConf "ExitNodes".toList "{us}\r\nSIGNAL HALT".toList)
    (by simp [ConfigCall.HasKeys, IsKey, OneLine])
  have plain := (setConfCollection_oneCommand (List.cons_ne_nil _ _)).mp written
  exact absurd (plain _ (List.mem_cons_self ..)).2 (by decide)

end Orbot.Control
