import Orbot.Lib.CommonSuffix
import Mathlib.Data.List.Infix
import Mathlib.Tactic.Cases

/-! # Domain names in length-byte string notation

A name is a sequence of labels. In memory every label is its length in one byte
followed by its bytes, and a zero byte ends the name. What a function reads
beyond the end of a buffer has no value here.
-/

namespace Orbot.Pdnsd

/-- The size of the buffers that hold domain names. -/
def DNSNAMEBUFSIZE : ℕ := 256

def tolower (c : UInt8) : UInt8 :=
  if 65 ≤ c ∧ c ≤ 90 then c + 32 else c

/-- One label. The two highest bits of its length byte are never set. -/
structure Label where
  octets : List UInt8
  nonempty : 0 < octets.length
  short : octets.length ≤ 63
deriving DecidableEq

namespace Label

def lengthByte (l : Label) : UInt8 := UInt8.ofNat l.octets.length

@[simp] theorem lengthByte_toNat (l : Label) : l.lengthByte.toNat = l.octets.length := by
  have := l.short
  simp only [lengthByte, UInt8.toNat_ofNat']
  omega

theorem lengthByte_ne_zero (l : Label) : l.lengthByte ≠ 0 := by
  intro zero
  have := congrArg UInt8.toNat zero
  simp only [lengthByte_toNat, UInt8.toNat_ofNat] at this
  have := l.nonempty
  omega

theorem lengthByte_le (l : Label) : l.lengthByte ≤ 0x3f := by
  simpa [UInt8.le_iff_toNat_le] using l.short

/-- The label with its letters in lower case, which is what names are compared by. -/
def folded (l : Label) : List UInt8 := l.octets.map tolower

@[simp] theorem length_folded (l : Label) : l.folded.length = l.octets.length :=
  List.length_map _

/-- The bytes of the label as it stands in memory. -/
def encoded (l : Label) : List UInt8 := l.lengthByte :: l.octets

@[simp] theorem length_encoded (l : Label) : l.encoded.length = l.octets.length + 1 := rfl

end Label

def encode : List Label → List UInt8
  | [] => [0]
  | l :: ls => l.encoded ++ encode ls

@[simp] theorem encode_nil : encode [] = [0] := rfl

@[simp] theorem encode_cons (l : Label) (ls : List Label) :
    encode (l :: ls) = l.encoded ++ encode ls := rfl

theorem encode_length_pos (ls : List Label) : 0 < (encode ls).length := by
  cases ls with
  | nil => exact Nat.one_pos
  | cons l ls => exact Nat.succ_pos _

/-- The bytes of some labels without the zero byte. -/
def encodedLabels (ls : List Label) : List UInt8 := ls.flatMap Label.encoded

theorem encode_append (ls more : List Label) :
    encode (ls ++ more) = encodedLabels ls ++ encode more := by
  induction ls with
  | nil => rfl
  | cons l ls ih => simp [encodedLabels, ih]

theorem encode_eq (ls : List Label) : encode ls = encodedLabels ls ++ [0] := by
  simpa using encode_append ls []

theorem length_encode (ls : List Label) : (encode ls).length = (encodedLabels ls).length + 1 := by
  simp [encode_eq]

/-- Every label takes at least two bytes. -/
theorem two_mul_length_le (ls : List Label) : 2 * ls.length ≤ (encodedLabels ls).length := by
  induction ls with
  | nil => simp [encodedLabels]
  | cons l ls ih =>
      have := l.nonempty
      simp only [encodedLabels, List.flatMap_cons, List.length_append, Label.length_encoded,
        List.length_cons] at ih ⊢
      omega

theorem encodedLabels_take_drop (ls : List Label) (n : ℕ) :
    (encodedLabels (ls.take n)).length + (encodedLabels (ls.drop n)).length =
      (encodedLabels ls).length := by
  rw [← List.length_append, encodedLabels, encodedLabels, ← List.flatMap_append,
    List.take_append_drop, encodedLabels]

/-- Two names are the same when they differ only in the case of their letters. -/
def foldedLabels (ls : List Label) : List (List UInt8) := ls.map Label.folded

@[simp] theorem length_foldedLabels (ls : List Label) : (foldedLabels ls).length = ls.length :=
  List.length_map _

theorem foldedLabels_drop (ls : List Label) (n : ℕ) :
    foldedLabels (ls.drop n) = (foldedLabels ls).drop n := List.map_drop

/-- The case of letters does not change how long a name is. -/
theorem length_encodedLabels_of_folded {ls ls' : List Label}
    (same : foldedLabels ls = foldedLabels ls') :
    (encodedLabels ls).length = (encodedLabels ls').length := by
  induction ls generalizing ls' with
  | nil =>
      cases ls' with
      | nil => rfl
      | cons => cases same
  | cons l ls ih =>
      cases ls' with
      | nil => cases same
      | cons l' ls' =>
          have := List.cons.inj same
          have head : l.octets.length = l'.octets.length := by
            simpa using congrArg List.length this.1
          simpa [encodedLabels, head] using ih this.2

/-! ## Reading a buffer -/

section reading
variable {α : Type*} {buffer rest : List α}

theorem read_of_drop {i : ℕ} {x : α} (at_i : buffer.drop i = x :: rest) : buffer[i]? = some x := by
  simpa using congrArg List.head? at_i

theorem drop_of_drop {i : ℕ} {front : List α} (at_i : buffer.drop i = front ++ rest) :
    buffer.drop (i + front.length) = rest := by
  rw [← List.drop_drop, at_i, List.drop_left]

theorem drop_eq_cons_of_read {i : ℕ} {x : α} (read : buffer[i]? = some x) :
    buffer.drop i = x :: buffer.drop (i + 1) := by
  obtain ⟨inside, rfl⟩ := List.getElem?_eq_some_iff.mp read
  exact List.drop_eq_getElem_cons inside

end reading

/-- A name at an offset of a buffer starts with its first label. -/
theorem drop_label {buffer rest : List UInt8} {i : ℕ} {l : Label} {ls : List Label}
    (at_i : buffer.drop i = encode (l :: ls) ++ rest) :
    buffer[i]? = some l.lengthByte ∧ buffer.drop (i + 1) = l.octets ++ (encode ls ++ rest) ∧
      buffer.drop (i + 1 + l.octets.length) = encode ls ++ rest := by
  have whole : buffer.drop i = [l.lengthByte] ++ (l.octets ++ (encode ls ++ rest)) := by
    simpa [Label.encoded] using at_i
  have inside := drop_of_drop whole
  exact ⟨read_of_drop whole, inside, drop_of_drop inside⟩

theorem drop_root {buffer rest : List UInt8} {i : ℕ} (at_i : buffer.drop i = encode [] ++ rest) :
    buffer[i]? = some 0 :=
  read_of_drop at_i

/-! ## Length -/

def rhnlenFrom (rhn : List UInt8) (i : ℕ) : Option ℕ :=
  match h : rhn[i]? with
  | none => none
  | some lb => if lb = 0 then some (i + 1) else rhnlenFrom rhn (i + 1 + lb.toNat)
termination_by rhn.length - i
decreasing_by
  have := (List.getElem?_eq_some_iff.mp h).1
  omega

def rhnlen (rhn : List UInt8) : Option ℕ := rhnlenFrom rhn 0

theorem rhnlenFrom_encode {rhn rest : List UInt8} {i : ℕ} {ls : List Label}
    (at_i : rhn.drop i = encode ls ++ rest) :
    rhnlenFrom rhn i = some (i + (encode ls).length) := by
  induction ls generalizing i with
  | nil =>
      rw [rhnlenFrom, drop_root at_i]
      rfl
  | cons l ls ih =>
      obtain ⟨read, -, next⟩ := drop_label at_i
      rw [rhnlenFrom, read]
      simp only [l.lengthByte_ne_zero, if_false, Label.lengthByte_toNat, ih next, encode_cons,
        List.length_append, Label.length_encoded]
      congr 1
      omega

theorem rhnlen_encode (ls : List Label) (rest : List UInt8) :
    rhnlen (encode ls ++ rest) = some (encode ls).length := by
  have whole := rhnlenFrom_encode (List.drop_zero (l := encode ls ++ rest))
  rwa [Nat.zero_add] at whole

/-! ## Comparing two names -/

/-- The `do` loop of `rhnicmp`: `lb` bytes from the index `i` on. -/
def sameOctets (a b : List UInt8) (i : ℕ) : ℕ → Option Bool
  | 0 => some true
  | lb + 1 => do
      let x ← a[i]?
      let y ← b[i]?
      if tolower x = tolower y then sameOctets a b (i + 1) lb else some false

def rhnicmpFrom (a b : List UInt8) (i : ℕ) : Option Bool :=
  match _h : a[i]? with
  | none => none
  | some lb =>
      match b[i]? with
      | none => none
      | some lb' =>
          if lb ≠ lb' then some false
          else if lb = 0 then some true
          else
            match sameOctets a b (i + 1) lb.toNat with
            | some true => rhnicmpFrom a b (i + 1 + lb.toNat)
            | other => other
termination_by a.length - i
decreasing_by
  have := (List.getElem?_eq_some_iff.mp ‹a[i]? = some lb›).1
  omega

def rhnicmp (a b : List UInt8) : Option Bool := rhnicmpFrom a b 0

theorem sameOctets_of_drop {a b xs ys rest rest' : List UInt8} {i : ℕ}
    (at_a : a.drop i = xs ++ rest) (at_b : b.drop i = ys ++ rest')
    (lengths : xs.length = ys.length) :
    sameOctets a b i xs.length = some (decide (xs.map tolower = ys.map tolower)) := by
  induction xs generalizing ys i with
  | nil =>
      obtain rfl := List.length_eq_zero_iff.mp lengths.symm
      rfl
  | cons x xs ih =>
      cases ys with
      | nil => cases lengths
      | cons y ys =>
          have next_a := drop_of_drop (show a.drop i = [x] ++ _ from at_a)
          have next_b := drop_of_drop (show b.drop i = [y] ++ _ from at_b)
          have rest_same := ih next_a next_b (Nat.succ.inj lengths)
          simp only [List.length_cons, List.length_nil] at rest_same
          simp only [List.length_cons, sameOctets, read_of_drop at_a, read_of_drop at_b,
            Option.bind_eq_bind, Option.bind_some, rest_same, List.map_cons, List.cons.injEq]
          by_cases same : tolower x = tolower y
          · simp [same]
          · simp [same]

theorem rhnicmpFrom_encode {a b rest rest' : List UInt8} {i : ℕ} {ls ls' : List Label}
    (at_a : a.drop i = encode ls ++ rest) (at_b : b.drop i = encode ls' ++ rest') :
    rhnicmpFrom a b i = some (decide (foldedLabels ls = foldedLabels ls')) := by
  induction ls generalizing ls' i with
  | nil =>
      rw [rhnicmpFrom, drop_root at_a]
      cases ls' with
      | nil =>
          simp only [drop_root at_b]
          rfl
      | cons l' ls' =>
          simp only [(drop_label at_b).1, ne_eq, l'.lengthByte_ne_zero.symm, not_false_eq_true,
            if_true]
          rfl
  | cons l ls ih =>
      obtain ⟨read, inside, next⟩ := drop_label at_a
      rw [rhnicmpFrom, read]
      cases ls' with
      | nil =>
          simp only [drop_root at_b, ne_eq, l.lengthByte_ne_zero, not_false_eq_true, if_true]
          rfl
      | cons l' ls' =>
          obtain ⟨read', inside', next'⟩ := drop_label at_b
          simp only [read']
          by_cases lengths : l.octets.length = l'.octets.length
          · have bytes : l.lengthByte = l'.lengthByte := by simp [Label.lengthByte, lengths]
            have octets := sameOctets_of_drop inside inside' lengths
            simp only [bytes, ne_eq, not_true_eq_false, if_false, l'.lengthByte_ne_zero,
              Label.lengthByte_toNat, ← lengths, octets]
            rw [← lengths] at next'
            by_cases same : l.folded = l'.folded
            · have same' : l.octets.map tolower = l'.octets.map tolower := same
              simp only [same', decide_true, ih next next', foldedLabels, Label.folded,
                List.map_cons, List.cons.injEq, true_and]
              rfl
            · have other : ¬l.octets.map tolower = l'.octets.map tolower := same
              simp [other, foldedLabels, Label.folded]
          · have bytes : l.lengthByte ≠ l'.lengthByte := by
              intro eq
              exact lengths (by simpa using congrArg UInt8.toNat eq)
            have other : foldedLabels (l :: ls) ≠ foldedLabels (l' :: ls') := by
              intro eq
              exact lengths (by simpa using congrArg List.length (List.cons.inj eq).1)
            simp [bytes, other]

theorem rhnicmp_encode (ls ls' : List Label) :
    rhnicmp (encode ls) (encode ls') = some (decide (foldedLabels ls = foldedLabels ls')) :=
  rhnicmpFrom_encode (List.append_nil _).symm (List.append_nil _).symm

/-! ## Names that are not compressed -/

def isnormalencdomnameFrom (rhn : List UInt8) (i maxlen : ℕ) : Option Bool :=
  if _end : maxlen ≤ i then some false
  else
    match rhn[i]? with
    | none => none
    | some lb =>
        if lb = 0 then some true
        else if 0x3f < lb then some false
        else isnormalencdomnameFrom rhn (i + 1 + lb.toNat) maxlen
termination_by maxlen - i

def isnormalencdomname (rhn : List UInt8) (maxlen : ℕ) : Option Bool :=
  isnormalencdomnameFrom rhn 0 (if DNSNAMEBUFSIZE < maxlen then DNSNAMEBUFSIZE else maxlen)

/-- Only the first `maxlen` bytes are looked at. -/
theorem isnormalencdomnameFrom_append {rhn more : List UInt8} {i maxlen : ℕ}
    (inside : maxlen ≤ rhn.length) :
    isnormalencdomnameFrom (rhn ++ more) i maxlen = isnormalencdomnameFrom rhn i maxlen := by
  fun_induction isnormalencdomnameFrom rhn i maxlen with
  | case1 i ended => rw [isnormalencdomnameFrom, dif_pos ended]
  | case2 i before outside =>
      have := List.getElem?_eq_none_iff.mp outside
      omega
  | case3 i before zero =>
      rw [isnormalencdomnameFrom, dif_neg before, List.getElem?_append_left (by omega), zero]
      rfl
  | case4 i before lb read nonzero large =>
      rw [isnormalencdomnameFrom, dif_neg before, List.getElem?_append_left (by omega), read]
      simp only [nonzero, if_false, large, if_true]
  | case5 i before lb read nonzero small ih =>
      rw [isnormalencdomnameFrom, dif_neg before, List.getElem?_append_left (by omega), read]
      simp only [nonzero, if_false, small, ih]

theorem isnormalencdomname_append {rhn more : List UInt8} {maxlen : ℕ}
    (inside : maxlen ≤ rhn.length) :
    isnormalencdomname (rhn ++ more) maxlen = isnormalencdomname rhn maxlen := by
  refine isnormalencdomnameFrom_append ?_
  split_ifs <;> omega

theorem isnormalencdomname_ne_none {rhn : List UInt8} {maxlen : ℕ}
    (inside : maxlen ≤ rhn.length) : isnormalencdomname rhn maxlen ≠ none := by
  have within : (if DNSNAMEBUFSIZE < maxlen then DNSNAMEBUFSIZE else maxlen) ≤ rhn.length := by
    split_ifs <;> omega
  rw [isnormalencdomname]
  generalize (if DNSNAMEBUFSIZE < maxlen then DNSNAMEBUFSIZE else maxlen) = limit at within
  fun_induction isnormalencdomnameFrom rhn 0 limit with
  | case2 i before outside =>
      have := List.getElem?_eq_none_iff.mp outside
      omega
  | case1 | case3 | case4 => nofun
  | case5 i before lb read nonzero small ih => exact ih

/-- A name with bytes behind it is normal when it is in the part that is looked at. -/
theorem isnormalencdomnameFrom_encode {rhn rest : List UInt8} {i maxlen : ℕ} {ls : List Label}
    (at_i : rhn.drop i = encode ls ++ rest) (inside : i + (encode ls).length ≤ maxlen) :
    isnormalencdomnameFrom rhn i maxlen = some true := by
  induction ls generalizing i with
  | nil =>
      rw [isnormalencdomnameFrom, dif_neg (by rw [encode_nil, List.length_singleton] at inside; omega),
        drop_root at_i]
      rfl
  | cons l ls ih =>
      obtain ⟨read, -, next⟩ := drop_label at_i
      rw [encode_cons, List.length_append, Label.length_encoded] at inside
      rw [isnormalencdomnameFrom, dif_neg (by omega), read]
      simp only [l.lengthByte_ne_zero, if_false, UInt8.not_lt.mpr l.lengthByte_le,
        Label.lengthByte_toNat]
      exact ih next (by omega)

theorem isnormalencdomname_encode {ls : List Label} {rest : List UInt8} {maxlen : ℕ}
    (fits : (encode ls).length ≤ DNSNAMEBUFSIZE) (inside : (encode ls).length ≤ maxlen) :
    isnormalencdomname (encode ls ++ rest) maxlen = some true := by
  refine isnormalencdomnameFrom_encode (List.drop_zero (l := encode ls ++ rest)) ?_
  split_ifs <;> omega

end Orbot.Pdnsd
