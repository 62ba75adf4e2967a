import Orbot.Pdnsd.ComposeAnswer

/-! # Entries of the cache

What the cache hands out for a name: the sets of records, each with the times that
its answers count down from. The sets are kept in two arrays, the second of which is
only there when one of the less frequent types is.
-/

namespace Orbot.Pdnsd

/-- `rr_set_t`, with the flags `CF_NEGATIVE` and `CF_LOCAL`. -/
structure RrSet where
  ttl : ℤ
  ts : ℤ
  negative : Bool
  locally : Bool
  rrs : List (List UInt8)
deriving DecidableEq

/-- `dns_cent_t`, with the flags `DF_NEGATIVE` and `DF_LOCAL`. -/
structure Cent where
  qname : List UInt8
  negative : Bool
  locally : Bool
  rrmu : List (Option RrSet)
  rrext : Option (List (Option RrSet))
  c_ns : ℕ
  c_soa : ℕ

/-- An undefined `c_ns` or `c_soa`. -/
def cundef : ℕ := 0xff

def NRRMU : ℕ := 8

def NRREXT : ℕ := 39

/-- The most frequently used types in ascending order. -/
def rrmuiterlist : List ℕ := [T_A, T_NS, T_CNAME, T_SOA, T_PTR, T_MX, 16, T_AAAA]

/-- The types that the cache holds in ascending order. -/
def rrcachiterlist : List ℕ :=
  [1, 2, 3, 4, 5, 6, 7, 8, 9, 10, 11, 12, 13, 14, 15, 16, 17, 18, 19, 20, 21, 22, 23, 24, 25, 26,
    27, 28, 29, 30, 31, 32, 33, 34, 35, 36, 37, 42, 43, 44, 45, 46, 47, 48, 49, 50, 51]

def getrrset (cent : Cent) (type : ℕ) : Option RrSet :=
  if cent.negative then none
  else if type < T_MIN ∨ T_MAX < type then none
  else
    match rrlkuptab[type - T_MIN]? with
    | none => none
    | some idx =>
        if idx < NRRMU then (cent.rrmu[idx]?).join
        else if idx - NRRMU < NRREXT then
          match cent.rrext with
          | none => none
          | some rrext => (rrext[idx - NRRMU]?).join
        else none

/-- For types between `T_MIN` and `T_MAX`. -/
def have_rr (cent : Cent) (type : ℕ) : Bool :=
  match getrrset cent type with
  | none => false
  | some rrset => !rrset.rrs.isEmpty

/-- `RRITERLIST`. -/
def rrIterList (cent : Cent) : List ℕ :=
  if cent.negative then []
  else if cent.rrext.isSome then rrcachiterlist else rrmuiterlist

/-- What is left of the ttl. Local records do not age. -/
def ans_ttl (rrset : RrSet) (queryts : ℤ) : ℤ :=
  if rrset.locally then rrset.ttl else max (rrset.ttl - max (queryts - rrset.ts) 0) 0

/-- The conversion to `uint32_t`. -/
def uint32 (n : ℤ) : ℕ := (n % 4294967296).toNat

theorem uint32_lt (n : ℤ) : uint32 n < 4294967296 := by
  unfold uint32
  omega

/-- The name of the first CNAME record. The assertion that it fits the buffer is left
out: a record of the form of its type meets it. -/
def follow_cname_chain (c : Cent) : Option (List UInt8) :=
  match getrrset c T_CNAME with
  | none => none
  | some rrset => rrset.rrs.head?

/-! ## Segments -/

/-- The loop of `rhnsegcnt` from the index `i` on. -/
def rhnsegcntFrom (rhn : List UInt8) (i res : ℕ) : Option ℕ :=
  match _h : rhn[i]? with
  | none => none
  | some lb => if lb = 0 then some res else rhnsegcntFrom rhn (i + (lb.toNat + 1)) (res + 1)
termination_by rhn.length - i
decreasing_by
  have := (List.getElem?_eq_some_iff.mp ‹rhn[i]? = some lb›).1
  omega

def rhnsegcnt (rhn : List UInt8) : Option ℕ := rhnsegcntFrom rhn 0 0

def skipsegs (nm : List UInt8) : ℕ → Option (List UInt8)
  | 0 => some nm
  | k + 1 =>
      match nm with
      | [] => none
      | lb :: _ => if lb = 0 then some nm else skipsegs (nm.drop (lb.toNat + 1)) k

theorem rhnsegcntFrom_encode {rhn rest : List UInt8} {i res : ℕ} {ls : List Label}
    (at_i : rhn.drop i = encode ls ++ rest) :
    rhnsegcntFrom rhn i res = some (res + ls.length) := by
  induction ls generalizing i res with
  | nil =>
      rw [rhnsegcntFrom]
      split
      next outside => simp [drop_root at_i] at outside
      next lb read =>
        obtain rfl := Option.some.inj ((drop_root at_i).symm.trans read)
        rfl
  | cons l ls ih =>
      obtain ⟨read, -, next⟩ := drop_label at_i
      rw [Nat.add_assoc, Nat.add_comm 1] at next
      rw [rhnsegcntFrom]
      split
      next outside => simp [read] at outside
      next lb found =>
        obtain rfl := Option.some.inj (read.symm.trans found)
        rw [if_neg l.lengthByte_ne_zero, l.lengthByte_toNat, ih next, List.length_cons]
        congr 1
        omega

theorem rhnsegcnt_encode (ls : List Label) : rhnsegcnt (encode ls) = some ls.length := by
  have start : (encode ls).drop 0 = encode ls ++ [] := by simp
  rw [rhnsegcnt, rhnsegcntFrom_encode start, Nat.zero_add]

theorem skipsegs_encode (ls : List Label) (k : ℕ) :
    skipsegs (encode ls) k = some (encode (ls.drop k)) := by
  induction k generalizing ls with
  | zero => rfl
  | succ k ih =>
      cases ls with
      | nil => rfl
      | cons l ls =>
          have next : (encode (l :: ls)).drop (l.octets.length + 1) = encode ls := by
            rw [encode_cons, ← Label.length_encoded, List.drop_left]
          have first : encode (l :: ls) = l.lengthByte :: (l.octets ++ encode ls) := by
            simp [Label.encoded]
          rw [first] at next ⊢
          rw [skipsegs, if_neg l.lengthByte_ne_zero, l.lengthByte_toNat, next, ih,
            List.drop_succ_cons]

/-! ## What the cache holds -/

/-- The records of an entry are such as a reply can have. -/
structure Cent.Sound (cent : Cent) : Prop where
  qname : IsName cent.qname
  data : ∀ type rrset, getrrset cent type = some rrset → ∀ data ∈ rrset.rrs,
    Valid type data ∧ data.length < 65536

/-- A set is only there for a type that has a place in the cache. -/
theorem cached_of_getrrset {cent : Cent} {type : ℕ} {rrset : RrSet}
    (found : getrrset cent type = some rrset) : PDNSD_NOT_CACHED_TYPE type = false := by
  unfold getrrset at found
  split_ifs at found with negative outside
  split at found
  next => cases found
  next idx place =>
    have small : idx < NRRTOT := by
      by_contra large
      simp only [NRRTOT] at large
      rw [if_neg (by simp only [NRRMU]; omega), if_neg (by simp only [NRRMU, NRREXT]; omega)]
        at found
      cases found
    simp only [PDNSD_NOT_CACHED_TYPE, place, Option.getD_some, Bool.or_eq_false_iff,
      decide_eq_false_iff_not]
    omega

/-- Every record of a set can be written. -/
theorem Cent.Sound.cacheable {cent : Cent} {type : ℕ} {rrset : RrSet} {data oname : List UInt8}
    (sound : cent.Sound) (found : getrrset cent type = some rrset) (mem : data ∈ rrset.rrs)
    (owner : IsName oname) (ttl : ℤ) : Cacheable ⟨oname, type, uint32 ttl, data⟩ where
  owner := owner
  cached := cached_of_getrrset found
  data := (sound.data type rrset found data mem).1
  ttl := uint32_lt ttl
  rdlen := (sound.data type rrset found data mem).2

/-- A record with nothing but a name in its data. -/
theorem isName_of_valid {data : List UInt8} (valid : Valid T_CNAME data) : IsName data := by
  obtain ⟨ps, fits, rfl, -⟩ : ∃ ps, Fits [.name] ps ∧ data = bytes ps ∧ _ := valid
  rcases fits with _ | ⟨fit, _ | _⟩
  rename_i p
  cases p with
  | octets l => cases fit
  | name ls => exact ⟨ls, by simp [Piece.bytes], fit⟩

theorem isName_of_follow {cent : Cent} {name : List UInt8} (sound : cent.Sound)
    (followed : follow_cname_chain cent = some name) : IsName name := by
  unfold follow_cname_chain at followed
  split at followed
  next => cases followed
  next rrset found =>
    exact isName_of_valid (sound.data _ rrset found name (List.mem_of_mem_head? followed)).1

end Orbot.Pdnsd
