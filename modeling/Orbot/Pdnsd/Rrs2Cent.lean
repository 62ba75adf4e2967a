import Orbot.Pdnsd.Record

/-! # Reading the records of a message

`rrs2cent` goes over the records of a section and hands each of them to the
cache, with its names decompressed. All of it comes from the network, so nothing
is known of the bytes.
-/

namespace Orbot.Pdnsd

/-- How reading ends without a result. -/
inductive Failure
  /-- `RC_FORMAT` -/
  | format
  /-- `RC_TRUNC` -/
  | trunc
  /-- a byte outside the message was read -/
  | fault
deriving DecidableEq

/-- `memcpy` from the message. -/
def readOctets (msg : List UInt8) (i n : ℕ) : Except Failure (List UInt8) :=
  if i + n ≤ msg.length then .ok ((msg.drop i).take n) else .error .fault

/-- The name of a record, with the pointer and the count behind it. -/
def readOwner (msg : List UInt8) (ptr lcnt : ℕ) : Except Failure (List UInt8 × ℕ × ℕ) :=
  match decompress_name msg ptr lcnt with
  | .ok tgt src sz => .ok (tgt, src, sz)
  | .format => .error .format
  | .trunc => .error .trunc
  | .fault => .error .fault

/-- A name in the data of a record, which may not go beyond them. -/
def readName (msg : List UInt8) (bptr blcnt : ℕ) : Except Failure (List UInt8 × ℕ × ℕ) :=
  match decompress_name msg bptr blcnt with
  | .ok tgt src sz => .ok (tgt, src, sz)
  | .format => .error .format
  | .trunc => .error .format
  | .fault => .error .fault

/-- The loop over the strings of a `T_NAPTR` record: `j` of them are left. -/
def textsLength (msg : List UInt8) (bptr blcnt : ℕ) : ℕ → ℕ → Except Failure ℕ
  | 0, len => if blcnt < len then .error .format else .ok len
  | j + 1, len =>
      if blcnt ≤ len then .error .format
      else
        match msg[bptr + len]? with
        | none => .error .fault
        | some c => textsLength msg bptr blcnt j (len + (c.toNat + 1))

/-- The fields of the data, behind those in `db`. What is left is trailing junk. -/
def getFields (msg : List UInt8) : List Field → ℕ → ℕ → List UInt8 → Except Failure (List UInt8)
  | [], _, blcnt, db => if blcnt ≠ 0 then .error .format else .ok db
  | .octets n :: fs, bptr, blcnt, db =>
      if blcnt < n then .error .format
      else do
        let copied ← readOctets msg bptr n
        getFields msg fs (bptr + n) (blcnt - n) (db ++ copied)
  | .texts :: fs, bptr, blcnt, db => do
      let len ← textsLength msg bptr blcnt 3 4
      let copied ← readOctets msg bptr len
      getFields msg fs (bptr + len) (blcnt - len) (db ++ copied)
  | .name :: fs, bptr, blcnt, db => do
      let (name, bptr', blcnt') ← readName msg bptr blcnt
      getFields msg fs bptr' blcnt' (db ++ name)
  | .rest :: fs, bptr, blcnt, db =>
      -- the size of the buffer for a `T_NXT` record
      if 1040 < db.length + blcnt then .error .format
      else do
        let copied ← readOctets msg bptr blcnt
        getFields msg fs (bptr + blcnt) 0 (db ++ copied)

/-- Data that have a name behind their first `n` bytes. The name should not be
compressed, and is decompressed where it is. -/
def nameAfter (msg : List UInt8) (ptr rdlength n : ℕ) : Except Failure (List UInt8) :=
  match isnormalencdomname (msg.drop (ptr + n)) (rdlength - n) with
  | none => .error .fault
  | some true => readOctets msg ptr rdlength
  | some false => do
      let (name, bptr, blcnt) ← readName msg (ptr + n) (rdlength - n)
      let front ← readOctets msg ptr n
      let rest ← readOctets msg bptr blcnt
      .ok (front ++ name ++ rest)

/-- The gateway of a `T_IPSECKEY` record. -/
def gateway (msg : List UInt8) (ptr rdlength : ℕ) : Except Failure (List UInt8) :=
  if rdlength < 3 then .error .format
  else
    match msg[ptr + 1]? with
    | none => .error .fault
    | some gwtp =>
        if gwtp = 0 then readOctets msg ptr rdlength
        else if gwtp = 1 then
          if rdlength - 3 < 4 then .error .format else readOctets msg ptr rdlength
        else if gwtp = 2 then
          if rdlength - 3 < 16 then .error .format else readOctets msg ptr rdlength
        else if gwtp = 3 then nameAfter msg ptr rdlength 3
        else .error .format

/-- What is done with the data of a record. -/
inductive Treatment
  /-- they have this length, and are taken as they are -/
  | exactly (n : ℕ)
  | fields (fs : List Field)
  | gateway
  | nameAfter (n : ℕ)
  | asIs
deriving DecidableEq

/-- The cases of the switch in `rrs2cent`. -/
def treatment (type : ℕ) : Treatment :=
  if type = T_A then .exactly 4
  else if type ∈ [T_CNAME, T_MB, T_MD, T_MF, T_MG, T_MR, T_NS, T_PTR] then .fields [.name]
  else if type ∈ [T_MINFO, T_RP] then .fields [.name, .name]
  else if type ∈ [T_MX, T_AFSDB, T_RT, T_KX] then .fields [.octets 2, .name]
  else if type = T_SOA then .fields [.name, .name, .octets 20]
  else if type = T_AAAA then .exactly 16
  else if type = T_PX then .fields [.octets 2, .name, .name]
  else if type = T_SRV then .fields [.octets 6, .name]
  else if type = T_NXT then .fields [.name, .rest]
  else if type = T_NAPTR then .fields [.texts, .name]
  else if type = T_IPSECKEY then .gateway
  else if type = T_RRSIG then .nameAfter 18
  else if type = T_NSEC then .nameAfter 0
  else .asIs

/-- The data that are handed to the cache. -/
def readData (msg : List UInt8) (type ptr rdlength : ℕ) : Except Failure (List UInt8) :=
  match treatment type with
  | .exactly n => if rdlength ≠ n then .error .format else readOctets msg ptr rdlength
  | .fields fs => getFields msg fs ptr rdlength []
  | .gateway => gateway msg ptr rdlength
  | .nameAfter n => if rdlength < n then .error .format else nameAfter msg ptr rdlength n
  | .asIs => readOctets msg ptr rdlength

/-- What one call of `rr_to_cache` is made with. -/
structure CachedRr where
  oname : List UInt8
  type : ℕ
  ttl : ℕ
  data : List UInt8
deriving DecidableEq

/-- `edns_info_t`. -/
structure EdnsInfo where
  udpsize : ℕ
  rcode : ℕ
  version : ℕ
  do_flg : ℕ
deriving DecidableEq

/-- `*ptr`, `*lcnt`, what was handed to the cache, and `*numopt` and `*ep`. -/
structure Scan where
  ptr : ℕ
  lcnt : ℕ
  cached : List CachedRr
  numopt : ℕ
  ep : Option EdnsInfo
deriving DecidableEq

/-- A value that is only there inside the message. -/
def within {α : Type} (value : Option α) : Except Failure α :=
  match value with
  | none => .error .fault
  | some x => .ok x

/-- One round of the loop. -/
def rr2cent (msg : List UInt8) (scan : Scan) : Except Failure Scan := do
  let (oname, ptr, lcnt) ← readOwner msg scan.ptr scan.lcnt
  if lcnt < sizeof_rr_hdr_t then .error .trunc
  else
    let type ← within (getint16 msg ptr)
    let cls ← within (getint16 msg (ptr + 2))
    let ttl ← within (getint32 msg (ptr + 4))
    let rdlength ← within (getint16 msg (ptr + 8))
    let ttlp := ptr + 4
    let ptr := ptr + sizeof_rr_hdr_t
    let lcnt := lcnt - sizeof_rr_hdr_t
    if lcnt < rdlength then .error .trunc
    else
      let next := { scan with ptr := ptr + rdlength, lcnt := lcnt - rdlength }
      if type = T_OPT then
        if scan.numopt = 0 then
          let high ← within msg[ttlp]?
          let version ← within msg[ttlp + 1]?
          let flags ← within msg[ttlp + 2]?
          let rcode ← within msg[3]?
          .ok { next with
            numopt := 1
            ep := some ⟨cls, 16 * high.toNat + rcode.toNat % 16, version.toNat,
              flags.toNat / 128⟩ }
        else .ok { next with numopt := scan.numopt + 1 }
      else if PDNSD_NOT_CACHED_TYPE type = true ∨ cls ≠ C_IN then .ok next
      else
        let data ← readData msg type ptr rdlength
        .ok { next with cached := scan.cached ++ [⟨oname, type, ttl, data⟩] }

/-- `recnum` records from the pointer on. -/
def rrs2cent (msg : List UInt8) : ℕ → Scan → Except Failure Scan
  | 0, scan => .ok scan
  | recnum + 1, scan => do
      let scan' ← rr2cent msg scan
      rrs2cent msg recnum scan'

theorem rrs2cent_append (msg : List UInt8) (n m : ℕ) (scan : Scan) :
    rrs2cent msg (n + m) scan = rrs2cent msg n scan >>= rrs2cent msg m := by
  induction n generalizing scan with
  | zero => rw [Nat.zero_add]; rfl
  | succ n ih =>
      rw [Nat.succ_add]
      simp only [rrs2cent, ih, bind_assoc]

end Orbot.Pdnsd
