import Orbot.Pdnsd.Rrs2Cent

/-! # Assembling an answer

The questions come first, then the records of the three sections. Every name goes
through `compress_name` with one list for the whole message, also those in the
data of a record. A record of the additional section that makes an answer too
large for the transport is taken back.
-/

namespace Orbot.Pdnsd

/-- The loop over the strings of a `T_NAPTR` record. -/
def textsEnd (data : List UInt8) : ℕ → ℕ → Option ℕ
  | 0, ilen => some ilen
  | j + 1, ilen => do
      let c ← data[ilen]?
      let ilen := ilen + (c.toNat + 1)
      if ilen < data.length then textsEnd data j ilen else none

/-- What the fields are written as from the offset on, where `data` begins with
the first of them. -/
def putFields : List Field → List UInt8 → ℕ → List Compel → Option (List UInt8 × List Compel)
  | [], _, _, cb => some ([], cb)
  | .octets n :: fs, data, offs, cb => do
      if data.length < n then none
      else
        let (more, cb') ← putFields fs (data.drop n) (offs + n) cb
        some (data.take n ++ more, cb')
  | .texts :: fs, data, offs, cb => do
      let ilen ← textsEnd data 3 4
      let (more, cb') ← putFields fs (data.drop ilen) (offs + ilen) cb
      some (data.take ilen ++ more, cb')
  | .name :: fs, data, offs, cb => do
      let (out, cb') ← compress_name data offs cb
      let ilen ← rhnlen data
      let (more, cb'') ← putFields fs (data.drop ilen) (offs + out.length) cb'
      some (out ++ more, cb'')
  | .rest :: fs, data, offs, cb => do
      let (more, cb') ← putFields fs [] (offs + data.length) cb
      some (data ++ more, cb')

/-- The cases of the switch in `add_rr`. -/
def rdataFields (type : ℕ) : List Field :=
  if type ∈ [T_CNAME, T_MB, T_MD, T_MF, T_MG, T_MR, T_NS, T_PTR] then [.name]
  else if type ∈ [T_MINFO, T_RP] then [.name, .name]
  else if type ∈ [T_MX, T_AFSDB, T_RT, T_KX] then [.octets 2, .name]
  else if type = T_SOA then [.name, .name, .octets 20]
  else if type = T_PX then [.octets 2, .name, .name]
  else if type = T_SRV then [.octets 6, .name]
  else if type = T_NXT then [.name, .rest]
  else if type = T_NAPTR then [.texts, .name]
  else [.rest]

/-- The rr header, which is filled in last. -/
def rrHeader (type ttl rdlen : ℕ) : List UInt8 :=
  putint16 type ++ (putint16 C_IN ++ (putint32 ttl ++ putint16 rdlen))

@[simp] theorem length_rrHeader (type ttl rdlen : ℕ) :
    (rrHeader type ttl rdlen).length = sizeof_rr_hdr_t := rfl

/-- The bytes of a record from an offset on, and the new list. The data never get
longer. -/
def putRr (rr : CachedRr) (offs : ℕ) (cb : List Compel) : Option (List UInt8 × List Compel) := do
  let (nbuf, cb') ← compress_name rr.oname offs cb
  let (rdata, cb'') ←
    putFields (rdataFields rr.type) rr.data (offs + nbuf.length + sizeof_rr_hdr_t) cb'
  if rr.data.length < rdata.length then none
  else
    some (nbuf ++ (rrHeader rr.type rr.ttl rdata.length ++ rdata), cb'')

/-- `S_ANSWER`, `S_AUTHORITY` and `S_ADDITIONAL`. -/
inductive Sect
  | answer
  | authority
  | additional
deriving DecidableEq

/-- An answer in the making: the first four bytes of the header, its four counts,
and what follows it. -/
structure Answer where
  front : List UInt8
  four : front.length = 4
  qdcount : ℕ
  ancount : ℕ
  nscount : ℕ
  arcount : ℕ
  body : List UInt8
  cb : List Compel

namespace Answer

def header (ans : Answer) : List UInt8 :=
  ans.front ++
    (putint16 ans.qdcount ++ putint16 ans.ancount ++ putint16 ans.nscount ++ putint16 ans.arcount)

@[simp] theorem length_header (ans : Answer) : ans.header.length = 12 := by
  simp [header, ans.four]

/-- The message as it is sent. -/
def msg (ans : Answer) : List UInt8 := ans.header ++ ans.body

/-- `*sz`. -/
def sz (ans : Answer) : ℕ := 12 + ans.body.length

/-- `compose_answer` before the first question. -/
def start (front : List UInt8) (four : front.length = 4) : Answer :=
  ⟨front, four, 0, 0, 0, 0, [], []⟩

end Answer

/-- `htons(ntohs(count)+1)`. -/
def increment (count : ℕ) : ℕ := (count + 1) % 65536

def Answer.count (ans : Answer) : Sect → Answer
  | .answer => { ans with ancount := increment ans.ancount }
  | .authority => { ans with nscount := increment ans.nscount }
  | .additional => { ans with arcount := increment ans.arcount }

/-- `dns_queryel_t`. -/
structure Query where
  query : List UInt8
  qtype : ℕ
  qclass : ℕ
deriving DecidableEq

/-- What `compose_answer` does with one question. -/
def add_query (ans : Answer) (qe : Query) : Option Answer := do
  let (out, cb) ← compress_name qe.query ans.sz ans.cb
  some { ans with
    body := ans.body ++ (out ++ (putint16 qe.qtype ++ putint16 qe.qclass))
    qdcount := increment ans.qdcount
    cb := cb }

/-- A record that is too large is taken back, but the list of names is not. -/
def add_rr (udp : Option ℕ) (ans : Answer) (rr : CachedRr) (section' : Sect) : Option Answer := do
  let (out, cb) ← putRr rr ans.sz ans.cb
  if (∃ limit ∈ udp, limit < ans.sz + out.length) ∧ section' = .additional then
    some { ans with cb := cb }
  else some ({ ans with body := ans.body ++ out, cb := cb }.count section')

/-- The bytes of an OPT pseudo record. -/
def optBytes (udpsize rcode ednsver zflags : ℕ) : List UInt8 :=
  [0] ++ (putint16 T_OPT ++ putint16 udpsize ++
    ([UInt8.ofNat (rcode / 16), UInt8.ofNat ednsver] ++ putint16 zflags) ++ putint16 0)

def add_opt_pseudo_rr (ans : Answer) (udpsize rcode ednsver zflags : ℕ) : Answer :=
  { ans with body := ans.body ++ optBytes udpsize rcode ednsver zflags }.count .additional

end Orbot.Pdnsd
