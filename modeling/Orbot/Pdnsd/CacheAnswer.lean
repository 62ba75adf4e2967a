import Mathlib.Data.List.Rotate
import Orbot.Pdnsd.Cent

/-! # An answer from the cache

`compose_answer` takes the records of an answer from the cache, first those that were
asked for, then the servers of their zones and at last the addresses of the servers.
Other threads go on in the meantime, so that what the cache gives may be different at
every call.
-/

namespace Orbot.Pdnsd

def QT_IXFR : ℕ := 251
def QT_AXFR : ℕ := 252
def QT_MAILB : ℕ := 253
def QT_MAILA : ℕ := 254
def QT_ALL : ℕ := 255

def QC_ALL : ℕ := 255

def RC_OK : ℕ := 0
def RC_NAMEERR : ℕ := 3
def RC_NOTSUPP : ℕ := 4

/-- `RRETP_ADD`. -/
def RRETP_ADD : ℕ := 0

def MAX_HOPS : ℕ := 20

def sizeof_opt_pseudo_rr : ℕ := 11

/-- What `dns_cached_resolve` gives. -/
inductive Resolved
  | found (cached : Cent)
  /-- a code other than `RC_OK`, and `c_soa` -/
  | failed (rc : ℕ) (not_ok : rc ≠ RC_OK) (c_soa : ℕ)

/-- What is outside at one moment: the cache and the random numbers. -/
structure World where
  dns_cached_resolve : List UInt8 → ℕ → Resolved
  lookup_cache : List UInt8 → Option Cent
  getlocalowner : List UInt8 → ℕ → Option (List UInt8)
  random : ℕ

/-- What one answer is composed with: the outside at every call, the parts of the
configuration that matter, the time, the limit of the transport, the RD bit of the query,
and whether it had an OPT record. -/
structure Setting where
  world : ℕ → World
  rnd_recs : Bool
  udpbufsize : ℕ
  queryts : ℤ
  udp : Option ℕ
  rd : Bool
  edns : Bool

/-- `sva_t`: a record that was added. -/
structure Sva where
  tp : ℕ
  nm : List UInt8
  data : List UInt8

/-- `rr_ext_t`: what is to be added later. -/
structure RrExt where
  tp : ℕ
  ttl : ℕ
  tnm : List UInt8
  nm : List UInt8

/-- The answer so far, `sva`, `ar` and `aa`, and the number of calls to the outside. -/
structure Answering where
  ans : Answer
  sva : List Sva
  ar : List RrExt
  aa : Bool
  calls : ℕ

def Answer.withFront (ans : Answer) (front : List UInt8) (four : front.length = 4) : Answer :=
  { ans with front := front, four := four }

/-- One more call. -/
def Answering.called (st : Answering) : Answering := { st with calls := st.calls + 1 }

section setting
variable (g : Setting)

/-- The records of a set in the order in which they are added. -/
def inOrder (st : Answering) (rrs : List (List UInt8)) : List (List UInt8) :=
  if g.rnd_recs then rrs.rotate ((g.world st.calls).random % rrs.length) else rrs

/-- One round of the loop in `add_rrset`. -/
def addRrsetRr (rrn : List UInt8) (tp ttl : ℕ) (st : Answering) (data : List UInt8) :
    Option Answering := do
  let ans ← add_rr g.udp st.ans ⟨rrn, tp, ttl, data⟩ .answer
  some { st with
    ans := ans
    sva := if tp = T_NS ∨ tp = T_A ∨ tp = T_AAAA then st.sva ++ [⟨tp, rrn, data⟩] else st.sva
    ar := st.ar ++ ((arOffset tp).map fun off => ⟨RRETP_ADD, 0, data.drop off, [0]⟩).toList }

def add_rrset (cached : Cent) (rrn : List UInt8) (st : Answering) (tp : ℕ) : Option Answering :=
  match getrrset cached tp with
  | none => some st
  | some crrset =>
      if crrset.rrs = [] then some st
      else
        (inOrder g st crrset.rrs).foldlM
          (addRrsetRr g rrn tp (uint32 (ans_ttl crrset g.queryts))) st.called

/-- The aliases, when there is no record of the requested type. -/
def addCname (cached : Cent) (rrn : List UInt8) (qtype : ℕ) (st : Answering) :
    Option Answering :=
  if qtype ≠ T_CNAME ∧ qtype ≠ QT_ALL ∧
      ¬(T_MIN ≤ qtype ∧ qtype ≤ T_MAX ∧ have_rr cached qtype = true) then
    add_rrset g cached rrn st T_CNAME
  else some st

def add_to_response (cached : Cent) (rrn : List UInt8) (qtype : ℕ) (st : Answering) :
    Option Answering := do
  let st ← addCname g cached rrn qtype st
  if qtype = QT_AXFR ∨ qtype = QT_IXFR then none
  else if qtype = QT_MAILB then [T_MB, T_MG, T_MR].foldlM (add_rrset g cached rrn) st
  else if qtype = QT_MAILA then [T_MD, T_MF].foldlM (add_rrset g cached rrn) st
  else if qtype = QT_ALL then (rrIterList cached).foldlM (add_rrset g cached rrn) st
  else if T_MIN ≤ qtype ∧ qtype ≤ T_MAX then add_rrset g cached rrn st qtype
  else none

/-- Nothing is added twice. -/
def add_additional_rr (rhn : List UInt8) (tp ttl : ℕ) (sect : Sect) (st : Answering)
    (data : List UInt8) : Option Answering :=
  if ∃ s ∈ st.sva, s.tp = tp ∧ rhnicmp s.nm rhn = some true ∧ s.data = data then some st
  else do
    let ans ← add_rr g.udp st.ans ⟨rhn, tp, ttl, data⟩ sect
    some { st with ans := ans, sva := st.sva ++ [⟨tp, rhn, data⟩] }

/-- One type of `add_additional_a`, with the loop of `add_additional_rrs`. -/
def add_additional_rrs (ae : Cent) (rhn : List UInt8) (st : Answering) (tp : ℕ) :
    Option Answering :=
  match getrrset ae tp with
  | none => some st
  | some rrset =>
      if rrset.rrs = [] then some st
      else
        (inOrder g st rrset.rrs).foldlM
          (add_additional_rr g rhn tp (uint32 (ans_ttl rrset g.queryts)) .additional) st.called

def add_additional_a (rhn : List UInt8) (st : Answering) : Option Answering :=
  match (g.world st.calls).lookup_cache rhn with
  | none => some st.called
  | some ae => [T_A, T_AAAA].foldlM (add_additional_rrs g ae rhn) st.called

/-- `skipsegs` behind the comparison with `rhnsegcnt`. -/
def zoneOf (qname : List UInt8) (scnt tcnt : ℕ) : Option (List UInt8) :=
  if tcnt ≠ cundef ∧ tcnt < scnt then skipsegs qname (scnt - tcnt) else some qname

/-- The SOA record of the zone in which a name does not exist. -/
def addSoa (qname : List UInt8) (c_soa : ℕ) (st : Answering) : Option Answering :=
  if c_soa = cundef then some st
  else do
    let scnt ← rhnsegcnt qname
    if c_soa < scnt then
      let zone ← skipsegs qname (scnt - c_soa)
      match (g.world st.calls).lookup_cache zone with
      | none => some st.called
      | some cached =>
          match getrrset cached T_SOA with
          | none => some st.called
          | some rrset =>
              if rrset.negative then some st.called
              else
                rrset.rrs.foldlM (fun st data => do
                  let ans ← add_rr g.udp st.ans
                    ⟨cached.qname, T_SOA, uint32 (ans_ttl rrset g.queryts), data⟩ .authority
                  some { st with ans := ans }) st.called
    else some st

/-- A set that is not negative. -/
def positiveSet (cached : Option Cent) (tp : ℕ) : Option (Cent × RrSet) :=
  match cached with
  | none => none
  | some cent =>
      match getrrset cent tp with
      | none => none
      | some rrset => if rrset.negative then none else some (cent, rrset)

/-- Whether the answer has no record of the requested type. -/
def noneOfType (cached : Cent) (qtype : ℕ) : Bool :=
  (decide (T_MIN ≤ qtype) && decide (qtype ≤ T_MAX) && !have_rr cached qtype) ||
    (decide (qtype = QT_MAILB) && !have_rr cached T_MB && !have_rr cached T_MG &&
      !have_rr cached T_MR) ||
    (decide (qtype = QT_MAILA) && !have_rr cached T_MD && !have_rr cached T_MF)

/-- The set with the servers or the SOA record of the zone: in the entry itself, higher
up, or where the owner of a local zone is. -/
def authoritySet (cached : Cent) (rretp : ℕ) (st : Answering) :
    Option (Option (Cent × RrSet) × Answering) :=
  match positiveSet (some cached) rretp with
  | some found => some (some found, st)
  | none => do
      let scnt ← rhnsegcnt cached.qname
      let zone ← zoneOf cached.qname scnt (if rretp = T_NS then cached.c_ns else cached.c_soa)
      let higher := (g.world st.calls).lookup_cache zone
      match positiveSet higher rretp with
      | some found => some (some found, st.called)
      | none =>
          if cached.locally then
            match (g.world (st.calls + 1)).getlocalowner cached.qname rretp with
            | none => some (none, st.called.called)
            | some nm =>
                match (g.world (st.calls + 2)).lookup_cache nm with
                | none => some (none, st.called.called.called)
                | some owner =>
                    -- here a negative set is not left out
                    some ((getrrset owner rretp).map fun rrset => (owner, rrset),
                      st.called.called.called)
          else some (none, st.called)

/-- The list of what the authority section gets. -/
def addAuthority (cached : Cent) (qtype : ℕ) (st : Answering) : Option Answering := do
  let rretp := if noneOfType cached qtype then T_SOA else T_NS
  let (found, st) ← authoritySet g cached rretp st
  match found with
  | none => some st
  | some (cent, rrset) =>
      some { st with
        ar := st.ar ++ rrset.rrs.map fun data =>
          ⟨rretp, uint32 (ans_ttl rrset g.queryts), data, cent.qname⟩ }

/-- What is done when the name could not be resolved. -/
def answerFailed (qname : List UInt8) (rc c_soa : ℕ) (st : Answering) :
    Option (Answering × ℕ) :=
  if rc = RC_NAMEERR then do
    let st ← addSoa g qname c_soa st
    some (if g.edns then { st with ans := add_opt_pseudo_rr st.ans g.udpbufsize rc 0 0 } else st, rc)
  else some (st, rc)

/-- Whether the inquiry is repeated with the name in `qname` behind it. -/
def followsCname (cached : Cent) (qtype : ℕ) : Option (List UInt8) :=
  if g.rd = true ∧ qtype ≠ T_CNAME ∧ qtype ≠ QT_ALL ∧
      ¬(T_MIN ≤ qtype ∧ qtype ≤ T_MAX ∧ have_rr cached qtype = true) then
    follow_cname_chain cached
  else none

/-- One round of the loop for a question, with the rounds behind it: the state and the
code. -/
def answerRound (qtype : ℕ) (more : List UInt8 → Answering → Option (Answering × ℕ))
    (qname : List UInt8) (st : Answering) : Option (Answering × ℕ) :=
  match (g.world st.calls).dns_cached_resolve qname qtype with
  | .failed rc _ c_soa => answerFailed g qname rc c_soa st.called
  | .found cached => do
      let st ← add_to_response g cached qname qtype
        { st.called with aa := st.aa && cached.locally }
      match followsCname g cached qtype with
      | some qname => more qname st
      | none => (addAuthority g cached qtype st).map fun st => (st, RC_OK)

/-- The loop for one question, which stops when no hops are left. -/
def answerQuery (qtype : ℕ) : ℕ → List UInt8 → Answering → Option (Answering × ℕ)
  | 0 => answerRound g qtype fun _ st => some (st, RC_OK)
  | hops + 1 => answerRound g qtype (answerQuery qtype hops)

/-- The answer section. -/
def answerQueries : List Query → Answering → Option (Answering × ℕ)
  | [], st => some (st, RC_OK)
  | qe :: ql, st => do
      let (st, rc) ← answerQuery g qe.qtype MAX_HOPS qe.query st
      if rc ≠ RC_OK then some (st, rc) else answerQueries ql st

/-- One round of the loop for the authority section. -/
def addAuthorityRr (st : Answering) (rre : RrExt) : Option Answering :=
  if rre.tp = T_NS ∨ rre.tp = T_SOA then
    add_additional_rr g rre.nm rre.tp rre.ttl .authority st rre.tnm
  else some st

/-- One round of the loop for the addresses of servers. -/
def addServerRr (st : Answering) (rre : RrExt) : Option Answering :=
  if rre.tp = T_NS ∨ rre.tp = RRETP_ADD then add_additional_a g rre.tnm st else some st

/-- The additional section, for which an OPT record has to fit. -/
def addAdditional (st : Answering) : Option Answering :=
  if ∃ limit ∈ g.udp, limit < st.ans.sz + sizeof_opt_pseudo_rr then some st
  else
    st.ar.foldlM (addServerRr g)
      (if g.edns then { st with ans := add_opt_pseudo_rr st.ans g.udpbufsize RC_OK 0 0 } else st)

/-- A query that cannot be answered. -/
def unsupported (qe : Query) : Bool :=
  (PDNSD_NOT_CACHED_TYPE qe.qtype &&
      (qe.qtype ≠ QT_MAILB && qe.qtype ≠ QT_MAILA && qe.qtype ≠ QT_ALL)) ||
    (qe.qclass ≠ C_IN && qe.qclass ≠ QC_ALL)

/-- The header in front of the counts. Whether the message is truncated is only known
when it is sent. -/
def front (id : List UInt8) (aa : Bool) (rcode : ℕ) : List UInt8 :=
  id ++ [UInt8.ofNat (0x80 + 4 * aa.toNat + g.rd.toNat), UInt8.ofNat (0x80 + rcode % 16)]

theorem length_front {id : List UInt8} (two : id.length = 2) (aa : Bool) (rcode : ℕ) :
    (front g id aa rcode).length = 4 := by
  rw [front, List.length_append, two]
  rfl

/-- The answer to a query with the given id, and the code. -/
def compose_answer (ql : List Query) (id : List UInt8) (two : id.length = 2) :
    Option (Answer × ℕ) := do
  let asked ← ql.foldlM add_query
    (Answer.start (front g id false RC_OK) (length_front g two false RC_OK))
  if ql.any unsupported then
    some (asked.withFront (front g id false RC_NOTSUPP) (length_front g two _ _), RC_NOTSUPP)
  else
    let (st, rc) ← answerQueries g ql ⟨asked, [], [], true, 0⟩
    if rc ≠ RC_OK then some (st.ans.withFront (front g id false rc) (length_front g two _ _), rc)
    else
      let st ← st.ar.foldlM (addAuthorityRr g) st
      let st ← addAdditional g st
      some (st.ans.withFront (front g id st.aa RC_OK) (length_front g two _ _), RC_OK)

end setting

end Orbot.Pdnsd
