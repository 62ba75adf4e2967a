import Orbot.Pdnsd.AnswerRead
import Mathlib.Data.List.Forall2

/-! # Whole answers

An answer is composed of questions and then of records. Both are read back from the
message in their order, whatever was written as a pointer on the way, as long as
no record had to be taken back.
-/

namespace Orbot.Pdnsd

/-! ## Questions -/

/-- The result of `decode_query`: the code that is not `RC_OK`, the list, `ptr` and `sz`. -/
structure Decoded where
  res : Option Failure
  queries : List Query
  ptr : ℕ
  sz : ℕ
deriving DecidableEq

/-- The loop over the questions that are left. -/
def decodeQueries (data : List UInt8) : ℕ → ℕ → ℕ → List Query → Decoded
  | 0, ptr, sz, ql => ⟨none, ql, ptr, sz⟩
  | n + 1, ptr, sz, ql =>
      match decompress_name data ptr sz with
      | .trunc => ⟨some .trunc, ql, ptr, sz⟩
      | .format => ⟨some .format, [], ptr, sz⟩
      | .fault => ⟨some .fault, [], ptr, sz⟩
      | .ok qbuf ptr sz =>
          if sz < 4 then ⟨some .trunc, ql, ptr, sz⟩
          else
            match getint16 data ptr, getint16 data (ptr + 2) with
            | some qtype, some qclass =>
                decodeQueries data n (ptr + 4) (sz - 4) (ql ++ [⟨qbuf, qtype, qclass⟩])
            | _, _ => ⟨some .fault, [], ptr, sz⟩

def decode_query (data : List UInt8) : Decoded :=
  match getint16 data 4 with
  | none => ⟨some .fault, [], 0, 0⟩
  | some qdcount => decodeQueries data qdcount 12 (data.length - 12) []

/-- A question whose name fits, with a type and a class of 16 bits. -/
structure Query.Fits (qe : Query) : Prop where
  query : IsName qe.query
  qtype : qe.qtype < 65536
  qclass : qe.qclass < 65536

structure SameQuery (qe qe' : Query) : Prop where
  query : ∃ ls ls', qe.query = encode ls ∧ qe'.query = encode ls' ∧ SameName ls ls'
  qtype : qe'.qtype = qe.qtype
  qclass : qe'.qclass = qe.qclass

/-- The list of names is of use when the header is the given one. -/
def Answer.Usable (header : List UInt8) (ans : Answer) : Prop :=
  Pdnsd.Usable (header ++ ans.body) ans.cb

section header
variable {header : List UInt8} (twelve : header.length = 12)
include twelve

theorem length_message (body : List UInt8) : (header ++ body).length = 12 + body.length := by
  rw [List.length_append, twelve]

/-- A question that is added is read again, and the list stays of use. -/
theorem add_query_reads {ans : Answer} {qe : Query} (usable : ans.Usable header)
    (fits : qe.Fits) :
    ∃ ans' added, add_query ans qe = some ans' ∧ ans'.body = ans.body ++ added ∧
      ans'.qdcount = increment ans.qdcount ∧
      ans'.ancount + ans'.nscount + ans'.arcount = ans.ancount + ans.nscount + ans.arcount ∧
      ans'.Usable header ∧ ∃ qe', SameQuery qe qe' ∧ ∀ more n ql,
        decodeQueries (header ++ (ans.body ++ (added ++ more))) (n + 1) (12 + ans.body.length)
            (added.length + more.length) ql =
          decodeQueries (header ++ (ans.body ++ (added ++ more))) n (12 + ans'.body.length)
            more.length (ql ++ [qe']) := by
  obtain ⟨ls, spelled, short⟩ := fits.query
  obtain ⟨out, cb, result, -, usable', -, -, ls', hops, name, same, few, fits'⟩ :=
    compress_name_readable [] usable short
  have size := length_message twelve ans.body
  rw [List.append_nil, ← spelled, size] at result
  refine ⟨{ ans with
      body := ans.body ++ (out ++ (putint16 qe.qtype ++ putint16 qe.qclass))
      qdcount := increment ans.qdcount
      cb := cb }, out ++ (putint16 qe.qtype ++ putint16 qe.qclass), ?_, rfl, rfl, rfl, ?_,
    ⟨encode ls', qe.qtype, qe.qclass⟩, ⟨⟨ls, ls', spelled, rfl, same⟩, rfl, rfl⟩, ?_⟩
  · simp only [add_query, Answer.sz, result, Option.bind_eq_bind, Option.bind_some]
  · simpa only [Answer.Usable, List.append_assoc] using
      usable'.append (putint16 qe.qtype ++ putint16 qe.qclass)
  · intro more n ql
    have here : (header ++ (ans.body ++ ((out ++ (putint16 qe.qtype ++ putint16 qe.qclass)) ++
        more))).drop (12 + ans.body.length + out.length) =
        putint16 qe.qtype ++ (putint16 qe.qclass ++ more) := by
      rw [← size, ← List.drop_drop, ← List.append_assoc header, List.drop_left, List.append_assoc,
        List.drop_left, List.append_assoc]
    have qtype := getint16_put here
    have qclass : getint16 _ (12 + ans.body.length + out.length + 2) = _ :=
      getint16_put (drop_of_drop here)
    rw [Nat.mod_eq_of_lt fits.qtype] at qtype
    rw [Nat.mod_eq_of_lt fits.qclass] at qclass
    have lengths : (out ++ (putint16 qe.qtype ++ putint16 qe.qclass)).length + more.length =
        out.length + (4 + more.length) := by
      simp only [List.length_append, length_putint16]
      omega
    have read := decompress_name_of_nameAt (out.length + (4 + more.length))
      (name.append (putint16 qe.qtype ++ putint16 qe.qclass ++ more)) few fits'
    rw [if_pos (by omega), size, Nat.add_sub_cancel_left] at read
    rw [lengths, decodeQueries]
    simp only [List.append_assoc] at read qtype qclass ⊢
    simp only [read, qtype, qclass]
    rw [if_neg (by omega), Nat.add_sub_cancel_left]
    simp only [List.length_append, length_putint16]
    congr 1
    omega

/-! ## Records -/

/-- What an OPT pseudo record says, with the low bits of the code in the header. -/
def ednsInfo (header : List UInt8) (udpsize rcode ednsver zflags : ℕ) : EdnsInfo :=
  ⟨udpsize % 65536, 16 * (rcode / 16 % 256) + ((header[3]?).getD 0).toNat % 16, ednsver % 256,
    zflags / 256 % 256 / 128⟩

theorem optBytes_reads (body more : List UInt8) (udpsize rcode ednsver zflags : ℕ) (scan : Scan)
    (at_end : scan.ptr = 12 + body.length)
    (count : scan.lcnt = (optBytes udpsize rcode ednsver zflags).length + more.length) :
    rr2cent (header ++ (body ++ (optBytes udpsize rcode ednsver zflags ++ more))) scan =
      .ok { scan with
        ptr := 12 + (body ++ optBytes udpsize rcode ednsver zflags).length, lcnt := more.length
        numopt := scan.numopt + 1
        ep := if scan.numopt = 0 then some (ednsInfo header udpsize rcode ednsver zflags)
          else scan.ep } := by
  have size := length_message twelve body
  have eleven : (optBytes udpsize rcode ednsver zflags).length = 11 := rfl
  rw [eleven] at count
  have tail : header ++ (body ++ (optBytes udpsize rcode ednsver zflags ++ more)) =
      (header ++ body) ++ ([0] ++ (putint16 T_OPT ++ (putint16 udpsize ++
        ([UInt8.ofNat (rcode / 16), UInt8.ofNat ednsver] ++ (putint16 zflags ++
          (putint16 0 ++ more)))))) := by
    simp only [optBytes, List.append_assoc]
  have root : NameAt ((header ++ body) ++ [0]) (header ++ body).length 0 [(0 : UInt8)].length [] :=
    .root (by simp)
  have owner := readOwner_at root (by omega) (by decide)
    (putint16 T_OPT ++ (putint16 udpsize ++ ([UInt8.ofNat (rcode / 16), UInt8.ofNat ednsver] ++
      (putint16 zflags ++ (putint16 0 ++ more)))))
    (show _ ≤ scan.lcnt by simp only [List.length_singleton]; omega)
  rw [← tail, size] at owner
  have at_name : (header ++ (body ++ (optBytes udpsize rcode ednsver zflags ++ more))).drop
      (12 + body.length) = [0] ++ (putint16 T_OPT ++ (putint16 udpsize ++
        ([UInt8.ofNat (rcode / 16), UInt8.ofNat ednsver] ++ (putint16 zflags ++
          (putint16 0 ++ more))))) := by
    rw [tail, ← size, List.drop_left]
  have at_type : List.drop (12 + body.length + 1) _ = _ := drop_of_drop at_name
  have at_class : List.drop (12 + body.length + 1 + 2) _ = _ := drop_of_drop at_type
  have at_ttl : List.drop (12 + body.length + 1 + 4) _ = _ := drop_of_drop at_class
  have at_version : List.drop (12 + body.length + 1 + 5) _ = _ := drop_of_drop
    (show _ = [UInt8.ofNat (rcode / 16)] ++ (UInt8.ofNat ednsver :: (putint16 zflags ++
      (putint16 0 ++ more))) from at_ttl)
  have at_flags : List.drop (12 + body.length + 1 + 6) _ = _ := drop_of_drop at_ttl
  have at_rdlen : List.drop (12 + body.length + 1 + 8) _ = _ := drop_of_drop at_flags
  have low : (header ++ (body ++ (optBytes udpsize rcode ednsver zflags ++ more)))[3]? =
      some ((header[3]?).getD 0) := by
    rw [List.getElem?_append_left (by omega), List.getElem?_eq_getElem (by omega)]
    rfl
  obtain ⟨ttl, ttl_read⟩ := getint32_ne_none
    (header ++ (body ++ (optBytes udpsize rcode ednsver zflags ++ more)))
    (12 + body.length + 1 + 4) (by simp only [List.length_append, eleven, twelve]; omega)
  simp only [rr2cent, at_end, owner, bind, Except.bind, List.length_singleton,
    getint16_put at_type, getint16_put at_class, ttl_read, getint16_put at_rdlen, within,
    read_of_drop at_ttl, read_of_drop at_version, read_of_drop at_flags, low]
  have ptr_end : 12 + body.length + 1 + sizeof_rr_hdr_t + 0 % 65536 =
      12 + (body ++ optBytes udpsize rcode ednsver zflags).length := by
    rw [List.length_append, eleven]
    rfl
  have lcnt_end : scan.lcnt - 1 - sizeof_rr_hdr_t - 0 % 65536 = more.length := by
    simp only [sizeof_rr_hdr_t]
    omega
  rw [if_neg (by simp only [sizeof_rr_hdr_t]; omega), if_neg (by simp),
    if_pos (show T_OPT % 65536 = T_OPT from rfl), ptr_end, lcnt_end]
  by_cases first : scan.numopt = 0
  · simp only [first, if_true, ednsInfo, UInt8.toNat_ofNat', Nat.zero_add, Nat.reducePow]
  · simp only [first, if_false]

end header

/-! ## Entries -/

/-- What is added behind the questions. -/
inductive Entry
  | rr (rr : CachedRr) (section' : Sect)
  | opt (udpsize rcode ednsver zflags : ℕ)

def Entry.record : Entry → Option CachedRr
  | .rr r _ => some r
  | .opt _ _ _ _ => none

def Entry.info (header : List UInt8) : Entry → Option EdnsInfo
  | .rr _ _ => none
  | .opt udpsize rcode ednsver zflags => some (ednsInfo header udpsize rcode ednsver zflags)

def Entry.Cacheable : Entry → Prop
  | .rr r _ => Pdnsd.Cacheable r
  | .opt _ _ _ _ => True

def add_entry (udp : Option ℕ) (ans : Answer) : Entry → Option Answer
  | .rr rr section' => add_rr udp ans rr section'
  | .opt udpsize rcode ednsver zflags => some (add_opt_pseudo_rr ans udpsize rcode ednsver zflags)

/-- The questions, and then the records of an answer. -/
def compose (udp : Option ℕ) (ans : Answer) (qs : List Query) (es : List Entry) : Option Answer := do
  let asked ← qs.foldlM add_query ans
  es.foldlM (add_entry udp) asked

/-- How many records the header counts. -/
def Answer.total (ans : Answer) : ℕ := ans.ancount + ans.nscount + ans.arcount

theorem Answer.total_count (ans : Answer) (room : ans.total + 1 < 65536) (section' : Sect) :
    (ans.count section').total = ans.total + 1 := by
  simp only [total] at room
  cases section' <;> simp only [count, total, increment] <;> omega

@[simp] theorem Answer.count_body (ans : Answer) (section' : Sect) :
    (ans.count section').body = ans.body := by
  cases section' <;> rfl

@[simp] theorem Answer.count_cb (ans : Answer) (section' : Sect) :
    (ans.count section').cb = ans.cb := by
  cases section' <;> rfl

@[simp] theorem Answer.count_qdcount (ans : Answer) (section' : Sect) :
    (ans.count section').qdcount = ans.qdcount := by
  cases section' <;> rfl

/-! ## Names of servers -/

def ar_recs : List ℕ := [T_NS, T_MD, T_MF, T_MB, T_MX, T_SRV]

/-- From the start of the data to the name of the server. -/
def ar_offs : List ℕ := [0, 0, 0, 0, 2, 6]

/-- The loop over `ar_recs`. -/
def arOffset (type : ℕ) : Option ℕ := (ar_recs.zip ar_offs).lookup type

/-- The name a record has in its data, for which addresses are added. -/
def serverName (rr : CachedRr) : Option (List UInt8) :=
  (arOffset rr.type).map fun off => rr.data.drop off

/-- The name of a server, in a record that is not taken back. -/
def Entry.server : Entry → Option (List UInt8)
  | .rr r .answer | .rr r .authority => serverName r
  | .rr _ .additional | .opt _ _ _ _ => none

/-- A record that is taken back has no names in its data, and its owner is one of the
servers that were named in front of it. -/
def Entry.Refers (named : List (List UInt8)) : Entry → Prop
  | .rr r .additional => rdataFields r.type = [.rest] ∧ r.oname ∈ named
  | .rr _ .answer | .rr _ .authority | .opt _ _ _ _ => True

/-- Every record of the additional section is for a server. -/
def Referred (named : List (List UInt8)) : List Entry → Prop
  | [] => True
  | e :: es => e.Refers named ∧ Referred (named ++ e.server.toList) es

/-- A name that the message has already and that can be pointed to. -/
def Answer.Names (ans : Answer) (nm : List UInt8) : Prop :=
  ∃ ls, nm = encode ls ∧ (encode ls).length ≤ DNSNAMEBUFSIZE ∧ Listed ans.sz ans.cb ls

theorem Answer.Names.mono {ans ans' : Answer} {nm : List UInt8} (names : ans.Names nm)
    (longer : ans.sz ≤ ans'.sz) (grown : ans.cb <+: ans'.cb) : ans'.Names nm := by
  obtain ⟨ls, spelled, fits, listed⟩ := names
  exact ⟨ls, spelled, fits, listed.mono longer grown⟩

/-- Where there is a server, its name is the last of the fields. -/
theorem fields_of_arOffset {type off : ℕ} (offset : arOffset type = some off) :
    treatment type = .fields [.name] ∧ off = 0 ∨ treatment type = .fields [.octets off, .name] := by
  obtain ⟨front, back, split, -⟩ := List.lookup_eq_some_iff.mp offset
  have mem : (type, off) ∈ ar_recs.zip ar_offs := by simp [split]
  simp only [ar_recs, ar_offs, List.zip_cons_cons, List.zip_nil_right, List.mem_cons,
    Prod.mk.injEq, List.not_mem_nil, or_false] at mem
  rcases mem with ⟨rfl, rfl⟩ | ⟨rfl, rfl⟩ | ⟨rfl, rfl⟩ | ⟨rfl, rfl⟩ | ⟨rfl, rfl⟩ | ⟨rfl, rfl⟩
  · exact .inl ⟨by decide, rfl⟩
  · exact .inl ⟨by decide, rfl⟩
  · exact .inl ⟨by decide, rfl⟩
  · exact .inl ⟨by decide, rfl⟩
  · exact .inr (by decide)
  · exact .inr (by decide)

theorem names_of_listed {size off type : ℕ} {cb : List Compel} {data : List UInt8}
    (listed : NamesListed size cb type data) (offset : arOffset type = some off) :
    ∃ ls, data.drop off = encode ls ∧ (encode ls).length ≤ DNSNAMEBUFSIZE ∧ Listed size cb ls := by
  rcases fields_of_arOffset offset with ⟨fields, rfl⟩ | fields
  · obtain ⟨ps, fits, rfl, names⟩ := listed _ fields
    rcases fits with _ | ⟨fit, _ | _⟩
    rename_i p
    cases p with
    | octets l => cases fit
    | name ls => exact ⟨ls, by simp [Piece.bytes], fit, names ls List.mem_cons_self⟩
  · obtain ⟨ps, fits, rfl, names⟩ := listed _ fields
    rcases fits with _ | ⟨length, _ | ⟨fit, _ | _⟩⟩
    rename_i p q
    cases p with
    | name ms => cases length
    | octets l =>
        cases q with
        | octets l' => cases fit
        | name ls =>
            obtain rfl : l.length = off := length
            exact ⟨ls, by simp [Piece.bytes], fit, names ls (by simp)⟩

/-! ## Runs -/

/-- A scan after some more records and OPT records. -/
def Scan.after (scan : Scan) (cached : List CachedRr) (infos : List EdnsInfo) (ptr lcnt : ℕ) :
    Scan where
  ptr := ptr
  lcnt := lcnt
  cached := scan.cached ++ cached
  numopt := scan.numopt + infos.length
  ep := if scan.numopt = 0 then infos.head?.or scan.ep else scan.ep

theorem Scan.after_after (scan : Scan) (cached cached' : List CachedRr)
    (infos infos' : List EdnsInfo) (ptr lcnt ptr' lcnt' : ℕ) :
    (scan.after cached infos ptr lcnt).after cached' infos' ptr' lcnt' =
      scan.after (cached ++ cached') (infos ++ infos') ptr' lcnt' := by
  cases infos with
  | nil => simp [Scan.after]
  | cons info infos =>
      have later : scan.numopt + (infos.length + 1) ≠ 0 := by omega
      simp only [Scan.after, List.append_assoc, List.length_append, List.length_cons, later,
        if_false, List.cons_append, List.head?_cons, Option.some_or, Scan.mk.injEq, true_and,
        and_true]
      omega

/-- The entries that are still there when some were taken back: without a limit that is
all of them. -/
inductive Kept (udp : Option ℕ) : List Entry → List Entry → Prop
  | nil : Kept udp [] []
  | keep {es kept : List Entry} (e : Entry) (rest : Kept udp es kept) :
      Kept udp (e :: es) (e :: kept)
  | leave {limit : ℕ} {es kept : List Entry} (r : CachedRr) (limited : udp = some limit)
      (rest : Kept udp es kept) : Kept udp (.rr r .additional :: es) kept

theorem Kept.length {udp : Option ℕ} {es kept : List Entry} (leaves : Kept udp es kept) :
    kept.length ≤ es.length := by
  induction leaves with
  | nil => exact Nat.le_refl _
  | keep e rest ih => simpa using ih
  | leave r limited rest ih => exact ih.trans (Nat.le_succ _)

theorem Kept.append {udp : Option ℕ} {es kept es' kept' : List Entry} (first : Kept udp es kept)
    (second : Kept udp es' kept') : Kept udp (es ++ es') (kept ++ kept') := by
  induction first with
  | nil => exact second
  | keep e rest ih => exact .keep e ih
  | leave r limited rest ih => exact .leave r limited ih

/-- What an answer has become when some entries were added, and how they are read. -/
structure Extends (header : List UInt8) (ans ans' : Answer) (es : List Entry) : Prop where
  qdcount : ans'.qdcount = ans.qdcount
  total : ans.total + es.length < 65536 → ans'.total = ans.total + es.length
  grown : ans.cb <+: ans'.cb
  usable : ans'.Usable header
  servers : ∀ nm ∈ es.filterMap Entry.server, ans'.Names nm
  reads : ∃ added cached, ans'.body = ans.body ++ added ∧
    List.Forall₂ SameRr (es.filterMap Entry.record) cached ∧
    ∀ more scan, scan.ptr = 12 + ans.body.length → scan.lcnt = added.length + more.length →
      rrs2cent (header ++ (ans.body ++ (added ++ more))) es.length scan =
        .ok (scan.after cached (es.filterMap (Entry.info header)) (12 + ans'.body.length)
          more.length)

namespace Extends

variable {header : List UInt8} {ans ans' ans'' : Answer} {es es' : List Entry}

theorem longer (first : Extends header ans ans' es) : ans.sz ≤ ans'.sz := by
  obtain ⟨added, cached, body, -⟩ := first.reads
  simp only [Answer.sz, body, List.length_append]
  omega

/-- A record that was taken back has left nothing but the list of names. -/
theorem taken_back {cb : List Compel} (grown : ans.cb <+: cb)
    (usable : Usable (header ++ ans.body) cb) : Extends header ans { ans with cb := cb } [] where
  qdcount := rfl
  total := fun _ => rfl
  grown := grown
  usable := usable
  servers := by simp
  reads := by
    refine ⟨[], [], by simp, .nil, ?_⟩
    intro more scan at_end count
    simp only [List.length_nil, Nat.zero_add] at count
    simp [rrs2cent, Scan.after, ← at_end, ← count]

theorem trans (first : Extends header ans ans' es) (second : Extends header ans' ans'' es') :
    Extends header ans ans'' (es ++ es') where
  qdcount := second.qdcount.trans first.qdcount
  total := by
    intro room
    rw [List.length_append] at room ⊢
    have total := first.total (by omega)
    rw [second.total (by omega), total, Nat.add_assoc]
  grown := first.grown.trans second.grown
  usable := second.usable
  servers := by
    intro nm mem
    rw [List.filterMap_append, List.mem_append] at mem
    rcases mem with mem | mem
    · exact (first.servers nm mem).mono second.longer second.grown
    · exact second.servers nm mem
  reads := by
    obtain ⟨added, cached, body, same, read⟩ := first.reads
    obtain ⟨added', cached', body', same', read'⟩ := second.reads
    refine ⟨added ++ added', cached ++ cached', ?_, ?_, ?_⟩
    · rw [body', body, List.append_assoc]
    · rw [List.filterMap_append]
      exact List.rel_append same same'
    · intro more scan at_end count
      rw [List.length_append] at count
      have here := read (added' ++ more) scan at_end (by rw [List.length_append]; omega)
      have next := read' more (scan.after cached (es.filterMap (Entry.info header))
        (12 + ans'.body.length) (added' ++ more).length) rfl List.length_append
      rw [Scan.after_after, ← List.filterMap_append, body, List.append_assoc, ← body] at next
      rw [List.length_append, rrs2cent_append, List.append_assoc added, here]
      exact next

end Extends

section header
variable {header : List UInt8} (twelve : header.length = 12)
include twelve

theorem Answer.length_message (ans : Answer) : (header ++ ans.body).length = ans.sz :=
  Pdnsd.length_message twelve ans.body

/-- A record that stays is read again. -/
theorem Extends.rr {ans : Answer} {rr : CachedRr} (section' : Sect) (usable : ans.Usable header)
    (cacheable : Cacheable rr) :
    ∃ out cb, putRr rr ans.sz ans.cb = some (out, cb) ∧ ans.cb <+: cb ∧
      Extends header ans ({ ans with body := ans.body ++ out, cb := cb }.count section')
        [.rr rr section'] := by
  obtain ⟨out, cb, result, usable', grown, listed, rr', same, read⟩ :=
    putRr_reads usable cacheable
  rw [Answer.length_message twelve] at result read listed
  refine ⟨out, cb, result, grown, ?_⟩
  constructor
  case qdcount => simp
  case total =>
    intro room
    exact Answer.total_count { ans with body := ans.body ++ out, cb := cb } room _
  case grown => simpa using grown
  case usable => simpa only [Answer.Usable, Answer.count_body, Answer.count_cb,
      List.append_assoc] using usable'
  case servers =>
    intro nm mem
    have server : serverName rr = some nm := by
      cases section' with
      | answer | authority => simpa [Entry.server] using mem
      | additional => simp [Entry.server] at mem
    rw [serverName, Option.map_eq_some_iff] at server
    obtain ⟨off, offset, rfl⟩ := server
    obtain ⟨ls, spelled, fits, here⟩ := names_of_listed listed offset
    refine ⟨ls, spelled, fits, here.mono ?_ ?_⟩
    · simp only [Answer.sz, Answer.count_body, List.length_append, Nat.add_assoc, Nat.le_refl]
    · rw [Answer.count_cb]
  case reads =>
    refine ⟨out, [rr'], by simp, .cons same .nil, ?_⟩
    intro more scan at_end count
    have next := read more scan at_end count
    rw [List.append_assoc] at next
    simp only [rrs2cent, List.length_singleton, next, bind, Except.bind]
    simp [Scan.after, Entry.info, Answer.sz, Nat.add_assoc]

theorem Extends.opt {ans : Answer} (usable : ans.Usable header)
    (udpsize rcode ednsver zflags : ℕ) :
    Extends header ans (add_opt_pseudo_rr ans udpsize rcode ednsver zflags)
      [.opt udpsize rcode ednsver zflags] where
  qdcount := rfl
  total := fun room => Answer.total_count { ans with
    body := ans.body ++ optBytes udpsize rcode ednsver zflags } room _
  grown := List.prefix_rfl
  usable := by
    simpa only [Answer.Usable, add_opt_pseudo_rr, Answer.count, List.append_assoc] using
      Pdnsd.Usable.append usable (optBytes udpsize rcode ednsver zflags)
  servers := by simp [Entry.server]
  reads := by
    refine ⟨optBytes udpsize rcode ednsver zflags, [], rfl, .nil, ?_⟩
    intro more scan at_end count
    simp only [rrs2cent, List.length_singleton, bind, Except.bind,
      optBytes_reads twelve _ _ _ _ _ _ scan at_end count]
    simp [Scan.after, Entry.info, add_opt_pseudo_rr, Answer.count]

/-- A record of the additional section that is for a server is added or taken back,
and the answer is of use in either case. -/
theorem add_rr_extends (udp : Option ℕ) {ans : Answer} {rr : CachedRr} (section' : Sect)
    (usable : ans.Usable header) (cacheable : Cacheable rr)
    (refers : ∀ limit, udp = some limit → section' = .additional →
      rdataFields rr.type = [.rest] ∧ ans.Names rr.oname) :
    ∃ ans' kept, add_rr udp ans rr section' = some ans' ∧ Kept udp [.rr rr section'] kept ∧
      Extends header ans ans' kept := by
  obtain ⟨out, cb, result, grown, added⟩ := Extends.rr twelve section' usable cacheable
  simp only [add_rr, result, Option.bind_eq_bind, Option.bind_some]
  by_cases large : (∃ limit ∈ udp, limit < ans.sz + out.length) ∧ section' = .additional
  · obtain ⟨⟨limit, limited, beyond⟩, additional⟩ := large
    obtain ⟨plain, ls, owner, fits, listed⟩ := refers limit limited additional
    rw [if_pos ⟨⟨limit, limited, beyond⟩, additional⟩]
    subst additional
    refine ⟨_, [], rfl, .leave rr limited .nil, .taken_back grown ?_⟩
    rw [← Answer.length_message twelve] at result listed
    exact putRr_taken_back usable owner fits plain listed result
  · rw [if_neg large]
    exact ⟨_, _, rfl, .keep _ .nil, added⟩

/-- Step by step, all that was added and not taken back is read in its order. -/
theorem add_entries_extend (udp : Option ℕ) {ans : Answer} {es : List Entry}
    (named : List (List UInt8)) (usable : ans.Usable header) (cacheable : ∀ e ∈ es, e.Cacheable)
    (names : ∀ nm ∈ named, ans.Names nm)
    (referred : ∀ limit, udp = some limit → Referred named es) :
    ∃ ans' kept, es.foldlM (add_entry udp) ans = some ans' ∧ Kept udp es kept ∧
      Extends header ans ans' kept := by
  induction es generalizing ans named with
  | nil => exact ⟨ans, [], rfl, .nil, .taken_back List.prefix_rfl usable⟩
  | cons e es ih =>
      have fits := cacheable e List.mem_cons_self
      obtain ⟨ans', kept, step, leaves, first⟩ : ∃ ans' kept, add_entry udp ans e = some ans' ∧
          Kept udp [e] kept ∧ Extends header ans ans' kept := by
        cases e with
        | opt udpsize rcode ednsver zflags =>
            exact ⟨_, _, rfl, .keep _ .nil, .opt twelve usable _ _ _ _⟩
        | rr rr section' =>
            refine add_rr_extends twelve udp section' usable fits ?_
            rintro limit limited rfl
            obtain ⟨⟨plain, mem⟩, -⟩ := referred limit limited
            exact ⟨plain, names _ mem⟩
      have names' : ∀ nm ∈ named ++ e.server.toList, ans'.Names nm := by
        intro nm mem
        rcases List.mem_append.mp mem with mem | mem
        · exact (names nm mem).mono first.longer first.grown
        · cases leaves with
          | keep e rest =>
              refine first.servers nm ?_
              rw [Option.mem_toList] at mem
              simp [mem]
          | leave r limited rest => simp [Entry.server] at mem
      obtain ⟨ans'', kept', run, leaves', second⟩ :=
        ih (named ++ e.server.toList) first.usable
          (fun e mem => cacheable e (List.mem_cons_of_mem _ mem)) names' (fun limit limited =>
            (referred limit limited).2)
      refine ⟨ans'', kept ++ kept', ?_, leaves.append leaves', first.trans second⟩
      simp only [List.foldlM_cons, step, Option.bind_eq_bind, Option.bind_some, run]

/-- The questions are read in their order. -/
theorem add_queries_read (ans : Answer) {qs : List Query} (usable : ans.Usable header)
    (fits : ∀ qe ∈ qs, qe.Fits) (room : ans.qdcount + qs.length < 65536) :
    ∃ ans' added, qs.foldlM add_query ans = some ans' ∧ ans'.body = ans.body ++ added ∧
      ans'.qdcount = ans.qdcount + qs.length ∧
      ans'.total = ans.total ∧ ans'.Usable header ∧
      ∃ qs', List.Forall₂ SameQuery qs qs' ∧ ∀ more ql,
        decodeQueries (header ++ (ans.body ++ (added ++ more))) qs.length (12 + ans.body.length)
            (added.length + more.length) ql =
          ⟨none, ql ++ qs', 12 + ans'.body.length, more.length⟩ := by
  induction qs generalizing ans with
  | nil =>
      refine ⟨ans, [], rfl, by simp, rfl, rfl, usable, [], .nil, ?_⟩
      intro more ql
      simp [decodeQueries]
  | cons qe qs ih =>
      simp only [List.length_cons] at room
      obtain ⟨ans', added, step, body, qdcount, total, usable', qe', same, read⟩ :=
        add_query_reads twelve usable (fits qe List.mem_cons_self)
      rw [increment, Nat.mod_eq_of_lt (by omega)] at qdcount
      obtain ⟨ans'', added', run, body', qdcount', total', usable'', qs', same', read'⟩ :=
        ih _ usable' (fun qe mem => fits qe (List.mem_cons_of_mem _ mem)) (by omega)
      refine ⟨ans'', added ++ added', ?_, ?_, ?_, total'.trans total, usable'',
        qe' :: qs', .cons same same', ?_⟩
      · simp only [List.foldlM_cons, step, Option.bind_eq_bind, Option.bind_some, run]
      · rw [body', body, List.append_assoc]
      · rw [qdcount', qdcount, List.length_cons]
        omega
      · intro more ql
        have first := read (added' ++ more) qs.length ql
        have then' := read' more (ql ++ [qe'])
        rw [body, List.append_assoc, ← body] at then'
        rw [List.length_append, ← Nat.add_assoc] at first
        rw [List.length_cons, List.append_assoc added, List.length_append, first, then',
          List.append_assoc, List.singleton_append]

end header

/-! ## The whole answer -/

theorem header_reads (ans : Answer) :
    getint16 ans.msg 4 = some (ans.qdcount % 65536) ∧
      getint16 ans.msg 6 = some (ans.ancount % 65536) ∧
      getint16 ans.msg 8 = some (ans.nscount % 65536) ∧
      getint16 ans.msg 10 = some (ans.arcount % 65536) := by
  have at_qdcount : ans.msg.drop 4 = putint16 ans.qdcount ++ (putint16 ans.ancount ++
      (putint16 ans.nscount ++ (putint16 ans.arcount ++ ans.body))) := by
    rw [← ans.four, Answer.msg, Answer.header, List.append_assoc, List.drop_left]
    simp only [List.append_assoc]
  have at_ancount : ans.msg.drop 6 = _ := drop_of_drop at_qdcount
  have at_nscount : ans.msg.drop 8 = _ := drop_of_drop at_ancount
  have at_arcount : ans.msg.drop 10 = _ := drop_of_drop at_nscount
  exact ⟨getint16_put at_qdcount, getint16_put at_ancount, getint16_put at_nscount,
    getint16_put at_arcount⟩

/-- One entry: without a limit nothing is taken back. With one the same is added as
long as the result is within it. -/
theorem add_entry_within {ans ans' : Answer} {e : Entry}
    (step : add_entry none ans e = some ans') :
    ans.sz ≤ ans'.sz ∧
      ∀ limit, ans'.sz ≤ limit → add_entry (some limit) ans e = some ans' := by
  cases e with
  | rr rr section' =>
      simp only [add_entry, add_rr, Option.bind_eq_bind, Option.bind_eq_some_iff] at step ⊢
      obtain ⟨⟨out, cb⟩, result, added⟩ := step
      rw [if_neg (by simp)] at added
      obtain rfl := Option.some.inj added
      have size : ({ ans with body := ans.body ++ out, cb := cb }.count section').sz =
          ans.sz + out.length := by
        cases section' <;> simp only [Answer.count, Answer.sz, List.length_append, Nat.add_assoc]
      rw [size]
      refine ⟨Nat.le_add_right _ _, fun limit within => ⟨(out, cb), result, ?_⟩⟩
      rw [if_neg]
      rintro ⟨⟨_, ⟨⟩, large⟩, -⟩
      simp only at large
      omega
  | opt udpsize rcode ednsver zflags =>
      obtain rfl := Option.some.inj step
      refine ⟨?_, fun limit _ => rfl⟩
      simp only [add_opt_pseudo_rr, Answer.count, Answer.sz, List.length_append]
      omega

theorem add_entries_within {ans ans' : Answer} {es : List Entry}
    (run : es.foldlM (add_entry none) ans = some ans') :
    ans.sz ≤ ans'.sz ∧
      ∀ limit, ans'.sz ≤ limit → es.foldlM (add_entry (some limit)) ans = some ans' := by
  induction es generalizing ans with
  | nil =>
      obtain rfl := Option.some.inj run
      exact ⟨Nat.le_refl _, fun limit _ => rfl⟩
  | cons e es ih =>
      simp only [List.foldlM_cons, Option.bind_eq_bind, Option.bind_eq_some_iff] at run ⊢
      obtain ⟨mid, step, rest⟩ := run
      have first := add_entry_within step
      have then' := ih rest
      exact ⟨first.1.trans then'.1,
        fun limit within => ⟨mid, first.2 limit (then'.1.trans within), then'.2 limit within⟩⟩

/-- What is composed, and how it is read behind any header. -/
theorem compose_written (udp : Option ℕ) {front header : List UInt8} (four : front.length = 4)
    (twelve : header.length = 12) {qs : List Query} {es : List Entry}
    (fits : ∀ qe ∈ qs, qe.Fits) (cacheable : ∀ e ∈ es, e.Cacheable)
    (few : qs.length < 65536) (few' : es.length < 65536)
    (referred : ∀ limit, udp = some limit → Referred [] es) :
    ∃ ans kept, compose udp (Answer.start front four) qs es = some ans ∧ Kept udp es kept ∧
      ans.qdcount = qs.length ∧ ans.total = kept.length ∧
      ∃ qs' cached ptr lcnt, List.Forall₂ SameQuery qs qs' ∧
        List.Forall₂ SameRr (kept.filterMap Entry.record) cached ∧
        decodeQueries (header ++ ans.body) qs.length 12 ans.body.length [] =
          ⟨none, qs', ptr, lcnt⟩ ∧
        rrs2cent (header ++ ans.body) kept.length ⟨ptr, lcnt, [], 0, none⟩ =
          .ok ⟨12 + ans.body.length, 0, cached, (kept.filterMap (Entry.info header)).length,
            (kept.filterMap (Entry.info header)).head?⟩ := by
  obtain ⟨asked, added, run, body, qdcount, total, usable, qs', same, read⟩ :=
    add_queries_read twelve (Answer.start front four) (.nil _) fits
      (by rw [Answer.start, Nat.zero_add]; exact few)
  have fresh : (Answer.start front four).total = 0 := rfl
  rw [fresh] at total
  obtain ⟨ans, kept, run', leaves, answered⟩ := add_entries_extend twelve udp [] usable cacheable
    (fun nm none => absurd none List.not_mem_nil) referred
  have fewer := leaves.length
  obtain ⟨added', cached, body', same', read'⟩ := answered.reads
  have whole : ans.body = added ++ added' := by
    rw [body', body]
    rfl
  have questions := read added' []
  have records := read' [] ⟨12 + asked.body.length, added'.length, [], 0, none⟩ rfl rfl
  simp only [Answer.start, List.length_nil, Nat.add_zero, List.nil_append] at questions
  simp only [List.append_nil, ← body', Scan.after, List.nil_append, Nat.zero_add, if_true,
    List.length_nil, Option.or_none] at records
  refine ⟨ans, kept, ?_, leaves, ?_, ?_, qs', cached, _, _, same, same', ?_, records⟩
  · simp only [compose, run, Option.bind_eq_bind, Option.bind_some, run']
  · rw [answered.qdcount, qdcount]
    exact Nat.zero_add _
  · rw [answered.total (by omega), total, Nat.zero_add]
  · rw [whole, List.length_append, questions]

/-- An answer is read as it was composed: the questions, the records that were not taken
back and what the first OPT record says, in their order and up to the case of the letters
of names, with nothing left behind the last of them. Whatever is within the limit of its
transport is composed as if there were none. -/
theorem compose_read (udp : Option ℕ) (front : List UInt8) (four : front.length = 4)
    (qs : List Query) (es : List Entry) (fits : ∀ qe ∈ qs, qe.Fits)
    (cacheable : ∀ e ∈ es, e.Cacheable) (few : qs.length < 65536) (few' : es.length < 65536)
    (referred : ∀ limit, udp = some limit → Referred [] es) :
    ∃ ans kept, compose udp (Answer.start front four) qs es = some ans ∧ Kept udp es kept ∧
      (∀ whole, compose none (Answer.start front four) qs es = some whole →
        ∀ limit, udp = some limit → whole.sz ≤ limit → ans = whole) ∧
      getint16 ans.msg 6 = some ans.ancount ∧ getint16 ans.msg 8 = some ans.nscount ∧
      getint16 ans.msg 10 = some ans.arcount ∧
      ∃ qs' cached ptr lcnt, List.Forall₂ SameQuery qs qs' ∧
        List.Forall₂ SameRr (kept.filterMap Entry.record) cached ∧
        decode_query ans.msg = ⟨none, qs', ptr, lcnt⟩ ∧
        rrs2cent ans.msg (ans.ancount + ans.nscount + ans.arcount) ⟨ptr, lcnt, [], 0, none⟩ =
          .ok ⟨ans.msg.length, 0, cached, (kept.filterMap (Entry.info ans.header)).length,
            (kept.filterMap (Entry.info ans.header)).head?⟩ := by
  -- what is composed does not depend on the header, which is only known at the end
  have blank : (List.replicate 12 (0 : UInt8)).length = 12 := rfl
  obtain ⟨ans, -, composed, -⟩ :=
    compose_written udp four blank fits cacheable few few' referred
  obtain ⟨ans', kept, composed', leaves, qdcount, total, qs', cached, ptr, lcnt, same, same',
    questions, records⟩ :=
    compose_written udp four ans.length_header fits cacheable few few' referred
  obtain rfl := Option.some.inj (composed.symm.trans composed')
  obtain ⟨asked, answered, authority, additional⟩ := header_reads ans
  have counts : ans.ancount + ans.nscount + ans.arcount = kept.length := total
  have size : ans.msg.length = 12 + ans.body.length := by
    rw [Answer.msg, List.length_append, ans.length_header]
  have fewer := leaves.length
  rw [Nat.mod_eq_of_lt (by omega)] at asked answered authority additional
  refine ⟨ans, kept, composed, leaves, ?_, answered, authority, additional, qs', cached, ptr, lcnt,
    same, same', ?_, ?_⟩
  · rintro whole plain limit rfl within
    simp only [compose, Option.bind_eq_bind, Option.bind_eq_some_iff] at plain composed
    obtain ⟨before, run, run'⟩ := plain
    obtain ⟨before', again, again'⟩ := composed
    obtain rfl := Option.some.inj (run.symm.trans again)
    exact Option.some.inj (again'.symm.trans ((add_entries_within run').2 limit within))
  · rw [decode_query, asked]
    simp only [size, Nat.add_sub_cancel_left, qdcount]
    exact questions
  · rw [counts, size]
    exact records

/-- The names `ex.c` and `ns.ex.c`. -/
def exampleZone : List Label := [⟨[101, 120], by decide, by decide⟩, ⟨[99], by decide, by decide⟩]

def exampleServer : List Label := ⟨[110, 115], by decide, by decide⟩ :: exampleZone

/-- The server of a zone and two of its addresses. The answer has room for one of them. -/
def exampleEntries : List Entry :=
  [.rr ⟨encode exampleZone, T_NS, 60, encode exampleServer⟩ .authority, .opt 1024 0 0 0,
    .rr ⟨encode exampleServer, T_A, 60, [10, 0, 0, 1]⟩ .additional,
    .rr ⟨encode exampleServer, T_AAAA, 60, List.replicate 16 0⟩ .additional]

theorem compose_read_limited :
    ∃ ans kept qs' cached ptr lcnt,
      compose (some 80) (Answer.start [0, 0, 0x80, 0] rfl) [⟨encode exampleZone, T_A, C_IN⟩]
          exampleEntries = some ans ∧
        Kept (some 80) exampleEntries kept ∧
        List.Forall₂ SameRr (kept.filterMap Entry.record) cached ∧
        decode_query ans.msg = ⟨none, qs', ptr, lcnt⟩ ∧
        rrs2cent ans.msg (ans.ancount + ans.nscount + ans.arcount) ⟨ptr, lcnt, [], 0, none⟩ =
          .ok ⟨ans.msg.length, 0, cached, (kept.filterMap (Entry.info ans.header)).length,
            (kept.filterMap (Entry.info ans.header)).head?⟩ := by
  have zone : IsName (encode exampleZone) := ⟨exampleZone, rfl, by decide⟩
  have server : IsName (encode exampleServer) := ⟨exampleServer, rfl, by decide⟩
  have fits : ∀ qe ∈ [(⟨encode exampleZone, T_A, C_IN⟩ : Query)], qe.Fits := by
    intro qe mem
    rw [List.mem_singleton.mp mem]
    exact ⟨zone, by decide, by decide⟩
  have names : Valid T_NS (encode exampleServer) :=
    ⟨[.name exampleServer], .cons (show _ ≤ DNSNAMEBUFSIZE by decide) .nil, by simp [Piece.bytes],
      by simp⟩
  have cacheable : ∀ e ∈ exampleEntries, e.Cacheable := by
    simp only [exampleEntries, List.forall_mem_cons]
    exact ⟨⟨⟨zone, by decide, names⟩, by decide, by decide⟩, trivial,
      ⟨⟨server, by decide, show _ = 4 from rfl⟩, by decide, by decide⟩,
      ⟨⟨server, by decide, show _ = 16 from rfl⟩, by decide, by decide⟩, by simp⟩
  have referred : Referred [] exampleEntries :=
    ⟨trivial, trivial, ⟨by decide, by decide⟩, ⟨by decide, by decide⟩, trivial⟩
  obtain ⟨ans, kept, composed, leaves, -, -, -, -, qs', cached, ptr, lcnt, -, same, questions,
    records⟩ := compose_read (some 80) [0, 0, 0x80, 0] rfl _ _ fits cacheable (by decide)
    (by decide) (fun _ _ => referred)
  exact ⟨ans, kept, qs', cached, ptr, lcnt, composed, leaves, same, questions, records⟩

end Orbot.Pdnsd
