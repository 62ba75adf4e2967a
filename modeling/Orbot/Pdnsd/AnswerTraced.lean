import Orbot.Lib.Loop
import Orbot.Pdnsd.CacheAnswer

/-! # What an answer from the cache consists of

Every call that is made for an answer adds a record that the cache gave, so that the
answer can be composed and is read again, however the cache changes between the calls.
-/

namespace Orbot.Pdnsd

open Lib.Loop

/-- What the cache gave at some call. -/
def Setting.Gives (g : Setting) (cent : Cent) : Prop :=
  ∃ t nm, (∃ qtype, (g.world t).dns_cached_resolve nm qtype = .found cent) ∨
    (g.world t).lookup_cache nm = some cent

/-- The data of a record and its ttl are those of a record that the cache gave. -/
def Setting.Holds (g : Setting) (rr : CachedRr) : Prop :=
  ∃ cent rrset, g.Gives cent ∧ getrrset cent rr.type = some rrset ∧ rr.data ∈ rrset.rrs ∧
    rr.ttl = uint32 (ans_ttl rrset g.queryts)

/-- The names of servers in the entries so far. -/
def named (es : List Entry) : List (List UInt8) := es.filterMap Entry.server

theorem named_mono {es es' : List Entry} (grown : es <+: es') : named es ⊆ named es' := by
  obtain ⟨more, rfl⟩ := grown
  rw [named, named, List.filterMap_append]
  exact List.subset_append_left _ _

theorem referred_concat {before : List (List UInt8)} {es : List Entry} {e : Entry} :
    Referred before (es ++ [e]) ↔ Referred before es ∧ e.Refers (before ++ named es) := by
  induction es generalizing before with
  | nil => simp [Referred, named]
  | cons e' es ih =>
      have first : named (e' :: es) = e'.server.toList ++ named es := by
        rw [named, List.filterMap_cons]
        cases e'.server <;> rfl
      simp only [List.cons_append, Referred, ih, first, List.append_assoc, and_assoc]

/-- The name of a server in data that can be written is a name. -/
theorem isName_of_server {rr : CachedRr} {nm : List UInt8} (cacheable : Cacheable rr)
    (server : serverName rr = some nm) : IsName nm := by
  rw [serverName, Option.map_eq_some_iff] at server
  obtain ⟨off, offset, rfl⟩ := server
  have valid := cacheable.data
  have listed : NamesListed 0x4000 [] rr.type rr.data := by
    intro fs fields
    unfold Valid at valid
    rw [fields] at valid
    obtain ⟨ps, fits, spelled, -⟩ := valid
    exact ⟨ps, fits, spelled, fun ls _ => .inl (by decide)⟩
  obtain ⟨ls, spelled, fits, -⟩ := names_of_listed listed offset
  exact ⟨ls, spelled, fits⟩

theorem isName_of_entry {e : Entry} {nm : List UInt8} (cacheable : e.Cacheable)
    (server : e.server = some nm) : IsName nm := by
  cases e with
  | rr rr sect =>
      cases sect with
      | answer | authority => exact isName_of_server cacheable server
      | additional => cases server
  | opt udpsize rcode ednsver zflags => cases server

/-- The calls that were made so far: all of them with records of the cache, and those
for the additional section for servers. What is still to be added is of that kind. -/
structure Traced (g : Setting) (asked : Answer) (st : Answering) (es : List Entry) : Prop where
  run : es.foldlM (add_entry g.udp) asked = some st.ans
  cacheable : ∀ e ∈ es, e.Cacheable
  held : ∀ rr ∈ es.filterMap Entry.record, g.Holds rr
  referred : Referred [] es
  sva : ∀ s ∈ st.sva, s.tp = T_NS ∨ s.tp = T_SOA →
    ∃ rr, rr.type = s.tp ∧ rr.data = s.data ∧
      (.rr rr .answer ∈ es ∨ .rr rr .authority ∈ es)
  servers : ∀ rre ∈ st.ar, rre.tp = RRETP_ADD → rre.tnm ∈ named es
  pending : ∀ rre ∈ st.ar, rre.tp = T_NS ∨ rre.tp = T_SOA →
    Cacheable ⟨rre.nm, rre.tp, rre.ttl, rre.tnm⟩ ∧ g.Holds ⟨rre.nm, rre.tp, rre.ttl, rre.tnm⟩

section traced
variable {g : Setting} {asked : Answer} {st : Answering} {es : List Entry}

/-- Only the answer and the two lists matter. -/
theorem Traced.congr {st' : Answering} (traced : Traced g asked st es) (ans : st'.ans = st.ans)
    (sva : st'.sva = st.sva) (ar : st'.ar = st.ar) : Traced g asked st' es where
  run := by rw [ans, traced.run]
  cacheable := traced.cacheable
  held := traced.held
  referred := traced.referred
  sva := by rw [sva]; exact traced.sva
  servers := by rw [ar]; exact traced.servers
  pending := by rw [ar]; exact traced.pending

theorem Traced.mark (traced : Traced g asked st es) {s : Sva}
    (added : s.tp = T_NS ∨ s.tp = T_SOA → ∃ rr, rr.type = s.tp ∧ rr.data = s.data ∧
      (.rr rr .answer ∈ es ∨ .rr rr .authority ∈ es)) :
    Traced g asked { st with sva := st.sva ++ [s] } es where
  run := traced.run
  cacheable := traced.cacheable
  held := traced.held
  referred := traced.referred
  sva := by
    intro s' mem
    rcases List.mem_append.mp mem with mem | mem
    · exact traced.sva s' mem
    · rw [List.mem_singleton.mp mem]
      exact added
  servers := traced.servers
  pending := traced.pending

theorem Traced.later (traced : Traced g asked st es) {more : List RrExt}
    (servers : ∀ rre ∈ more, rre.tp = RRETP_ADD → rre.tnm ∈ named es)
    (pending : ∀ rre ∈ more, rre.tp = T_NS ∨ rre.tp = T_SOA →
      Cacheable ⟨rre.nm, rre.tp, rre.ttl, rre.tnm⟩ ∧
        g.Holds ⟨rre.nm, rre.tp, rre.ttl, rre.tnm⟩) :
    Traced g asked { st with ar := st.ar ++ more } es where
  run := traced.run
  cacheable := traced.cacheable
  held := traced.held
  referred := traced.referred
  sva := traced.sva
  servers := by
    intro rre mem
    exact (List.mem_append.mp mem).elim (traced.servers rre) (servers rre)
  pending := by
    intro rre mem
    exact (List.mem_append.mp mem).elim (traced.pending rre) (pending rre)

/-- One more call has a result, and is one of those that are traced. -/
theorem Traced.add (usable : Answer.Usable (List.replicate 12 0) asked)
    (traced : Traced g asked st es) {e : Entry} (cacheable : e.Cacheable)
    (held : ∀ rr, e.record = some rr → g.Holds rr) (refers : e.Refers (named es)) :
    ∃ ans, add_entry g.udp st.ans e = some ans ∧
      Traced g asked { st with ans := ans } (es ++ [e]) := by
  have blank : (List.replicate 12 (0 : UInt8)).length = 12 := rfl
  have cacheable' : ∀ e' ∈ es ++ [e], e'.Cacheable := by
    intro e' mem
    rcases List.mem_append.mp mem with mem | mem
    · exact traced.cacheable e' mem
    · rw [List.mem_singleton.mp mem]
      exact cacheable
  have referred : Referred [] (es ++ [e]) := referred_concat.mpr ⟨traced.referred, refers⟩
  obtain ⟨ans, kept, run, -, -⟩ := add_entries_extend blank g.udp [] usable cacheable'
    (fun nm none => absurd none List.not_mem_nil) (fun _ _ => referred)
  have step : add_entry g.udp st.ans e = some ans := by
    simpa [List.foldlM_append, traced.run] using run
  have grown : es <+: es ++ [e] := List.prefix_append _ _
  refine ⟨ans, step, ⟨run, cacheable', ?_, referred, ?_, ?_, traced.pending⟩⟩
  · intro rr mem
    rw [List.filterMap_append, List.mem_append] at mem
    rcases mem with mem | mem
    · exact traced.held rr mem
    · exact held rr (by simpa using mem)
  · intro s mem type
    obtain ⟨rr, type, data, added⟩ := traced.sva s mem type
    exact ⟨rr, type, data, added.imp (grown.subset ·) (grown.subset ·)⟩
  · intro rre mem type
    exact named_mono grown (traced.servers rre mem type)

/-- A record of the answer or the authority section. -/
theorem Traced.addRr (usable : Answer.Usable (List.replicate 12 0) asked)
    (traced : Traced g asked st es) {rr : CachedRr} (sect : Sect) (plain : sect ≠ .additional)
    (cacheable : Cacheable rr) (held : g.Holds rr) :
    ∃ ans, add_rr g.udp st.ans rr sect = some ans ∧
      Traced g asked { st with ans := ans } (es ++ [.rr rr sect]) := by
  refine traced.add usable (e := .rr rr sect) cacheable ?_ ?_
  · intro rr' record
    obtain rfl := Option.some.inj record
    exact held
  · cases sect with
    | answer | authority => trivial
    | additional => exact absurd rfl plain

theorem mem_inOrder {rrs : List (List UInt8)} {data : List UInt8}
    (mem : data ∈ inOrder g st rrs) : data ∈ rrs := by
  unfold inOrder at mem
  split_ifs at mem with random
  · exact List.mem_rotate.mp mem
  · exact mem

end traced

/-! ## What each part adds -/

section parts
variable {g : Setting} {asked : Answer}

/-- A state with some trace, in which the given names of servers are known. -/
def Serving (g : Setting) (asked : Answer) (nms : List (List UInt8)) (st : Answering) : Prop :=
  ∃ es, Traced g asked st es ∧ nms ⊆ named es

theorem Traced.serving {nms : List (List UInt8)} {st : Answering} {es es' : List Entry}
    (traced : Traced g asked st es') (known : nms ⊆ named es) (grown : es <+: es') :
    Serving g asked nms st :=
  ⟨es', traced, List.Subset.trans known (named_mono grown)⟩

theorem Serving.congr {nms : List (List UInt8)} {st st' : Answering}
    (serving : Serving g asked nms st) (ans : st'.ans = st.ans) (sva : st'.sva = st.sva)
    (ar : st'.ar = st.ar) : Serving g asked nms st' := by
  obtain ⟨es, traced, known⟩ := serving
  exact ⟨es, traced.congr ans sva ar, known⟩

theorem positiveSet_some {found : Option Cent} {tp : ℕ} {cent : Cent} {rrset : RrSet}
    (positive : positiveSet found tp = some (cent, rrset)) :
    found = some cent ∧ getrrset cent tp = some rrset := by
  unfold positiveSet at positive
  split at positive
  next => cases positive
  next cent' =>
    split at positive
    next => cases positive
    next rrset' has =>
      split_ifs at positive
      cases positive
      exact ⟨rfl, has⟩

theorem zoneOf_encode (ls : List Label) (scnt tcnt : ℕ) :
    ∃ zone, zoneOf (encode ls) scnt tcnt = some zone := by
  unfold zoneOf
  split_ifs
  · exact ⟨_, skipsegs_encode ls _⟩
  · exact ⟨_, rfl⟩

theorem authoritySet_goes (sound : ∀ cent, g.Gives cent → cent.Sound) {cached : Cent}
    (gives : g.Gives cached) (rretp : ℕ) (st : Answering) :
    ∃ found st', authoritySet g cached rretp st = some (found, st') ∧ st'.ans = st.ans ∧
      st'.sva = st.sva ∧ st'.ar = st.ar ∧ ∀ cent rrset, found = some (cent, rrset) →
        g.Gives cent ∧ getrrset cent rretp = some rrset := by
  obtain ⟨ls, spelled, -⟩ := (sound _ gives).qname
  obtain ⟨zone, zoned⟩ :=
    zoneOf_encode ls ls.length (if rretp = T_NS then cached.c_ns else cached.c_soa)
  unfold authoritySet
  split
  next found own =>
    refine ⟨_, _, rfl, rfl, rfl, rfl, ?_⟩
    rintro cent rrset same
    obtain rfl := Option.some.inj same
    obtain ⟨same, has⟩ := positiveSet_some own
    exact ⟨Option.some.inj same ▸ gives, has⟩
  next =>
    simp only [spelled, rhnsegcnt_encode, zoned, Option.bind_eq_bind, Option.bind_some]
    split
    next found higher =>
      refine ⟨_, _, rfl, rfl, rfl, rfl, ?_⟩
      rintro cent rrset same
      obtain rfl := Option.some.inj same
      obtain ⟨looked, has⟩ := positiveSet_some higher
      exact ⟨⟨_, _, .inr looked⟩, has⟩
    next =>
      split_ifs
      · split
        next => exact ⟨_, _, rfl, rfl, rfl, rfl, by simp⟩
        next nm owned =>
          split
          next => exact ⟨_, _, rfl, rfl, rfl, rfl, by simp⟩
          next owner looked =>
            refine ⟨_, _, rfl, rfl, rfl, rfl, ?_⟩
            rintro cent rrset same
            obtain ⟨rrset', has, same⟩ := Option.map_eq_some_iff.mp same
            cases same
            exact ⟨⟨_, _, .inr looked⟩, has⟩
      · exact ⟨_, _, rfl, rfl, rfl, rfl, by simp⟩

theorem addAuthority_goes (sound : ∀ cent, g.Gives cent → cent.Sound) {cached : Cent}
    (gives : g.Gives cached) (qtype : ℕ)
    {nms : List (List UInt8)} {st : Answering} (serving : Serving g asked nms st) :
    ∃ st', addAuthority g cached qtype st = some st' ∧ Serving g asked nms st' := by
  obtain ⟨rretp, type, isZone⟩ : ∃ rretp,
      (if noneOfType cached qtype then T_SOA else T_NS) = rretp ∧ rretp ≠ RRETP_ADD := by
    refine ⟨_, rfl, ?_⟩
    split_ifs <;> decide
  obtain ⟨found, st₁, gave, ans, sva, ar, from_cache⟩ := authoritySet_goes sound gives rretp st
  obtain ⟨es, traced, known⟩ := serving.congr ans sva ar
  simp only [addAuthority, type, gave, Option.bind_eq_bind, Option.bind_some]
  split
  next => exact ⟨_, rfl, es, traced, known⟩
  next cent rrset =>
    obtain ⟨given, has⟩ := from_cache cent rrset rfl
    refine ⟨_, rfl, es, traced.later ?_ ?_, known⟩
    · intro rre mem add
      obtain ⟨data, -, rfl⟩ := List.mem_map.mp mem
      exact absurd add isZone
    · intro rre mem _
      obtain ⟨data, inside, rfl⟩ := List.mem_map.mp mem
      exact ⟨(sound _ given).cacheable has inside (sound _ given).qname _,
        cent, rrset, given, has, inside, rfl⟩

section usable
variable (usable : Answer.Usable (List.replicate 12 0) asked)
include usable

theorem addRrsetRr_goes {rrn data : List UInt8} {tp ttl : ℕ} {nms : List (List UInt8)}
    {st : Answering} (serving : Serving g asked nms st) (cacheable : Cacheable ⟨rrn, tp, ttl, data⟩)
    (held : g.Holds ⟨rrn, tp, ttl, data⟩) :
    ∃ st', addRrsetRr g rrn tp ttl st data = some st' ∧ Serving g asked nms st' := by
  obtain ⟨es, traced, known⟩ := serving
  obtain ⟨ans, added, traced'⟩ :=
    traced.addRr usable .answer (by simp) cacheable held
  have inside : Entry.rr ⟨rrn, tp, ttl, data⟩ .answer ∈ es ++ [.rr ⟨rrn, tp, ttl, data⟩ .answer] :=
    List.mem_append_right _ (List.mem_singleton_self _)
  have marked := traced'.mark (s := ⟨tp, rrn, data⟩)
    (fun _ => ⟨⟨rrn, tp, ttl, data⟩, rfl, rfl, .inl inside⟩)
  simp only [addRrsetRr, added, Option.bind_eq_bind, Option.bind_some]
  have both : Traced g asked { st with
      ans := ans
      sva := if tp = T_NS ∨ tp = T_A ∨ tp = T_AAAA then st.sva ++ [⟨tp, rrn, data⟩] else st.sva }
      (es ++ [.rr ⟨rrn, tp, ttl, data⟩ .answer]) := by
    split_ifs
    · exact marked
    · exact traced'
  refine ⟨_, rfl, (both.later ?_ ?_).serving known (List.prefix_append _ _)⟩
  · intro rre mem _
    rw [Option.mem_toList, Option.map_eq_some_iff] at mem
    obtain ⟨off, offset, rfl⟩ := mem
    have server : Entry.server (.rr ⟨rrn, tp, ttl, data⟩ .answer) = some (data.drop off) := by
      simp [Entry.server, serverName, offset]
    exact List.mem_filterMap.mpr ⟨_, inside, server⟩
  · intro rre mem type
    rw [Option.mem_toList, Option.map_eq_some_iff] at mem
    obtain ⟨off, offset, rfl⟩ := mem
    exact absurd type (show ¬(RRETP_ADD = T_NS ∨ RRETP_ADD = T_SOA) by decide)

/-- An OPT record always can be added. -/
theorem addOpt_goes (udpsize rcode : ℕ) {nms : List (List UInt8)} {st : Answering}
    (serving : Serving g asked nms st) :
    Serving g asked nms { st with ans := add_opt_pseudo_rr st.ans udpsize rcode 0 0 } := by
  obtain ⟨es, traced, known⟩ := serving
  obtain ⟨ans, added, traced'⟩ := traced.add usable (e := .opt udpsize rcode 0 0) trivial
    (fun rr record => by cases record) trivial
  obtain rfl := Option.some.inj added
  exact traced'.serving known (List.prefix_append _ _)

/-- Behind a record of the authority section its server is named. -/
theorem addAuthorityRr_goes {rre : RrExt} {st : Answering} {es : List Entry}
    (traced : Traced g asked st es) (mem : rre ∈ st.ar) :
    ∃ st' es', addAuthorityRr g st rre = some st' ∧ Traced g asked st' es' ∧ es <+: es' ∧
      st'.ar = st.ar ∧ (rre.tp = T_NS → rre.tnm ∈ named es') := by
  have server : ∀ rr : CachedRr, rr.type = T_NS → serverName rr = some rr.data := by
    intro rr type
    have offset : arOffset rr.type = some 0 := by rw [type]; decide
    rw [serverName, offset, Option.map_some, List.drop_zero]
  unfold addAuthorityRr
  split_ifs with type
  · obtain ⟨cacheable, held⟩ := traced.pending rre mem type
    unfold add_additional_rr
    split_ifs with twice
    · refine ⟨st, es, rfl, traced, List.prefix_rfl, rfl, fun ns => ?_⟩
      obtain ⟨s, added, same, -, data⟩ := twice
      obtain ⟨rr, type', data', inside⟩ := traced.sva s added (.inl (same.trans ns))
      have name := server rr (type'.trans (same.trans ns))
      rw [data', data] at name
      exact List.mem_filterMap.mpr (inside.elim (fun inside => ⟨_, inside, name⟩)
        fun inside => ⟨_, inside, name⟩)
    · obtain ⟨ans, added, traced'⟩ := traced.addRr usable .authority (by simp)
        cacheable held
      have inside : Entry.rr ⟨rre.nm, rre.tp, rre.ttl, rre.tnm⟩ .authority ∈
          es ++ [.rr ⟨rre.nm, rre.tp, rre.ttl, rre.tnm⟩ .authority] :=
        List.mem_append_right _ (List.mem_singleton_self _)
      rw [added, Option.bind_eq_bind, Option.bind_some]
      exact ⟨_, _, rfl, traced'.mark fun _ => ⟨_, rfl, rfl, .inr inside⟩,
        List.prefix_append _ _, rfl,
        fun ns => List.mem_filterMap.mpr ⟨_, inside, server _ ns⟩⟩
  · exact ⟨st, es, rfl, traced, List.prefix_rfl, rfl, fun ns => absurd (.inl ns) type⟩

theorem addAuthorityRrs_goes {rres : List RrExt} {st : Answering} {es : List Entry}
    (traced : Traced g asked st es) (inside : rres ⊆ st.ar) :
    ∃ st' es', rres.foldlM (addAuthorityRr g) st = some st' ∧ Traced g asked st' es' ∧
      es <+: es' ∧ st'.ar = st.ar ∧ ∀ rre ∈ rres, rre.tp = T_NS → rre.tnm ∈ named es' := by
  induction rres generalizing st es with
  | nil => exact ⟨st, es, rfl, traced, List.prefix_rfl, rfl, by simp⟩
  | cons rre rres ih =>
      obtain ⟨first, rest⟩ := List.cons_subset.mp inside
      obtain ⟨st₁, es₁, step, traced₁, grown₁, ar₁, here⟩ :=
        addAuthorityRr_goes usable traced first
      obtain ⟨st₂, es₂, run, traced₂, grown₂, ar₂, there⟩ := ih traced₁ (ar₁ ▸ rest)
      refine ⟨st₂, es₂, ?_, traced₂, grown₁.trans grown₂, ar₂.trans ar₁, ?_⟩
      · rw [List.foldlM_cons, step, Option.bind_eq_bind, Option.bind_some, run]
      · intro rre' mem ns
        rcases List.mem_cons.mp mem with rfl | mem
        · exact named_mono grown₂ (here ns)
        · exact there rre' mem ns

variable (sound : ∀ cent, g.Gives cent → cent.Sound)
include sound

theorem add_rrset_goes {cached : Cent} (gives : g.Gives cached) {rrn : List UInt8}
    (owner : IsName rrn) (tp : ℕ) {nms : List (List UInt8)} {st : Answering}
    (serving : Serving g asked nms st) :
    ∃ st', add_rrset g cached rrn st tp = some st' ∧ Serving g asked nms st' := by
  unfold add_rrset
  split
  next => exact ⟨st, rfl, serving⟩
  next crrset found =>
    split_ifs
    · exact ⟨st, rfl, serving⟩
    · refine foldlM_some ?_ (serving.congr rfl rfl rfl)
      intro s data mem kept
      have mem := mem_inOrder mem
      exact addRrsetRr_goes usable kept ((sound _ gives).cacheable found mem owner _)
        ⟨cached, crrset, gives, found, mem, rfl⟩

theorem add_rrsets_goes {cached : Cent} (gives : g.Gives cached) {rrn : List UInt8}
    (owner : IsName rrn) (tps : List ℕ) {nms : List (List UInt8)} {st : Answering}
    (serving : Serving g asked nms st) :
    ∃ st', tps.foldlM (add_rrset g cached rrn) st = some st' ∧ Serving g asked nms st' :=
  foldlM_some (fun _ tp _ kept => add_rrset_goes usable sound gives owner tp kept) serving

/-- The types of queries that get as far as this. -/
def Answerable (qtype : ℕ) : Prop :=
  qtype = QT_MAILB ∨ qtype = QT_MAILA ∨ qtype = QT_ALL ∨ T_MIN ≤ qtype ∧ qtype ≤ T_MAX

theorem add_to_response_goes {cached : Cent} (gives : g.Gives cached) {rrn : List UInt8}
    (owner : IsName rrn) {qtype : ℕ} (answerable : Answerable qtype) {nms : List (List UInt8)}
    {st : Answering} (serving : Serving g asked nms st) :
    ∃ st', add_to_response g cached rrn qtype st = some st' ∧ Serving g asked nms st' := by
  obtain ⟨st₁, cnames, serving₁⟩ :
      ∃ st₁, addCname g cached rrn qtype st = some st₁ ∧ Serving g asked nms st₁ := by
    unfold addCname
    split_ifs
    · exact add_rrset_goes usable sound gives owner T_CNAME serving
    · exact ⟨st, rfl, serving⟩
  have supported : ¬(qtype = QT_AXFR ∨ qtype = QT_IXFR) := by
    simp only [Answerable, QT_MAILB, QT_MAILA, QT_ALL, QT_AXFR, QT_IXFR, T_MAX] at answerable ⊢
    omega
  rw [add_to_response, cnames, Option.bind_eq_bind, Option.bind_some, if_neg supported]
  by_cases mailb : qtype = QT_MAILB
  · rw [if_pos mailb]
    exact add_rrsets_goes usable sound gives owner _ serving₁
  rw [if_neg mailb]
  by_cases maila : qtype = QT_MAILA
  · rw [if_pos maila]
    exact add_rrsets_goes usable sound gives owner _ serving₁
  rw [if_neg maila]
  by_cases all : qtype = QT_ALL
  · rw [if_pos all]
    exact add_rrsets_goes usable sound gives owner _ serving₁
  rw [if_neg all, if_pos (((answerable.resolve_left mailb).resolve_left maila).resolve_left all)]
  exact add_rrset_goes usable sound gives owner qtype serving₁

theorem addSoa_goes (ls : List Label) (c_soa : ℕ) {nms : List (List UInt8)} {st : Answering}
    (serving : Serving g asked nms st) :
    ∃ st', addSoa g (encode ls) c_soa st = some st' ∧ Serving g asked nms st' := by
  simp only [addSoa, rhnsegcnt_encode, skipsegs_encode, Option.bind_eq_bind, Option.bind_some]
  split_ifs
  · exact ⟨st, rfl, serving⟩
  · split
    next => exact ⟨_, rfl, serving.congr rfl rfl rfl⟩
    next cached looked =>
      split
      next => exact ⟨_, rfl, serving.congr rfl rfl rfl⟩
      next rrset found =>
        split_ifs
        · exact ⟨_, rfl, serving.congr rfl rfl rfl⟩
        · have gives : g.Gives cached := ⟨_, _, .inr looked⟩
          refine foldlM_some ?_ (serving.congr rfl rfl rfl)
          rintro s data mem ⟨es, traced, known⟩
          have here := sound _ gives
          obtain ⟨ans, added, traced'⟩ := traced.addRr usable .authority (by simp)
            (here.cacheable found mem here.qname _) ⟨cached, rrset, gives, found, mem, rfl⟩
          simp only [added, Option.bind_some]
          exact ⟨_, rfl, traced'.serving known (List.prefix_append _ _)⟩
  · exact ⟨st, rfl, serving⟩

theorem answerFailed_goes {qname : List UInt8} (isName : IsName qname) (rc c_soa : ℕ)
    {nms : List (List UInt8)} {st : Answering} (serving : Serving g asked nms st) :
    ∃ st' rc', answerFailed g qname rc c_soa st = some (st', rc') ∧ Serving g asked nms st' := by
  obtain ⟨ls, rfl, -⟩ := isName
  unfold answerFailed
  by_cases unknown : rc = RC_NAMEERR
  · rw [if_pos unknown]
    obtain ⟨st₁, added, serving₁⟩ := addSoa_goes usable sound ls c_soa serving
    rw [added, Option.bind_eq_bind, Option.bind_some]
    refine ⟨_, _, rfl, ?_⟩
    split_ifs
    · exact addOpt_goes usable _ _ serving₁
    · exact serving₁
  · rw [if_neg unknown]
    exact ⟨_, _, rfl, serving⟩

theorem answerRound_goes {qtype : ℕ} (answerable : Answerable qtype)
    {more : List UInt8 → Answering → Option (Answering × ℕ)} {nms : List (List UInt8)}
    (goes : ∀ qname st, IsName qname → Serving g asked nms st →
      ∃ st' rc, more qname st = some (st', rc) ∧ Serving g asked nms st')
    {qname : List UInt8} (isName : IsName qname) {st : Answering}
    (serving : Serving g asked nms st) :
    ∃ st' rc, answerRound g qtype more qname st = some (st', rc) ∧ Serving g asked nms st' := by
  unfold answerRound
  split
  next rc not_ok c_soa failed =>
    exact answerFailed_goes usable sound isName rc c_soa (serving.congr rfl rfl rfl)
  next cached found =>
    have gives : g.Gives cached := ⟨_, _, .inl ⟨_, found⟩⟩
    have noted : Serving g asked nms { st.called with aa := st.aa && cached.locally } :=
      serving.congr rfl rfl rfl
    obtain ⟨st₁, added, serving₁⟩ :=
      add_to_response_goes usable sound gives isName answerable noted
    rw [added, Option.bind_eq_bind, Option.bind_some]
    split
    next name follows =>
      unfold followsCname at follows
      split_ifs at follows
      exact goes name st₁ (isName_of_follow (sound _ gives) follows) serving₁
    next =>
      obtain ⟨st₂, later, serving₂⟩ := addAuthority_goes sound gives qtype serving₁
      rw [later]
      exact ⟨_, _, rfl, serving₂⟩

/-- However the chain of aliases goes on, the rounds for a question have a result. -/
theorem answerQuery_goes {qtype : ℕ} (answerable : Answerable qtype) (hops : ℕ)
    {qname : List UInt8} (isName : IsName qname) {nms : List (List UInt8)} {st : Answering}
    (serving : Serving g asked nms st) :
    ∃ st' rc, answerQuery g qtype hops qname st = some (st', rc) ∧ Serving g asked nms st' := by
  induction hops generalizing qname st with
  | zero =>
      exact answerRound_goes usable sound answerable
        (fun _ st _ serving => ⟨st, RC_OK, rfl, serving⟩) isName serving
  | succ hops ih =>
      exact answerRound_goes usable sound answerable
        (fun _ _ isName serving => ih isName serving) isName serving

theorem answerQueries_goes {ql : List Query} (fits : ∀ qe ∈ ql, qe.Fits)
    (answerable : ∀ qe ∈ ql, Answerable qe.qtype) {nms : List (List UInt8)} {st : Answering}
    (serving : Serving g asked nms st) :
    ∃ st' rc, answerQueries g ql st = some (st', rc) ∧ Serving g asked nms st' := by
  induction ql generalizing st with
  | nil => exact ⟨st, RC_OK, rfl, serving⟩
  | cons qe ql ih =>
      obtain ⟨st₁, rc, first, serving₁⟩ := answerQuery_goes usable sound
        (answerable qe List.mem_cons_self) MAX_HOPS (fits qe List.mem_cons_self).query serving
      simp only [answerQueries, first, Option.bind_eq_bind, Option.bind_some]
      split_ifs
      · exact ⟨_, _, rfl, serving₁⟩
      · exact ih (fun qe mem => fits qe (List.mem_cons_of_mem _ mem))
          (fun qe mem => answerable qe (List.mem_cons_of_mem _ mem)) serving₁

/-- An address of a server that was named. -/
theorem add_additional_rrs_goes {ae : Cent} (gives : g.Gives ae) {rhn : List UInt8} {tp : ℕ}
    (address : tp = T_A ∨ tp = T_AAAA) {nms : List (List UInt8)} (known : rhn ∈ nms)
    {st : Answering} (serving : Serving g asked nms st) :
    ∃ st', add_additional_rrs g ae rhn st tp = some st' ∧ Serving g asked nms st' := by
  have data_only : rdataFields tp = [.rest] := by rcases address with rfl | rfl <;> decide
  have no_zone : ¬(tp = T_NS ∨ tp = T_SOA) := by rcases address with rfl | rfl <;> decide
  unfold add_additional_rrs
  split
  next => exact ⟨st, rfl, serving⟩
  next rrset found =>
    split_ifs
    · exact ⟨st, rfl, serving⟩
    · refine foldlM_some ?_ (serving.congr rfl rfl rfl)
      rintro s data mem ⟨es, traced, named⟩
      have mem := mem_inOrder mem
      unfold add_additional_rr
      split_ifs
      · exact ⟨s, rfl, es, traced, named⟩
      · have server := named known
        obtain ⟨e, inside, name⟩ := List.mem_filterMap.mp server
        have owner : IsName rhn := isName_of_entry (traced.cacheable e inside) name
        obtain ⟨ans, added, traced'⟩ := traced.add usable
          (e := .rr ⟨rhn, tp, uint32 (ans_ttl rrset g.queryts), data⟩ .additional)
          ((sound _ gives).cacheable found mem owner _)
          (fun rr record => Option.some.inj record ▸ ⟨ae, rrset, gives, found, mem, rfl⟩)
          ⟨data_only, server⟩
        rw [add_entry] at added
        rw [added, Option.bind_eq_bind, Option.bind_some]
        have marked := traced'.mark (s := ⟨tp, rhn, data⟩) fun zone => absurd zone no_zone
        exact ⟨_, rfl, marked.serving named (List.prefix_append _ _)⟩

theorem add_additional_a_goes {rhn : List UInt8} {nms : List (List UInt8)} (known : rhn ∈ nms)
    {st : Answering} (serving : Serving g asked nms st) :
    ∃ st', add_additional_a g rhn st = some st' ∧ Serving g asked nms st' := by
  unfold add_additional_a
  split
  next => exact ⟨_, rfl, serving.congr rfl rfl rfl⟩
  next ae looked =>
    have gives : g.Gives ae := ⟨_, _, .inr looked⟩
    refine foldlM_some ?_ (serving.congr rfl rfl rfl)
    intro s tp mem kept
    exact add_additional_rrs_goes usable sound gives (by simpa using mem) known kept

theorem addAdditional_goes {nms : List (List UInt8)} {st : Answering}
    (servers : ∀ rre ∈ st.ar, rre.tp = T_NS ∨ rre.tp = RRETP_ADD → rre.tnm ∈ nms)
    (serving : Serving g asked nms st) :
    ∃ st', addAdditional g st = some st' ∧ Serving g asked nms st' := by
  unfold addAdditional
  split_ifs with full
  · exact ⟨st, rfl, serving⟩
  all_goals
    refine foldlM_some (P := Serving g asked nms) ?_ ?_
    · intro s rre mem kept
      unfold addServerRr
      split_ifs with server
      · exact add_additional_a_goes usable sound (servers rre mem server) kept
      · exact ⟨s, rfl, kept⟩
  · exact addOpt_goes usable _ _ serving
  · exact serving

end usable

end parts

/-! ## The whole answer -/

theorem answerable_of_supported {qe : Query} (supported : unsupported qe = false) :
    Answerable qe.qtype := by
  simp only [unsupported, PDNSD_NOT_CACHED_TYPE, Bool.or_eq_false_iff, Bool.and_eq_false_iff,
    decide_eq_false_iff_not, Nat.not_lt, ne_eq, not_not] at supported
  unfold Answerable
  omega

section front
variable (first : List UInt8) (four : first.length = 4)

theorem add_query_withFront (ans : Answer) (qe : Query) :
    add_query (ans.withFront first four) qe = (add_query ans qe).map (·.withFront first four) := by
  have sz : (ans.withFront first four).sz = ans.sz := rfl
  have cb : (ans.withFront first four).cb = ans.cb := rfl
  rw [add_query, add_query, sz, cb]
  cases compress_name qe.query ans.sz ans.cb with
  | none => rfl
  | some result => rfl

theorem count_withFront (ans : Answer) (sect : Sect) :
    (ans.withFront first four).count sect = (ans.count sect).withFront first four := by
  cases sect <;> rfl

theorem add_entry_withFront (udp : Option ℕ) (ans : Answer) (e : Entry) :
    add_entry udp (ans.withFront first four) e =
      (add_entry udp ans e).map (·.withFront first four) := by
  have sz : (ans.withFront first four).sz = ans.sz := rfl
  have cb : (ans.withFront first four).cb = ans.cb := rfl
  cases e with
  | rr rr sect =>
      rw [add_entry, add_entry, add_rr, add_rr, sz, cb]
      cases putRr rr ans.sz ans.cb with
      | none => rfl
      | some result =>
          simp only [Option.bind_eq_bind, Option.bind_some]
          split_ifs
          · rfl
          · exact congrArg some (count_withFront first four
              { ans with body := ans.body ++ result.1, cb := result.2 } sect)
  | opt udpsize rcode ednsver zflags =>
      exact congrArg some (count_withFront first four
        { ans with body := ans.body ++ optBytes udpsize rcode ednsver zflags } .additional)

/-- What is composed does not depend on the header. -/
theorem compose_withFront {udp : Option ℕ} {ans ans' : Answer} {ql : List Query} {es : List Entry}
    (composed : compose udp ans ql es = some ans') :
    compose udp (ans.withFront first four) ql es = some (ans'.withFront first four) := by
  rw [compose, Option.bind_eq_bind, Option.bind_eq_some_iff] at composed
  obtain ⟨asked, asking, run⟩ := composed
  rw [compose, foldlM_commutes _ _ (add_query_withFront first four), asking, Option.bind_eq_bind,
    Option.map_some, Option.bind_some, foldlM_commutes _ _ (add_entry_withFront first four udp),
    run, Option.map_some]

end front

section whole
variable {g : Setting} (sound : ∀ cent, g.Gives cent → cent.Sound) (ql : List Query)
  {id : List UInt8} (two : id.length = 2) (fits : ∀ qe ∈ ql, qe.Fits) (few : ql.length < 65536)
include sound fits few

/-- Whatever the cache gives at each of the calls, there is an answer. -/
theorem compose_answer_traced :
    ∃ ans rc aa es, compose_answer g ql id two = some (ans, rc) ∧
      compose g.udp (Answer.start (front g id aa rc) (length_front g two aa rc)) ql es =
        some ans ∧
      (∀ e ∈ es, e.Cacheable) ∧ (∀ rr ∈ es.filterMap Entry.record, g.Holds rr) ∧
      Referred [] es := by
  have blank : (List.replicate 12 (0 : UInt8)).length = 12 := rfl
  obtain ⟨asked, -, asking, -, -, -, usable, -⟩ := add_queries_read blank
    (Answer.start (front g id false RC_OK) (length_front g two _ _)) (.nil _) fits
    (by rw [Answer.start, Nat.zero_add]; exact few)
  have done : ∀ {st : Answering}, Serving g asked [] st → ∀ aa rc, ∃ es,
      compose g.udp (Answer.start (front g id aa rc) (length_front g two aa rc)) ql es =
        some (st.ans.withFront (front g id aa rc) (length_front g two aa rc)) ∧
      (∀ e ∈ es, e.Cacheable) ∧ (∀ rr ∈ es.filterMap Entry.record, g.Holds rr) ∧
      Referred [] es := by
    rintro st ⟨es, traced, -⟩ aa rc
    have run : compose g.udp (Answer.start (front g id false RC_OK) (length_front g two _ _)) ql
        es = some st.ans := by
      rw [compose, asking]
      exact traced.run
    exact ⟨es, compose_withFront (front g id aa rc) (length_front g two aa rc) run,
      traced.cacheable, traced.held, traced.referred⟩
  have fresh : Serving g asked [] ⟨asked, [], [], true, 0⟩ :=
    ⟨[], ⟨rfl, by simp, by simp, trivial, by simp, by simp, by simp⟩, List.nil_subset _⟩
  simp only [compose_answer, asking, Option.bind_eq_bind, Option.bind_some]
  by_cases refused : ql.any unsupported = true
  · rw [if_pos refused]
    obtain ⟨es, composed⟩ := done fresh false RC_NOTSUPP
    exact ⟨_, _, false, es, rfl, composed⟩
  rw [if_neg refused]
  have answerable : ∀ qe ∈ ql, Answerable qe.qtype := fun qe mem =>
    answerable_of_supported (Bool.eq_false_iff.mpr fun un =>
      refused (List.any_eq_true.mpr ⟨qe, mem, un⟩))
  obtain ⟨st₁, rc, answered, serving₁⟩ :=
    answerQueries_goes usable sound fits answerable fresh
  rw [answered, Option.bind_some]
  by_cases failed : rc ≠ RC_OK
  · obtain ⟨es, composed⟩ := done serving₁ false rc
    exact ⟨_, rc, false, es, if_pos failed, composed⟩
  obtain ⟨es₁, traced₁, -⟩ := serving₁
  obtain ⟨st₂, es₂, authority, traced₂, -, ar, zones⟩ :=
    addAuthorityRrs_goes usable traced₁ (List.Subset.refl st₁.ar)
  have servers : ∀ rre ∈ st₂.ar, rre.tp = T_NS ∨ rre.tp = RRETP_ADD → rre.tnm ∈ named es₂ := by
    intro rre mem type
    rcases type with zone | add
    · exact zones rre (ar ▸ mem) zone
    · exact traced₂.servers rre mem add
  obtain ⟨st₃, additional, es₃, traced₃, -⟩ :=
    addAdditional_goes usable sound servers ⟨es₂, traced₂, List.Subset.refl _⟩
  obtain ⟨es, composed⟩ := done ⟨es₃, traced₃, List.nil_subset _⟩ st₃.aa RC_OK
  refine ⟨_, RC_OK, st₃.aa, es, ?_, composed⟩
  simp only [if_neg failed, authority, additional, Option.bind_some]

/-- Every query that can be decoded gets an answer, whatever the cache gives at each of
the calls. It is read with the code and with records of the cache, of which only some
addresses of servers are left out. -/
theorem compose_answer_reads :
    ∃ ans rc es, compose_answer g ql id two = some (ans, rc) ∧
      (∃ aa, compose g.udp (Answer.start (front g id aa rc) (length_front g two aa rc)) ql es =
        some ans) ∧
      (∀ rr ∈ es.filterMap Entry.record, g.Holds rr) ∧
      (es.length < 65536 → ∃ kept qs' cached ptr lcnt,
        Kept g.udp es kept ∧ List.Forall₂ SameQuery ql qs' ∧
        List.Forall₂ SameRr (kept.filterMap Entry.record) cached ∧
        decode_query ans.msg = ⟨none, qs', ptr, lcnt⟩ ∧
        rrs2cent ans.msg (ans.ancount + ans.nscount + ans.arcount) ⟨ptr, lcnt, [], 0, none⟩ =
          .ok ⟨ans.msg.length, 0, cached, (kept.filterMap (Entry.info ans.header)).length,
            (kept.filterMap (Entry.info ans.header)).head?⟩) := by
  obtain ⟨ans, rc, aa, es, answered, composed, cacheable, held, referred⟩ :=
    compose_answer_traced sound ql two fits few
  refine ⟨ans, rc, es, answered, ⟨aa, composed⟩, held, fun few' => ?_⟩
  obtain ⟨ans', kept, composed', leaves, -, -, -, -, qs', cached, ptr, lcnt, same, same',
    questions, records⟩ := compose_read g.udp _ (length_front g two aa rc) ql es fits cacheable
    few few' (fun _ _ => referred)
  obtain rfl := Option.some.inj (composed.symm.trans composed')
  exact ⟨kept, qs', cached, ptr, lcnt, leaves, same, same', questions, records⟩

end whole

/-- An address and a server of `ex.c`. The server has the same address. -/
def exampleCent : Cent where
  qname := encode exampleZone
  negative := false
  locally := false
  rrmu := [some ⟨60, 0, false, false, [[10, 0, 0, 1]]⟩,
    some ⟨60, 0, false, false, [encode exampleServer]⟩]
  rrext := none
  c_ns := cundef
  c_soa := cundef

def exampleSetting : Setting where
  world _ := ⟨fun _ _ => .found exampleCent, fun _ => some exampleCent, fun _ _ => none, 0⟩
  rnd_recs := true
  udpbufsize := 1024
  queryts := 10
  udp := some 512
  rd := true
  edns := true

theorem exampleCent_sound : exampleCent.Sound where
  qname := ⟨exampleZone, rfl, by decide⟩
  data := by
    have sets : ∀ type < T_MAX + 1, getrrset exampleCent type =
        if type = T_A then some ⟨60, 0, false, false, [[10, 0, 0, 1]]⟩
        else if type = T_NS then some ⟨60, 0, false, false, [encode exampleServer]⟩
        else none := by decide
    intro type rrset found data mem
    have small : type < T_MAX + 1 := by
      have cached := cached_of_getrrset found
      simp only [PDNSD_NOT_CACHED_TYPE, Bool.or_eq_false_iff, decide_eq_false_iff_not] at cached
      omega
    rw [sets type small] at found
    split_ifs at found with a ns
    · cases found
      rw [a, List.mem_singleton.mp mem]
      exact ⟨show _ = 4 from rfl, by decide⟩
    · cases found
      rw [ns, List.mem_singleton.mp mem]
      exact ⟨⟨[.name exampleServer], .cons (show _ ≤ DNSNAMEBUFSIZE by decide) .nil,
        by simp [Piece.bytes], by simp⟩, by decide⟩

theorem exampleSetting_gives {cent : Cent} (gives : exampleSetting.Gives cent) :
    cent = exampleCent := by
  obtain ⟨t, nm, ⟨qtype, found⟩ | looked⟩ := gives
  · cases found
    rfl
  · cases looked
    rfl

theorem compose_answer_reads_example :
    ∃ ans rc es, compose_answer exampleSetting [⟨encode exampleZone, T_A, C_IN⟩] [0, 7] rfl =
        some (ans, rc) ∧
      (∃ aa, compose (some 512) (Answer.start (front exampleSetting [0, 7] aa rc)
        (length_front exampleSetting rfl aa rc)) [⟨encode exampleZone, T_A, C_IN⟩] es = some ans) ∧
      ∀ rr ∈ es.filterMap Entry.record, exampleSetting.Holds rr := by
  have two : [(0 : UInt8), 7].length = 2 := rfl
  have sound : ∀ cent, exampleSetting.Gives cent → cent.Sound :=
    fun cent gives => exampleSetting_gives gives ▸ exampleCent_sound
  have fits : ∀ qe ∈ [(⟨encode exampleZone, T_A, C_IN⟩ : Query)], qe.Fits := by
    intro qe mem
    rw [List.mem_singleton.mp mem]
    exact ⟨⟨exampleZone, rfl, by decide⟩, by decide, by decide⟩
  obtain ⟨ans, rc, es, answered, composed, held, -⟩ :=
    compose_answer_reads sound [⟨encode exampleZone, T_A, C_IN⟩] two fits (by decide)
  exact ⟨ans, rc, es, answered, composed, held⟩

end Orbot.Pdnsd
