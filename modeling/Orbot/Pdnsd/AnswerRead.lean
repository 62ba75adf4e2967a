import Orbot.Pdnsd.Accepted
import Orbot.Pdnsd.AddRr

/-! # An answer is read as it was assembled

What `add_rr` writes for a record is what `rrs2cent` hands to the cache for it, up
to the case of the letters of names. The two switches go over the same fields, and
a name is read wherever its parts stand.
-/

namespace Orbot.Pdnsd

/-- The switches agree on a type: what one of them reads as fields the other
writes as the same fields, and everything else is written as it is. -/
def Treatment.agrees (fs : List Field) : Treatment → Bool
  | .fields fs' => fs == fs'
  | .exactly _ | .gateway | .nameAfter _ | .asIs => fs == [.rest]

theorem treatment_agrees {type : ℕ} (known : type ≤ T_MAX) :
    (treatment type).agrees (rdataFields type) = true := by
  have all : ∀ type < T_MAX + 1, (treatment type).agrees (rdataFields type) = true := by decide
  exact all type (Nat.lt_succ_of_le known)

theorem le_of_cached {type : ℕ} (cached : PDNSD_NOT_CACHED_TYPE type = false) : type ≤ T_MAX := by
  simp only [PDNSD_NOT_CACHED_TYPE, Bool.or_eq_false_iff, decide_eq_false_iff_not] at cached
  exact Nat.le_of_not_lt cached.1.2

/-! ## Fields -/

theorem readOctets_at (msg l more : List UInt8) :
    readOctets (msg ++ (l ++ more)) msg.length l.length = .ok l := by
  rw [readOctets, if_pos (by simp only [List.length_append]; omega), List.drop_left,
    List.take_left]

theorem textsLength_strings {msg rest : List UInt8} {bptr blcnt len : ℕ} {ss : List (List UInt8)}
    (here : msg.drop (bptr + len) = strings ss ++ rest) (short : ∀ s ∈ ss, s.length ≤ 255)
    (inside : len + (strings ss).length ≤ blcnt) :
    textsLength msg bptr blcnt ss.length len = .ok (len + (strings ss).length) := by
  induction ss generalizing len with
  | nil =>
      simp only [strings, List.flatMap_nil, List.length_nil, Nat.add_zero] at inside ⊢
      rw [textsLength, if_neg (Nat.not_lt.mpr inside)]
  | cons s ss ih =>
      rw [strings_cons, List.append_assoc] at here
      have next := drop_of_drop here
      rw [strings_cons, List.length_append, List.length_cons] at inside ⊢
      have octet : (UInt8.ofNat s.length).toNat = s.length := by
        have := short s List.mem_cons_self
        rw [UInt8.toNat_ofNat']
        omega
      rw [List.length_cons] at next ⊢
      rw [textsLength, if_neg (by omega), read_of_drop here]
      simp only [octet]
      rw [ih (by rw [← Nat.add_assoc]; exact next) (fun s mem => short s (List.mem_cons_of_mem _ mem))
        (by omega), Nat.add_assoc]

theorem textsEnd_strings {data rest : List UInt8} {ilen : ℕ} {ss : List (List UInt8)}
    (here : data.drop ilen = strings ss ++ rest) (short : ∀ s ∈ ss, s.length ≤ 255)
    (followed : rest ≠ []) : textsEnd data ss.length ilen = some (ilen + (strings ss).length) := by
  induction ss generalizing ilen with
  | nil => rfl
  | cons s ss ih =>
      rw [strings_cons, List.append_assoc] at here
      have next := drop_of_drop here
      have octet : (UInt8.ofNat s.length).toNat = s.length := by
        have := short s List.mem_cons_self
        rw [UInt8.toNat_ofNat']
        omega
      have inside : ilen + (s.length + 1) < data.length := by
        have lengths := congrArg List.length next
        have := List.length_pos_iff.mpr followed
        rw [List.length_drop, List.length_append, List.length_cons] at lengths
        omega
      rw [List.length_cons] at next ⊢
      rw [textsEnd, read_of_drop here]
      simp only [Option.bind_eq_bind, Option.bind_some, octet, if_pos inside]
      rw [ih next (fun s mem => short s (List.mem_cons_of_mem _ mem)), strings_cons,
        List.length_append, List.length_cons, Nat.add_assoc]

/-- A name in the data of a record is read where it was written. -/
theorem readName_at {msg out : List UInt8} {hops : ℕ} {ls : List Label}
    (name : NameAt (msg ++ out) msg.length hops out.length ls) (few : hops ≤ 255)
    (fits : (encode ls).length ≤ DNSNAMEBUFSIZE) (more : List UInt8) {blcnt : ℕ}
    (inside : out.length ≤ blcnt) :
    readName (msg ++ (out ++ more)) msg.length blcnt =
      .ok (encode ls, msg.length + out.length, blcnt - out.length) := by
  rw [← List.append_assoc, readName, decompress_name_of_nameAt blcnt (name.append more) few fits,
    if_pos inside]

theorem readOwner_at {msg out : List UInt8} {hops : ℕ} {ls : List Label}
    (name : NameAt (msg ++ out) msg.length hops out.length ls) (few : hops ≤ 255)
    (fits : (encode ls).length ≤ DNSNAMEBUFSIZE) (more : List UInt8) {lcnt : ℕ}
    (inside : out.length ≤ lcnt) :
    readOwner (msg ++ (out ++ more)) msg.length lcnt =
      .ok (encode ls, msg.length + out.length, lcnt - out.length) := by
  rw [← List.append_assoc, readOwner, decompress_name_of_nameAt lcnt (name.append more) few fits,
    if_pos inside]

/-- `compress_name` together with the limits that `decompress_name` has. -/
theorem compress_name_readable {msg : List UInt8} {cb : List Compel} {inp : List Label}
    (rest : List UInt8) (usable : Usable msg cb) (fits : (encode inp).length ≤ DNSNAMEBUFSIZE) :
    ∃ out cb', compress_name (encode inp ++ rest) msg.length cb = some (out, cb') ∧
      out.length ≤ (encode inp).length ∧ Usable (msg ++ out) cb' ∧ cb <+: cb' ∧
      Listed (msg.length + out.length) cb' inp ∧
      ∃ ls hops, NameAt (msg ++ out) msg.length hops out.length ls ∧ SameName inp ls ∧
        hops ≤ 255 ∧ (encode ls).length ≤ DNSNAMEBUFSIZE := by
  obtain ⟨out, cb', result, shorter, usable', grown, listed, ls, hops, name, same, few⟩ :=
    compress_name_reads rest usable fits
  have segments := length_le_of_fits fits
  refine ⟨out, cb', result, shorter, usable', grown, listed, ls, hops, name, same.symm, by omega,
    ?_⟩
  rw [same.length_encode]
  exact fits

/-- What is written for fields with some values is read as the same values. The
names among them can be pointed to from then on. -/
def WrittenBack (msg : List UInt8) (cb : List Compel) (fs : List Field) (ps : List Piece) : Prop :=
  ∃ out cb', putFields fs (bytes ps) msg.length cb = some (out, cb') ∧
    out.length ≤ (bytes ps).length ∧ Usable (msg ++ out) cb' ∧ cb <+: cb' ∧
    (∀ ls, Piece.name ls ∈ ps → Listed (msg.length + out.length) cb' ls) ∧
    ∃ ps', List.Forall₂ SamePiece ps ps' ∧ ∀ more db,
      (Field.rest ∈ fs → db.length + (bytes ps).length ≤ 1040) →
      getFields (msg ++ (out ++ more)) fs msg.length out.length db = .ok (db ++ bytes ps')

section fields
variable {msg : List UInt8} {cb : List Compel} {fs : List Field} {ps : List Piece}

theorem WrittenBack.nil (usable : Usable msg cb) : WrittenBack msg cb [] [] := by
  refine ⟨[], cb, rfl, Nat.le_refl _, by simpa using usable, List.prefix_rfl,
    fun ls none => absurd none List.not_mem_nil, [], .nil, ?_⟩
  intro more db _
  rw [getFields, if_neg (by simp)]
  simp

/-- Bytes in front of the other fields add no name. -/
theorem names_behind {l out : List UInt8}
    (listed : ∀ ls, Piece.name ls ∈ ps → Listed ((msg ++ l).length + out.length) cb ls) :
    ∀ ls, Piece.name ls ∈ Piece.octets l :: ps → Listed (msg.length + (l ++ out).length) cb ls := by
  intro ls mem
  have here := listed ls ((List.mem_cons.mp mem).resolve_left (by simp))
  rwa [List.length_append, Nat.add_assoc, ← List.length_append] at here

theorem WrittenBack.octets {l : List UInt8} (tail : WrittenBack (msg ++ l) cb fs ps) :
    WrittenBack msg cb (.octets l.length :: fs) (.octets l :: ps) := by
  obtain ⟨out, cb', result, shorter, usable, grown, listed, ps', same, read⟩ := tail
  rw [List.length_append] at result
  refine ⟨l ++ out, cb', ?_, ?_, ?_, grown, names_behind listed, .octets l :: ps', .cons rfl same,
    ?_⟩
  · simp only [putFields, bytes_cons, Piece.bytes, List.length_append, List.drop_left, result,
      List.take_left, Option.bind_eq_bind, Option.bind_some]
    rw [if_neg (by omega)]
  · simp only [bytes_cons, Piece.bytes, List.length_append]
    omega
  · rwa [← List.append_assoc]
  · intro more db limit
    have bound : Field.rest ∈ fs → (db ++ l).length + (bytes ps).length ≤ 1040 := by
      intro mem
      have := limit (List.mem_cons_of_mem _ mem)
      simp only [bytes_cons, Piece.bytes, List.length_append] at this ⊢
      omega
    have next := read more (db ++ l) bound
    have left : (l ++ out).length - l.length = out.length := by
      rw [List.length_append, Nat.add_sub_cancel_left]
    rw [List.append_assoc msg, List.length_append] at next
    rw [getFields, if_neg (by rw [List.length_append]; omega), List.append_assoc l,
      readOctets_at, left]
    simpa only [bind, Except.bind, bytes_cons, Piece.bytes, List.append_assoc] using next

theorem WrittenBack.texts {pref : List UInt8} {ss : List (List UInt8)}
    (four : pref.length = 4) (three : ss.length = 3) (short : ∀ s ∈ ss, s.length ≤ 255)
    (followed : bytes ps ≠ []) (tail : WrittenBack (msg ++ (pref ++ strings ss)) cb fs ps) :
    WrittenBack msg cb (.texts :: fs) (.octets (pref ++ strings ss) :: ps) := by
  obtain ⟨out, cb', result, shorter, usable, grown, listed, ps', same, read⟩ := tail
  have length : (pref ++ strings ss).length = 4 + (strings ss).length := by
    rw [List.length_append, four]
  have ended : textsEnd (pref ++ strings ss ++ bytes ps) 3 4 =
      some (pref ++ strings ss).length := by
    have here : (pref ++ strings ss ++ bytes ps).drop 4 = strings ss ++ bytes ps := by
      rw [List.append_assoc, ← four, List.drop_left]
    rw [length, ← three]
    exact textsEnd_strings here short followed
  rw [List.length_append] at result
  refine ⟨pref ++ strings ss ++ out, cb', ?_, ?_, ?_, grown, names_behind listed,
    .octets (pref ++ strings ss) :: ps', .cons rfl same, ?_⟩
  · simp only [putFields, bytes_cons, Piece.bytes, ended, List.drop_left, result,
      List.take_left, Option.bind_eq_bind, Option.bind_some]
  · simp only [bytes_cons, Piece.bytes, List.length_append] at shorter ⊢
    omega
  · rwa [← List.append_assoc]
  · intro more db limit
    have bound : Field.rest ∈ fs →
        (db ++ (pref ++ strings ss)).length + (bytes ps).length ≤ 1040 := by
      intro mem
      have := limit (List.mem_cons_of_mem _ mem)
      simp only [bytes_cons, Piece.bytes, List.length_append] at this ⊢
      omega
    have next := read more (db ++ (pref ++ strings ss)) bound
    have here : (msg ++ (pref ++ strings ss ++ (out ++ more))).drop (msg.length + 4) =
        strings ss ++ (out ++ more) := by
      rw [← List.drop_drop, List.drop_left, List.append_assoc, ← four, List.drop_left]
    have inside : 4 + (strings ss).length ≤ (pref ++ strings ss ++ out).length := by
      rw [List.length_append, length]
      omega
    have ended' := textsLength_strings here short inside
    have left : (pref ++ strings ss ++ out).length - (pref ++ strings ss).length = out.length := by
      rw [List.length_append, Nat.add_sub_cancel_left]
    rw [three, ← length] at ended'
    rw [List.append_assoc msg, List.length_append] at next
    rw [getFields, List.append_assoc (pref ++ strings ss), ended']
    simp only [bind, Except.bind, readOctets_at, left]
    simpa only [bytes_cons, Piece.bytes, List.append_assoc] using next

theorem WrittenBack.name {ls : List Label} (usable : Usable msg cb)
    (fits : (encode ls).length ≤ DNSNAMEBUFSIZE)
    (tail : ∀ msg cb, Usable msg cb → WrittenBack msg cb fs ps) :
    WrittenBack msg cb (.name :: fs) (.name ls :: ps) := by
  obtain ⟨nbuf, cb', compressed, shorter, usable', grown, listed, ls', hops, name, same, few,
    fits'⟩ := compress_name_readable (bytes ps) usable fits
  obtain ⟨out, cb'', result, shorter', usable'', grown', listed', ps', same', read⟩ :=
    tail _ _ usable'
  rw [List.length_append] at result listed'
  refine ⟨nbuf ++ out, cb'', ?_, ?_, ?_, grown.trans grown', ?_, .name ls' :: ps',
    .cons same same', ?_⟩
  · simp only [putFields, bytes_cons, Piece.bytes, compressed, rhnlen_encode, List.drop_left,
      result, Option.bind_eq_bind, Option.bind_some]
  · simp only [bytes_cons, Piece.bytes, List.length_append]
    omega
  · rwa [← List.append_assoc]
  · intro ms mem
    rw [List.length_append, ← Nat.add_assoc]
    rcases List.mem_cons.mp mem with first | mem
    · obtain rfl := Piece.name.inj first
      exact listed.mono (Nat.le_add_right _ _) grown'
    · exact listed' ms mem
  · intro more db limit
    have bound : Field.rest ∈ fs → (db ++ encode ls').length + (bytes ps).length ≤ 1040 := by
      intro mem
      have := limit (List.mem_cons_of_mem _ mem)
      have := same.length_encode
      simp only [bytes_cons, Piece.bytes, List.length_append] at *
      omega
    have next := read more (db ++ encode ls') bound
    have left : (nbuf ++ out).length - nbuf.length = out.length := by
      rw [List.length_append, Nat.add_sub_cancel_left]
    rw [List.append_assoc msg, List.length_append] at next
    rw [getFields, List.append_assoc nbuf, readName_at name few fits' (out ++ more) (by
      rw [List.length_append]; omega), left]
    simpa only [bind, Except.bind, bytes_cons, Piece.bytes, List.append_assoc] using next

theorem WrittenBack.rest {l : List UInt8} (usable : Usable msg cb) :
    WrittenBack msg cb [.rest] [.octets l] := by
  refine ⟨l, cb, ?_, ?_, usable.append l, List.prefix_rfl, ?_, [.octets l], .cons rfl .nil, ?_⟩
  · simp [putFields, Piece.bytes]
  · simp [Piece.bytes]
  · intro ls mem
    cases List.mem_singleton.mp mem
  · intro more db limit
    have bound := limit (List.mem_singleton_self _)
    simp only [bytes_cons, Piece.bytes, bytes_nil, List.append_nil] at bound
    rw [getFields, if_neg (by omega), readOctets_at]
    simp only [bind, Except.bind, getFields, ne_eq, not_true_eq_false, if_false, bytes_cons,
      Piece.bytes, bytes_nil, List.append_nil]

/-- A name takes at least one byte. -/
theorem bytes_ne_nil (fits : Fits fs ps) (first : fs.head? = some .name) : bytes ps ≠ [] := by
  cases fits with
  | nil => cases first
  | @cons field p fs ps fit fits =>
      obtain rfl : field = .name := Option.some.inj first
      match p, fit with
      | .name ls, _ =>
          have := encode_length_pos ls
          refine List.ne_nil_of_length_pos ?_
          simp only [bytes_cons, Piece.bytes, List.length_append]
          omega

/-- The fields that are written are read again, and names with them. -/
theorem putFields_reads (usable : Usable msg cb) (fits : Fits fs ps) (shaped : Shaped fs = true) :
    WrittenBack msg cb fs ps := by
  induction fits generalizing msg cb with
  | nil => exact .nil usable
  | @cons field p fs ps fit fits ih =>
      match field, p, fit with
      | .octets n, .octets l, fit =>
          obtain rfl : l.length = n := fit
          exact .octets (ih (usable.append l) shaped)
      | .texts, .octets l, fit =>
          obtain ⟨pref, ss, rfl, four, three, short⟩ := fit
          simp only [Shaped, Bool.and_eq_true, beq_iff_eq] at shaped
          have followed := bytes_ne_nil fits shaped.1
          exact .texts four three short followed (ih (usable.append _) shaped.2)
      | .name, .name ls, fit => exact .name usable fit fun msg cb usable => ih usable shaped
      | .rest, .octets l, _ =>
          obtain rfl := List.isEmpty_iff.mp shaped
          cases fits
          exact .rest usable

end fields

/-! ## The data of a record -/

/-- Data with the same values, up to the case of the letters of names. -/
def SameData (type : ℕ) (data data' : List UInt8) : Prop :=
  match treatment type with
  | .fields fs => ∃ ps ps', Fits fs ps ∧ List.Forall₂ SamePiece ps ps' ∧
      data = bytes ps ∧ data' = bytes ps'
  | .exactly _ | .gateway | .nameAfter _ | .asIs => data = data'

theorem nameAfter_at {data : List UInt8} {n : ℕ} (normal : NormalAfter n data)
    (msg more : List UInt8) :
    nameAfter (msg ++ (data ++ more)) msg.length data.length n = .ok data := by
  have here : (msg ++ (data ++ more)).drop (msg.length + n) = data.drop n ++ more := by
    rw [← List.drop_drop, List.drop_left, List.drop_append_of_le_length normal.1]
  rw [nameAfter, here, isnormalencdomname_append (by rw [List.length_drop]), normal.2]
  exact readOctets_at msg data more

theorem gateway_at {data : List UInt8} (fits : GatewayFits data) (msg more : List UInt8) :
    gateway (msg ++ (data ++ more)) msg.length data.length = .ok data := by
  have gwtp : (msg ++ (data ++ more))[msg.length + 1]? = data[1]? := by
    rw [List.getElem?_append_right (by omega), Nat.add_sub_cancel_left,
      List.getElem?_append_left (by have := fits.1; omega)]
  have whole := readOctets_at msg data more
  rw [gateway, if_neg (by have := fits.1; omega), gwtp]
  rcases fits.2 with none | ⟨v4, enough⟩ | ⟨v6, enough⟩ | ⟨domain, normal⟩
  · rw [none]
    exact whole
  · rw [v4]
    simp only [show ¬(1 : UInt8) = 0 by decide, if_false, if_true]
    rw [if_neg (by omega), whole]
  · rw [v6]
    simp only [show ¬(2 : UInt8) = 0 by decide, show ¬(2 : UInt8) = 1 by decide, if_false, if_true]
    rw [if_neg (by omega), whole]
  · rw [domain]
    exact nameAfter_at normal msg more

/-- The names in the data can be pointed to. -/
def NamesListed (size : ℕ) (cb : List Compel) (type : ℕ) (data : List UInt8) : Prop :=
  ∀ fs, treatment type = .fields fs → ∃ ps, Fits fs ps ∧ data = bytes ps ∧
    ∀ ls, Piece.name ls ∈ ps → Listed size cb ls

/-- Data that a record of the type has in the cache come back when they are written
and read. -/
theorem putData_reads {msg : List UInt8} {cb : List Compel} {type : ℕ} {data : List UInt8}
    (usable : Usable msg cb) (known : type ≤ T_MAX) (valid : Valid type data) :
    ∃ out cb', putFields (rdataFields type) data msg.length cb = some (out, cb') ∧
      out.length ≤ data.length ∧ Usable (msg ++ out) cb' ∧ cb <+: cb' ∧
      NamesListed (msg.length + out.length) cb' type data ∧
      ∃ data', SameData type data data' ∧ ∀ more,
        readData (msg ++ (out ++ more)) type msg.length out.length = .ok data' := by
  have agrees := treatment_agrees known
  have as_it_is : rdataFields type = [.rest] → putFields (rdataFields type) data msg.length cb =
      some (data, cb) := by
    intro rest
    simp [rest, putFields]
  unfold Valid at valid
  unfold SameData readData NamesListed
  cases case : treatment type with
  | fields fs =>
      simp only [case, Treatment.agrees, beq_iff_eq] at agrees valid
      obtain ⟨ps, fits, rfl, limit⟩ := valid
      have shaped := treatment_shaped type
      rw [case] at shaped
      obtain ⟨out, cb', result, shorter, usable', grown, listed, ps', same, read⟩ :=
        putFields_reads usable fits shaped
      rw [agrees]
      refine ⟨out, cb', result, shorter, usable', grown, ?_, bytes ps',
        ⟨ps, ps', fits, same, rfl, rfl⟩, ?_⟩
      · rintro fs' ⟨⟩
        exact ⟨ps, fits, rfl, listed⟩
      intro more
      exact read more [] (by simpa using limit)
  | exactly n =>
      simp only [case, Treatment.agrees, beq_iff_eq] at agrees valid
      refine ⟨data, cb, as_it_is agrees, Nat.le_refl _, usable.append data, List.prefix_rfl, nofun,
        data, rfl, ?_⟩
      intro more
      simp only [valid, ne_eq, not_true_eq_false, if_false]
      exact valid ▸ readOctets_at msg data more
  | gateway =>
      simp only [case, Treatment.agrees, beq_iff_eq] at agrees valid
      exact ⟨data, cb, as_it_is agrees, Nat.le_refl _, usable.append data, List.prefix_rfl, nofun,
        data, rfl, fun more => gateway_at valid msg more⟩
  | nameAfter n =>
      simp only [case, Treatment.agrees, beq_iff_eq] at agrees valid
      refine ⟨data, cb, as_it_is agrees, Nat.le_refl _, usable.append data, List.prefix_rfl, nofun,
        data, rfl, ?_⟩
      intro more
      simp only [Nat.not_lt.mpr valid.1, if_false]
      exact nameAfter_at valid msg more
  | asIs =>
      simp only [case, Treatment.agrees, beq_iff_eq] at agrees
      exact ⟨data, cb, as_it_is agrees, Nat.le_refl _, usable.append data, List.prefix_rfl, nofun,
        data, rfl, fun more => readOctets_at msg data more⟩

/-! ## Records -/

/-- A record as the cache holds it: the fields of its structure are of these sizes. -/
structure Cacheable (rr : CachedRr) : Prop extends WellFormed rr where
  ttl : rr.ttl < 4294967296
  rdlen : rr.data.length < 65536

/-- The same record, up to the case of the letters of names. -/
structure SameRr (rr rr' : CachedRr) : Prop where
  owner : ∃ ls ls', rr.oname = encode ls ∧ rr'.oname = encode ls' ∧ SameName ls ls'
  type : rr'.type = rr.type
  ttl : rr'.ttl = rr.ttl
  data : SameData rr.type rr.data rr'.data

theorem rrHeader_reads {msg tail : List UInt8} {i type ttl rdlen : ℕ}
    (here : msg.drop i = rrHeader type ttl rdlen ++ tail) (known : type ≤ T_MAX)
    (ttl_fits : ttl < 4294967296) (rdlen_fits : rdlen < 65536) :
    getint16 msg i = some type ∧ getint16 msg (i + 2) = some C_IN ∧
      getint32 msg (i + 4) = some ttl ∧ getint16 msg (i + 8) = some rdlen := by
  have at_type : msg.drop i =
      putint16 type ++ (putint16 C_IN ++ (putint32 ttl ++ (putint16 rdlen ++ tail))) := by
    simpa only [rrHeader, List.append_assoc] using here
  have at_class : msg.drop (i + 2) = _ := drop_of_drop at_type
  have at_ttl : msg.drop (i + 4) = _ := drop_of_drop at_class
  have at_rdlen : msg.drop (i + 8) = _ := drop_of_drop at_ttl
  rw [getint16_put at_type, getint16_put at_class, getint32_put at_ttl, getint16_put at_rdlen]
  simp only [T_MAX] at known
  rw [Nat.mod_eq_of_lt (by omega), Nat.mod_eq_of_lt ttl_fits, Nat.mod_eq_of_lt rdlen_fits]
  exact ⟨rfl, rfl, rfl, rfl⟩

/-- The bytes of one record: what is written for the data does not depend on the
header in front of them, which has their length. -/
theorem putRr_result {msg : List UInt8} {cb : List Compel} {rr : CachedRr} (usable : Usable msg cb)
    (cacheable : Cacheable rr) :
    ∃ nbuf rdata cb', putRr rr msg.length cb =
        some (nbuf ++ (rrHeader rr.type rr.ttl rdata.length ++ rdata), cb') ∧
      rdata.length ≤ rr.data.length ∧
      Usable (msg ++ nbuf ++ rrHeader rr.type rr.ttl rdata.length ++ rdata) cb' ∧ cb <+: cb' ∧
      NamesListed (msg.length + nbuf.length + sizeof_rr_hdr_t + rdata.length) cb' rr.type rr.data ∧
      (∃ ls ls' hops, rr.oname = encode ls ∧ SameName ls ls' ∧
        NameAt (msg ++ nbuf) msg.length hops nbuf.length ls' ∧ hops ≤ 255 ∧
        (encode ls').length ≤ DNSNAMEBUFSIZE) ∧
      ∃ data', SameData rr.type rr.data data' ∧ ∀ more,
        readData (msg ++ nbuf ++ rrHeader rr.type rr.ttl rdata.length ++ (rdata ++ more)) rr.type
          (msg.length + nbuf.length + sizeof_rr_hdr_t) rdata.length = .ok data' := by
  obtain ⟨ls, owner, fits⟩ := cacheable.owner
  have known := le_of_cached cacheable.cached
  obtain ⟨nbuf, cb', compressed, -, usable', grown, -, ls', hops, name, same, few, fits'⟩ :=
    compress_name_readable [] usable fits
  rw [List.append_nil, ← owner] at compressed
  obtain ⟨rdata, cb'', result, shorter, -⟩ :=
    putData_reads (usable'.append (rrHeader rr.type rr.ttl 0)) known cacheable.data
  obtain ⟨rdata', cb''', result', -, usable'', grown', listed, data', same_data, read⟩ :=
    putData_reads (usable'.append (rrHeader rr.type rr.ttl rdata.length)) known cacheable.data
  have offs : ∀ n, (msg ++ nbuf ++ rrHeader rr.type rr.ttl n).length =
      msg.length + nbuf.length + sizeof_rr_hdr_t := by
    intro n
    rw [List.length_append, List.length_append, length_rrHeader]
  rw [offs] at result result' read listed
  obtain ⟨rfl, rfl⟩ := Prod.mk.inj (Option.some.inj (result.symm.trans result'))
  refine ⟨nbuf, rdata, cb'', ?_, shorter, usable'', grown.trans grown', listed,
    ⟨ls, ls', hops, owner, same, name, few, fits'⟩, data', same_data, read⟩
  simp only [putRr, compressed, result, Option.bind_eq_bind, Option.bind_some]
  rw [if_neg (Nat.not_lt.mpr shorter)]

/-- What is written for one record is read as that record. -/
theorem putRr_reads {msg : List UInt8} {cb : List Compel} {rr : CachedRr} (usable : Usable msg cb)
    (cacheable : Cacheable rr) :
    ∃ out cb', putRr rr msg.length cb = some (out, cb') ∧ Usable (msg ++ out) cb' ∧ cb <+: cb' ∧
      NamesListed (msg.length + out.length) cb' rr.type rr.data ∧
      ∃ rr', SameRr rr rr' ∧ ∀ (more : List UInt8) (scan : Scan), scan.ptr = msg.length →
        scan.lcnt = out.length + more.length →
        rr2cent (msg ++ (out ++ more)) scan = .ok { scan with
          ptr := msg.length + out.length, lcnt := more.length, cached := scan.cached ++ [rr'] } := by
  obtain ⟨nbuf, rdata, cb', result, shorter, usable', grown, listed,
    ⟨ls, ls', hops, owner, same, name, few, fits⟩, data', same_data, read⟩ :=
    putRr_result usable cacheable
  refine ⟨_, cb', result, by simpa only [List.append_assoc] using usable', grown,
    by simpa only [List.length_append, length_rrHeader, Nat.add_assoc] using listed,
    ⟨encode ls', rr.type, rr.ttl, data'⟩, ⟨⟨ls, ls', owner, rfl, same⟩, rfl, rfl, same_data⟩, ?_⟩
  intro more scan at_end count
  have known := le_of_cached cacheable.cached
  have rdlen := cacheable.rdlen
  have not_opt : rr.type ≠ T_OPT := by
    intro opt
    have cached := cacheable.cached
    rw [opt] at cached
    revert cached
    decide
  have not_skipped : ¬(PDNSD_NOT_CACHED_TYPE rr.type = true ∨ C_IN ≠ C_IN) := by
    simp [cacheable.cached]
  have here : (msg ++ (nbuf ++ (rrHeader rr.type rr.ttl rdata.length ++ rdata) ++ more)).drop
      (msg.length + nbuf.length) = rrHeader rr.type rr.ttl rdata.length ++ (rdata ++ more) := by
    rw [← List.drop_drop, List.drop_left, List.append_assoc, List.drop_left, List.append_assoc]
  obtain ⟨type, cls, ttl, length⟩ := rrHeader_reads here known cacheable.ttl (by omega)
  have counted : scan.lcnt = nbuf.length + (10 + rdata.length) + more.length := by
    simpa only [List.length_append, length_rrHeader, sizeof_rr_hdr_t] using count
  have owner_read := readOwner_at name few fits
    (rrHeader rr.type rr.ttl rdata.length ++ rdata ++ more) (show _ ≤ scan.lcnt by omega)
  have data_read := read more
  simp only [List.append_assoc] at owner_read data_read type cls ttl length ⊢
  simp only [rr2cent, at_end, owner_read, bind, Except.bind, type, cls, ttl, length, within]
  rw [if_neg (by simp only [sizeof_rr_hdr_t]; omega),
    if_neg (by simp only [sizeof_rr_hdr_t]; omega), if_neg not_opt, if_neg not_skipped]
  have ptr_end : msg.length + nbuf.length + sizeof_rr_hdr_t + rdata.length =
      msg.length + (nbuf ++ (rrHeader rr.type rr.ttl rdata.length ++ rdata)).length := by
    simp only [List.length_append, length_rrHeader]
    omega
  have lcnt_end : scan.lcnt - nbuf.length - sizeof_rr_hdr_t - rdata.length = more.length := by
    simp only [sizeof_rr_hdr_t]
    omega
  simp only [data_read, ptr_end, lcnt_end]

/-- The list stays of use when the bytes of a record are not kept, where only its owner is a
name and can be pointed to. -/
theorem putRr_taken_back {msg out : List UInt8} {cb cb' : List Compel} {rr : CachedRr}
    {ls : List Label} (usable : Usable msg cb) (owner : rr.oname = encode ls)
    (fits : (encode ls).length ≤ DNSNAMEBUFSIZE) (plain : rdataFields rr.type = [.rest])
    (listed : Listed msg.length cb ls) (result : putRr rr msg.length cb = some (out, cb')) :
    Usable msg cb' := by
  simp only [putRr, owner, plain, putFields, Option.bind_eq_bind, Option.bind_some,
    Option.bind_eq_some_iff, List.append_nil] at result
  obtain ⟨⟨nbuf, cb''⟩, compressed, written⟩ := result
  rw [if_neg (Nat.lt_irrefl _)] at written
  obtain ⟨-, rfl⟩ := Prod.mk.inj (Option.some.inj written)
  rw [← List.append_nil (encode ls)] at compressed
  exact compress_name_taken_back usable fits listed compressed

end Orbot.Pdnsd
