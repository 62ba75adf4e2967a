import Orbot.Lib.Ends
import Orbot.Pdnsd.Rrs2Cent

/-! # What is accepted from the network

Whatever the bytes of a message, reading its records leaves neither the message
nor the buffers for names, and the records that reach the cache are well formed.
-/

namespace Orbot.Pdnsd

open Lib

/-- Reading failed with one of the codes of the source. -/
def Code (e : Failure) : Prop := e ≠ .fault

abbrev Reads {α : Type} (post : α → Prop) (x : Except Failure α) : Prop := Ends Code post x

theorem reads_format {α : Type} {post : α → Prop} :
    Reads post (.error .format : Except Failure α) := by
  rintro ⟨⟩

theorem reads_trunc {α : Type} {post : α → Prop} :
    Reads post (.error .trunc : Except Failure α) := by
  rintro ⟨⟩

/-- The bytes of a name that fits into the buffers. -/
def IsName (l : List UInt8) : Prop := ∃ ls, l = encode ls ∧ (encode ls).length ≤ DNSNAMEBUFSIZE

theorem readOctets_reads {msg : List UInt8} {i n : ℕ} (inside : i + n ≤ msg.length) :
    Reads (fun l => l = (msg.drop i).take n ∧ l.length = n) (readOctets msg i n) := by
  rw [readOctets, if_pos inside]
  refine .ok ⟨rfl, ?_⟩
  rw [List.length_take, List.length_drop]
  omega

/-- A name, and the place behind it. -/
def NameRead (i n : ℕ) (result : List UInt8 × ℕ × ℕ) : Prop :=
  IsName result.1 ∧ result.2.1 + result.2.2 = i + n

theorem readOwner_reads (msg : List UInt8) (ptr lcnt : ℕ) :
    Reads (NameRead ptr lcnt) (readOwner msg ptr lcnt) := by
  have spec := decompress_name_reads msg ptr lcnt
  rw [readOwner]
  cases result : decompress_name msg ptr lcnt with
  | ok tgt src sz =>
      obtain ⟨ls, hops, size, -, -, fits, inside, rfl, rfl, rfl⟩ := (spec.2.1 tgt src sz).mp result
      exact .ok ⟨⟨ls, rfl, fits⟩, by simp only; omega⟩
  | format => exact reads_format
  | trunc => exact reads_trunc
  | fault => exact absurd result spec.1

theorem readName_reads (msg : List UInt8) (bptr blcnt : ℕ) :
    Reads (NameRead bptr blcnt) (readName msg bptr blcnt) := by
  have owner := readOwner_reads msg bptr blcnt
  rw [readOwner] at owner
  rw [readName]
  cases result : decompress_name msg bptr blcnt with
  | ok tgt src sz => simpa only [result] using owner
  | format | trunc => exact reads_format
  | fault => simpa only [result] using owner

theorem within_reads {α : Type} {value : Option α} (inside : ∃ x, value = some x) :
    Reads (fun x => value = some x) (within value) := by
  obtain ⟨x, rfl⟩ := inside
  exact .ok rfl

/-! ## Fields -/

theorem textsLength_reads {msg : List UInt8} {bptr blcnt : ℕ} (j len : ℕ)
    (inside : bptr + blcnt ≤ msg.length) :
    Reads (fun len' => len' ≤ blcnt ∧ ∃ ss, ss.length = j ∧ (∀ s ∈ ss, s.length ≤ 255) ∧
      (msg.drop (bptr + len)).take (len' - len) = strings ss ∧ len ≤ len')
      (textsLength msg bptr blcnt j len) := by
  induction j generalizing len with
  | zero =>
      rw [textsLength]
      split_ifs with short
      · exact reads_format
      · exact .ok ⟨by omega, [], rfl, by simp, by simp [strings], Nat.le_refl _⟩
  | succ j ih =>
      rw [textsLength]
      split_ifs with short
      · exact reads_format
      · have here : bptr + len < msg.length := by omega
        simp only [List.getElem?_eq_getElem here]
        refine (ih (len + (msg[bptr + len].toNat + 1))).mono ?_
        rintro len' ⟨data, ss, count, lengths, taken, order⟩
        have octet := msg[bptr + len].toNat_lt
        have front : (msg.drop (bptr + len)).take (len' - len) =
            msg[bptr + len] :: (msg.drop (bptr + len + 1)).take (len' - len - 1) := by
          rw [List.drop_eq_getElem_cons here, show len' - len = len' - len - 1 + 1 by omega,
            List.take_succ_cons, Nat.add_sub_cancel]
        have string : (msg.drop (bptr + len + 1)).take (len' - len - 1) =
            (msg.drop (bptr + len + 1)).take msg[bptr + len].toNat ++ strings ss := by
          rw [← taken, show len' - len - 1 = msg[bptr + len].toNat +
            (len' - (len + (msg[bptr + len].toNat + 1))) by omega, List.take_add, List.drop_drop]
          congr 3
          omega
        have length : ((msg.drop (bptr + len + 1)).take msg[bptr + len].toNat).length =
            msg[bptr + len].toNat := by
          rw [List.length_take, List.length_drop]
          omega
        refine ⟨data, (msg.drop (bptr + len + 1)).take msg[bptr + len].toNat :: ss, by simp [count],
          ?_, ?_, by omega⟩
        · intro s mem
          rcases List.mem_cons.mp mem with rfl | mem
          · omega
          · exact lengths s mem
        · rw [front, string]
          simp only [strings, List.flatMap_cons, length, UInt8.ofNat_toNat, List.cons_append]

/-- The fields that are read have values, and nothing is left behind them. -/
theorem getFields_reads {msg : List UInt8} {fs : List Field} {bptr blcnt : ℕ} {db : List UInt8}
    (inside : bptr + blcnt ≤ msg.length) (shaped : Shaped fs = true) :
    Reads (fun db' => ∃ ps, Fits fs ps ∧ db' = db ++ bytes ps ∧
      (Field.rest ∈ fs → db'.length ≤ 1040)) (getFields msg fs bptr blcnt db) := by
  induction fs generalizing bptr blcnt db with
  | nil =>
      rw [getFields]
      split_ifs with junk
      · exact reads_format
      · exact .ok ⟨[], .nil, by simp, by simp⟩
  | cons field fs ih =>
      cases field with
      | octets n =>
          rw [getFields]
          split_ifs with short
          · exact reads_format
          · refine (readOctets_reads (by omega)).bind ?_
            rintro copied ⟨-, length⟩
            refine (ih (by omega) shaped).mono ?_
            rintro db' ⟨ps, fits, rfl, bound⟩
            exact ⟨.octets copied :: ps, .cons length fits, by simp [Piece.bytes], by simpa using bound⟩
      | texts =>
          rw [getFields]
          have shaped' : Shaped fs = true := by
            simp only [Shaped, Bool.and_eq_true] at shaped
            exact shaped.2
          refine (textsLength_reads 3 4 inside).bind ?_
          rintro len ⟨data, ss, three, lengths, taken, order⟩
          refine (readOctets_reads (by omega)).bind ?_
          rintro copied ⟨rfl, length⟩
          refine (ih (by omega) shaped').mono ?_
          rintro db' ⟨ps, fits, rfl, bound⟩
          refine ⟨.octets ((msg.drop bptr).take len) :: ps, .cons ?_ fits, by simp [Piece.bytes],
            by simpa using bound⟩
          refine ⟨(msg.drop bptr).take 4, ss, ?_, ?_, three, lengths⟩
          · rw [← taken, show len = 4 + (len - 4) by omega, List.take_add, List.drop_drop,
              Nat.add_sub_cancel_left]
          · rw [List.length_take, List.length_drop]
            omega
      | name =>
          rw [getFields]
          refine (readName_reads msg bptr blcnt).bind ?_
          rintro ⟨name, bptr', blcnt'⟩ ⟨⟨ls, rfl, room⟩, place⟩
          refine (ih (by simp only at place; omega) shaped).mono ?_
          rintro db' ⟨ps, fits, rfl, bound⟩
          exact ⟨.name ls :: ps, .cons room fits, by simp [Piece.bytes], by simpa using bound⟩
      | rest =>
          obtain rfl := List.isEmpty_iff.mp shaped
          rw [getFields]
          split_ifs with long
          · exact reads_format
          · refine (readOctets_reads inside).bind ?_
            rintro copied ⟨-, length⟩
            rw [getFields, if_neg (by simp)]
            refine .ok ⟨[.octets copied], .cons trivial .nil, by simp [Piece.bytes], ?_⟩
            intro _
            rw [List.length_append]
            omega

/-! ## The data of a record -/

/-- Data with a name behind their first `n` bytes that is not compressed. -/
def NormalAfter (n : ℕ) (data : List UInt8) : Prop :=
  n ≤ data.length ∧ isnormalencdomname (data.drop n) (data.length - n) = some true

/-- Data with a gateway of a known type. -/
def GatewayFits (data : List UInt8) : Prop :=
  3 ≤ data.length ∧ (data[1]? = some 0 ∨ data[1]? = some 1 ∧ 7 ≤ data.length ∨
    data[1]? = some 2 ∧ 19 ≤ data.length ∨ data[1]? = some 3 ∧ NormalAfter 3 data)

/-- The data are such as records of the type have in the cache. -/
def Valid (type : ℕ) (data : List UInt8) : Prop :=
  match treatment type with
  | .exactly n => data.length = n
  | .fields fs => ∃ ps, Fits fs ps ∧ data = bytes ps ∧ (Field.rest ∈ fs → data.length ≤ 1040)
  | .gateway => GatewayFits data
  | .nameAfter n => NormalAfter n data
  | .asIs => True

/-- A name behind the first bytes is normal in what is read, and the bytes in front
of it are those of the message. -/
theorem nameAfter_reads {msg : List UInt8} {ptr rdlength n : ℕ}
    (inside : ptr + rdlength ≤ msg.length) (room : n ≤ rdlength) :
    Reads (fun data => NormalAfter n data ∧ ∀ i < n, data[i]? = msg[ptr + i]?)
      (nameAfter msg ptr rdlength n) := by
  have front : ∀ i < n, ((msg.drop ptr).take rdlength)[i]? = msg[ptr + i]? := by
    intro i before
    rw [List.getElem?_take_of_lt (by omega), List.getElem?_drop]
  have looked_at : isnormalencdomname (msg.drop (ptr + n)) (rdlength - n) ≠ none :=
    isnormalencdomname_ne_none (by rw [List.length_drop]; omega)
  rw [nameAfter]
  split
  next outside => exact absurd outside looked_at
  next normal =>
    refine (readOctets_reads inside).mono ?_
    rintro data ⟨rfl, length⟩
    refine ⟨⟨by omega, ?_⟩, front⟩
    have split : msg.drop (ptr + n) = ((msg.drop ptr).take rdlength).drop n ++
        msg.drop (ptr + rdlength) := by
      rw [← List.drop_take_append_drop msg (ptr + n) (rdlength - n), List.drop_take,
        List.drop_drop]
      congr 2
      omega
    rw [split, isnormalencdomname_append (by rw [List.length_drop]; omega)] at normal
    rwa [length]
  next compressed =>
    refine (readName_reads msg (ptr + n) (rdlength - n)).bind ?_
    rintro ⟨name, bptr, blcnt⟩ ⟨⟨ls, rfl, fits⟩, place⟩
    refine (readOctets_reads (by omega)).bind ?_
    rintro octets ⟨rfl, length⟩
    refine (readOctets_reads (by simp only at place; omega)).bind ?_
    rintro rest ⟨-, -⟩
    refine .ok ⟨⟨?_, ?_⟩, ?_⟩
    · simp only [List.length_append]
      omega
    · rw [List.append_assoc, List.drop_append_of_le_length (by omega),
        List.drop_eq_nil_of_le (by omega), List.nil_append]
      refine isnormalencdomname_encode fits ?_
      simp only [List.length_append]
      omega
    · intro i before
      rw [List.append_assoc, List.getElem?_append_left (by omega),
        List.getElem?_take_of_lt before, List.getElem?_drop]

theorem gateway_reads {msg : List UInt8} {ptr rdlength : ℕ}
    (inside : ptr + rdlength ≤ msg.length) : Reads GatewayFits (gateway msg ptr rdlength) := by
  refine .ite (fun _ => reads_format) fun short => ?_
  have here := List.getElem?_eq_getElem (l := msg) (i := ptr + 1) (by omega)
  have whole : Reads (fun data => data.length = rdlength ∧ data[1]? = some msg[ptr + 1])
      (readOctets msg ptr rdlength) := by
    refine (readOctets_reads inside).mono ?_
    rintro data ⟨rfl, length⟩
    refine ⟨length, ?_⟩
    rw [List.getElem?_take_of_lt (by omega), List.getElem?_drop, here]
  simp only [here]
  refine .ite (fun none => ?_) fun _ => .ite (fun v4 => ?_) fun _ => .ite (fun v6 => ?_) fun _ =>
    .ite (fun domain => ?_) fun _ => reads_format
  · rw [none] at whole
    exact whole.mono fun data ⟨length, gwtp⟩ => ⟨by omega, .inl gwtp⟩
  · rw [v4] at whole
    exact .ite (fun _ => reads_format) fun enough =>
      whole.mono fun data ⟨length, gwtp⟩ => ⟨by omega, .inr (.inl ⟨gwtp, by omega⟩)⟩
  · rw [v6] at whole
    exact .ite (fun _ => reads_format) fun enough =>
      whole.mono fun data ⟨length, gwtp⟩ => ⟨by omega, .inr (.inr (.inl ⟨gwtp, by omega⟩))⟩
  · refine (nameAfter_reads inside (by omega)).mono ?_
    rintro data ⟨normal, front⟩
    exact ⟨normal.1, .inr (.inr (.inr ⟨by rw [front 1 (by decide), here, domain], normal⟩))⟩

/-- The fields of a treatment are in a shape that can be read. -/
def Treatment.Shaped : Treatment → Prop
  | .fields fs => Pdnsd.Shaped fs = true
  | .exactly _ | .gateway | .nameAfter _ | .asIs => True

theorem treatment_shaped (type : ℕ) : (treatment type).Shaped := by
  have either : ∀ {c : Prop} [Decidable c] {t t' : Treatment}, t.Shaped → t'.Shaped →
      (if c then t else t').Shaped := by
    intro c _ t t' first second
    split
    next => exact first
    next => exact second
  unfold treatment
  repeat' refine either ?_ ?_
  all_goals first | exact trivial | (unfold Treatment.Shaped; rfl)

theorem readData_reads {msg : List UInt8} (type : ℕ) {ptr rdlength : ℕ}
    (inside : ptr + rdlength ≤ msg.length) : Reads (Valid type) (readData msg type ptr rdlength) := by
  have shaped := treatment_shaped type
  unfold readData Valid
  cases case : treatment type with
  | exactly n =>
      exact .ite (fun _ => reads_format) fun length =>
        (readOctets_reads inside).mono fun data ⟨_, same⟩ => same.trans (not_not.mp length)
  | fields fs =>
      rw [case] at shaped
      refine (getFields_reads inside shaped).mono ?_
      rintro data ⟨ps, fits, rfl, bound⟩
      exact ⟨ps, fits, List.nil_append _, bound⟩
  | gateway => exact gateway_reads inside
  | nameAfter n =>
      exact .ite (fun _ => reads_format) fun short =>
        (nameAfter_reads inside (Nat.le_of_not_lt short)).mono fun data accepted => accepted.1
  | asIs => exact (readOctets_reads inside).mono fun data _ => trivial

/-! ## The records of a section -/

/-- A record that reaches the cache. -/
structure WellFormed (rr : CachedRr) : Prop where
  owner : IsName rr.oname
  cached : PDNSD_NOT_CACHED_TYPE rr.type = false
  data : Valid rr.type rr.data

/-- What holds of a scan: what is left is in the message, and what was handed to
the cache is well formed. -/
structure Sound (msg : List UInt8) (scan : Scan) : Prop where
  left : scan.ptr + scan.lcnt ≤ msg.length
  cached : ∀ rr ∈ scan.cached, WellFormed rr

theorem rr2cent_reads {msg : List UInt8} {scan : Scan} (header : 4 ≤ msg.length)
    (sound : Sound msg scan) : Reads (Sound msg) (rr2cent msg scan) := by
  have left := sound.left
  rw [rr2cent]
  refine (readOwner_reads msg scan.ptr scan.lcnt).bind ?_
  rintro ⟨oname, ptr, lcnt⟩ ⟨owner, place⟩
  simp only at owner place
  refine .ite (fun _ => reads_trunc) fun short => ?_
  simp only [sizeof_rr_hdr_t] at short
  refine (within_reads (getint16_ne_none msg _ (by omega))).bind fun type _ => ?_
  refine (within_reads (getint16_ne_none msg _ (by omega))).bind fun cls _ => ?_
  refine (within_reads (getint32_ne_none msg _ (by omega))).bind fun ttl _ => ?_
  refine (within_reads (getint16_ne_none msg _ (by omega))).bind fun rdlength _ => ?_
  simp only [sizeof_rr_hdr_t]
  refine .ite (fun _ => reads_trunc) fun outside => ?_
  have passed : ptr + 10 + rdlength + (lcnt - 10 - rdlength) ≤ msg.length := by omega
  refine .ite (fun _ => .ite (fun _ => ?_) fun _ => .ok ⟨passed, sound.cached⟩) fun _ =>
    .ite (fun _ => .ok ⟨passed, sound.cached⟩) fun taken => ?_
  · have byte : ∀ i < msg.length, ∃ x, msg[i]? = some x :=
      fun i inside => ⟨_, List.getElem?_eq_getElem inside⟩
    refine (within_reads (byte (ptr + 4) (by omega))).bind fun high _ => ?_
    refine (within_reads (byte (ptr + 4 + 1) (by omega))).bind fun version _ => ?_
    refine (within_reads (byte (ptr + 4 + 2) (by omega))).bind fun flags _ => ?_
    refine (within_reads (byte 3 (by omega))).bind fun rcode _ => ?_
    exact .ok ⟨passed, sound.cached⟩
  · refine (readData_reads type (by omega)).bind fun data valid => ?_
    refine .ok ⟨passed, ?_⟩
    intro rr mem
    rcases List.mem_append.mp mem with mem | mem
    · exact sound.cached rr mem
    · rw [List.mem_singleton.mp mem]
      have is_cached : PDNSD_NOT_CACHED_TYPE type = false := by
        simpa using (not_or.mp taken).1
      exact ⟨owner, is_cached, valid⟩

/-- Whatever a reply holds, reading a section of it never touches a byte outside,
and every record that reaches the cache has a name that fits, a type that is
cached, and data of the form the type has there. -/
theorem rrs2cent_accepts (msg : List UInt8) (recnum : ℕ) (scan : Scan) (header : 4 ≤ msg.length)
    (sound : Sound msg scan) :
    rrs2cent msg recnum scan ≠ .error .fault ∧
      ∀ scan', rrs2cent msg recnum scan = .ok scan' → Sound msg scan' := by
  have reads : Reads (Sound msg) (rrs2cent msg recnum scan) := by
    induction recnum generalizing scan with
    | zero => exact .ok sound
    | succ recnum ih =>
        rw [rrs2cent]
        exact (rr2cent_reads header sound).bind fun scan' sound' => ih scan' sound'
  exact ⟨fun fault => reads.of_error fault rfl, fun scan' result => reads.of_ok result⟩

/-- A reply with one NS record, whose data are a pointer to its owner. -/
def exampleReply : List UInt8 :=
  [0, 0, 0x80, 0, 0, 0, 0, 1, 0, 0, 0, 0] ++
    ([1, 97, 0] ++ [0, 2, 0, 1, 0, 0, 0, 60, 0, 2] ++ [0xc0, 12])

theorem rrs2cent_accepts_pointer :
    rrs2cent exampleReply 1 ⟨12, 15, [], 0, none⟩ =
        .ok ⟨27, 0, [⟨[1, 97, 0], T_NS, 60, [1, 97, 0]⟩], 0, none⟩ ∧
      Sound exampleReply ⟨27, 0, [⟨[1, 97, 0], T_NS, 60, [1, 97, 0]⟩], 0, none⟩ := by
  have read : rrs2cent exampleReply 1 ⟨12, 15, [], 0, none⟩ =
      .ok ⟨27, 0, [⟨[1, 97, 0], T_NS, 60, [1, 97, 0]⟩], 0, none⟩ := by decide +kernel
  have start : Sound exampleReply ⟨12, 15, [], 0, none⟩ :=
    ⟨by decide, fun rr mem => absurd mem List.not_mem_nil⟩
  exact ⟨read, (rrs2cent_accepts exampleReply 1 _ (by decide) start).2 _ read⟩

end Orbot.Pdnsd
