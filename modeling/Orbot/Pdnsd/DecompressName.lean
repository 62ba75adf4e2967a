import Orbot.Pdnsd.Rhn

/-! # Reading a compressed name

A name in a message may end in a pointer to an earlier offset where the name
goes on. `decompress_name` writes the whole name to `tgt` and leaves `*src`
and `*sz` behind what stands in place. Neither the message nor the size it is
called with need make sense, so every access that leaves the message or the
buffer is a fault of its own here.
-/

namespace Orbot.Pdnsd

/-- The offset in the two bytes of a pointer. -/
def pointerOffset (high low : UInt8) : ℕ :=
  (high &&& 0x3f).toNat <<< 8 ||| low.toNat

/-- `tgt[tpos++]=c`. -/
def put (tgt : List UInt8) (c : UInt8) : Option (List UInt8) :=
  if tgt.length < DNSNAMEBUFSIZE then some (tgt ++ [c]) else none

/-- The `do` loop that copies the `lb` bytes of a label. -/
def copyLabel (msg : List UInt8) (lptr : ℕ) (tgt : List UInt8) : ℕ → Option (List UInt8)
  | 0 => some tgt
  | lb + 1 => do
      let c ← msg[lptr]?
      let tgt' ← put tgt c
      copyLabel msg (lptr + 1) tgt' lb

theorem put_eq {tgt tgt' : List UInt8} {c : UInt8} (written : put tgt c = some tgt') :
    tgt' = tgt ++ [c] := by
  simp only [put, Option.ite_none_right_eq_some, Option.some.injEq] at written
  exact written.2.symm

theorem put_fits {tgt tgt' : List UInt8} {c : UInt8} (written : put tgt c = some tgt') :
    tgt'.length ≤ DNSNAMEBUFSIZE := by
  simp only [put, Option.ite_none_right_eq_some, Option.some.injEq] at written
  rw [← written.2, List.length_append]
  exact written.1

theorem put_of_lt {tgt : List UInt8} (room : tgt.length < DNSNAMEBUFSIZE) (c : UInt8) :
    put tgt c = some (tgt ++ [c]) := if_pos room

theorem copyLabel_eq {msg tgt out : List UInt8} {lptr lb : ℕ}
    (copied : copyLabel msg lptr tgt lb = some out) :
    ∃ octets, octets.length = lb ∧ octets <+: msg.drop lptr ∧ out = tgt ++ octets := by
  induction lb generalizing lptr tgt with
  | zero => exact ⟨[], rfl, List.nil_prefix, by simpa using (Option.some.inj copied).symm⟩
  | succ lb ih =>
      simp only [copyLabel, Option.bind_eq_bind, Option.bind_eq_some_iff] at copied
      obtain ⟨c, read, tgt', written, rest⟩ := copied
      obtain rfl := put_eq written
      obtain ⟨octets, length, front, rfl⟩ := ih rest
      refine ⟨c :: octets, by simp [length], ?_, by simp⟩
      rw [drop_eq_cons_of_read read]
      exact List.cons_prefix_cons.mpr ⟨rfl, front⟩

/-- Nothing stops a label that is inside the message and has room in `tgt`. -/
theorem copyLabel_of_fits {msg : List UInt8} (tgt : List UInt8) {lptr lb : ℕ}
    (inside : lptr + lb ≤ msg.length) (room : tgt.length + lb ≤ DNSNAMEBUFSIZE) :
    copyLabel msg lptr tgt lb = some (tgt ++ (msg.drop lptr).take lb) := by
  induction lb generalizing lptr tgt with
  | zero => simp [copyLabel]
  | succ lb ih =>
      have here : lptr < msg.length := by omega
      have next := ih (tgt ++ [msg[lptr]]) (show lptr + 1 + lb ≤ msg.length by omega)
        (by simp only [List.length_append, List.length_singleton]; omega)
      simp only [copyLabel, List.getElem?_eq_getElem here, Option.bind_eq_bind, Option.bind_some,
        put_of_lt (show tgt.length < DNSNAMEBUFSIZE by omega), next]
      rw [List.drop_eq_getElem_cons here, List.take_succ_cons, List.append_assoc,
        List.singleton_append]

/-! ## The two loops -/

/-- How the loop behind the first pointer ends. -/
inductive Followed
  | done (tgt : List UInt8)
  | format
  | fault
deriving DecidableEq

/-- The loop from the label `jumped` on. -/
def follow (msg : List UInt8) (lptr hops : ℕ) (tgt : List UInt8) : Followed :=
  match msg[lptr]? with
  | none => .fault
  | some lb =>
      if 0x3f < lb then
        if lb < 0xc0 then .format
        else if msg.length ≤ lptr + 1 then .format
        else if _few : 255 < hops + 1 then .format
        else
          match msg[lptr + 1]? with
          | none => .fault
          | some low =>
              if msg.length ≤ pointerOffset lb low then .format
              else follow msg (pointerOffset lb low) (hops + 1) tgt
      else
        match _h : put tgt lb with
        | none => .fault
        | some tgt' =>
            if lb = 0 then .done tgt'
            else if msg.length ≤ lptr + 1 + lb.toNat then .format
            -- the zero byte has to follow
            else if _room : DNSNAMEBUFSIZE - 1 < tgt'.length + lb.toNat then .format
            else
              match _h' : copyLabel msg (lptr + 1) tgt' lb.toNat with
              | none => .fault
              | some tgt'' => follow msg (lptr + 1 + lb.toNat) hops tgt''
termination_by (255 - hops) + (DNSNAMEBUFSIZE - tgt.length)
decreasing_by
  · omega
  · obtain rfl := put_eq ‹_›
    obtain ⟨octets, length, -, rfl⟩ := copyLabel_eq ‹_›
    simp only [List.length_append, List.length_singleton] at *
    omega

/-- How the loop over the bytes in place ends. -/
inductive InPlace
  | done (tgt : List UInt8) (newsz : ℕ)
  | jumped (lptr newsz : ℕ) (tgt : List UInt8)
  | format
  | trunc
  | fault
deriving DecidableEq

/-- The loop up to the first pointer. -/
def inPlace (msg : List UInt8) (lptr newsz : ℕ) (tgt : List UInt8) : InPlace :=
  match msg[lptr]? with
  | none => .fault
  | some lb =>
      if 0x3f < lb then
        if lb < 0xc0 then .format
        else if newsz - 1 = 0 then .trunc
        else if msg.length ≤ lptr + 1 then .format
        else
          match msg[lptr + 1]? with
          | none => .fault
          | some low =>
              if msg.length ≤ pointerOffset lb low then .format
              else .jumped (pointerOffset lb low) (newsz - 1 - 1) tgt
      else
        match put tgt lb with
        | none => .fault
        | some tgt' =>
            if lb = 0 then .done tgt' (newsz - 1)
            else if _data : newsz - 1 ≤ lb.toNat then .trunc
            else if msg.length ≤ lptr + 1 + lb.toNat then .format
            else if DNSNAMEBUFSIZE - 1 < tgt'.length + lb.toNat then .format
            else
              match copyLabel msg (lptr + 1) tgt' lb.toNat with
              | none => .fault
              | some tgt'' => inPlace msg (lptr + 1 + lb.toNat) (newsz - 1 - lb.toNat) tgt''
termination_by newsz
decreasing_by omega

/-- How `decompress_name` ends. -/
inductive Decompressed
  /-- `RC_OK`, with the new `*src` and `*sz` -/
  | ok (tgt : List UInt8) (src sz : ℕ)
  /-- `RC_FORMAT` -/
  | format
  /-- `RC_TRUNC` -/
  | trunc
  /-- a byte outside the message was read, or one outside `tgt` written -/
  | fault
deriving DecidableEq

/-- What is left once the first loop has ended. -/
def afterInPlace (msg : List UInt8) (src sz : ℕ) : InPlace → Decompressed
  | .done tgt newsz => .ok tgt (src + (sz - newsz)) newsz
  | .jumped lptr newsz tgt =>
      match follow msg lptr 1 tgt with
      | .done tgt => .ok tgt (src + (sz - newsz)) newsz
      | .format => .format
      | .fault => .fault
  | .format => .format
  | .trunc => .trunc
  | .fault => .fault

def decompress_name (msg : List UInt8) (src sz : ℕ) : Decompressed :=
  if sz = 0 then .trunc
  else if msg.length ≤ src then .format
  else afterInPlace msg src sz (inPlace msg src sz [])

/-! ## What a message says at an offset -/

/-- The name that stands at an offset, the number of pointers on the way to its
end, and the number of bytes it takes in place. -/
inductive NameAt (msg : List UInt8) : ℕ → ℕ → ℕ → List Label → Prop
  | root {off : ℕ} (zero : msg[off]? = some 0) : NameAt msg off 0 1 []
  | label {off hops size : ℕ} {l : Label} {ls : List Label} (here : l.encoded <+: msg.drop off)
      (rest : NameAt msg (off + l.encoded.length) hops size ls) :
      NameAt msg off hops (l.encoded.length + size) (l :: ls)
  | pointer {off hops size : ℕ} {high low : UInt8} {ls : List Label}
      (first : msg[off]? = some high) (marked : 0xc0 ≤ high) (second : msg[off + 1]? = some low)
      (target : NameAt msg (pointerOffset high low) hops size ls) :
      NameAt msg off (hops + 1) 2 ls

namespace NameAt

variable {msg : List UInt8} {off hops size : ℕ} {ls : List Label}

theorem inside (name : NameAt msg off hops size ls) : off < msg.length := by
  cases name with
  | root zero => exact (List.getElem?_eq_some_iff.mp zero).1
  | label here rest =>
      by_contra outside
      simp [List.drop_eq_nil_of_le (Nat.le_of_not_lt outside), Label.encoded] at here
  | pointer first marked second target => exact (List.getElem?_eq_some_iff.mp first).1

theorem size_pos (name : NameAt msg off hops size ls) : 0 < size := by
  cases name with
  | root => exact Nat.one_pos
  | label =>
      rw [Label.length_encoded]
      omega
  | pointer => exact Nat.two_pos

/-- More bytes behind a message change nothing of what it says. -/
theorem append (name : NameAt msg off hops size ls) (more : List UInt8) :
    NameAt (msg ++ more) off hops size ls := by
  have longer : ∀ {i : ℕ} {c : UInt8}, msg[i]? = some c → (msg ++ more)[i]? = some c := by
    intro i c read
    rw [List.getElem?_append_left (List.getElem?_eq_some_iff.mp read).1, read]
  induction name with
  | root zero => exact .root (longer zero)
  | label here rest ih =>
      refine .label (here.trans ?_) ih
      exact ⟨more.drop (_ - msg.length), List.drop_append.symm⟩
  | pointer first marked second target ih =>
      exact .pointer (longer first) marked (longer second) ih

end NameAt

theorem label_read {msg : List UInt8} {off : ℕ} {l : Label} (here : l.encoded <+: msg.drop off) :
    msg[off]? = some l.lengthByte ∧ (msg.drop (off + 1)).take l.octets.length = l.octets := by
  obtain ⟨rest, whole⟩ := here
  have at_off : msg.drop off = [l.lengthByte] ++ (l.octets ++ rest) := by
    simpa [Label.encoded] using whole.symm
  refine ⟨read_of_drop at_off, ?_⟩
  have next := drop_of_drop at_off
  simp only [List.length_singleton] at next
  simp [next]

/-- The two highest bits of a byte tell a label from a pointer. -/
theorem not_label_of_marked {high : UInt8} (marked : 0xc0 ≤ high) :
    0x3f < high ∧ ¬high < 0xc0 := by
  simp only [UInt8.le_iff_toNat_le, UInt8.lt_iff_toNat_lt, UInt8.reduceToNat] at *
  omega

/-- The bytes of a label that the message holds are copied as they are. -/
theorem copyLabel_label {msg : List UInt8} (tgt : List UInt8) {off : ℕ} {l : Label}
    (here : l.encoded <+: msg.drop off) (inside : off + 1 + l.octets.length ≤ msg.length)
    (room : tgt.length + l.octets.length ≤ DNSNAMEBUFSIZE) :
    copyLabel msg (off + 1) tgt l.octets.length = some (tgt ++ l.octets) := by
  rw [copyLabel_of_fits tgt inside room, (label_read here).2]

/-- What was copied for a label is a label of the message. -/
theorem label_of_copyLabel {msg tgt tgt' out : List UInt8} {off : ℕ} {lb : UInt8}
    (read : msg[off]? = some lb) (small : ¬0x3f < lb) (nonzero : ¬lb = 0)
    (written : put tgt lb = some tgt') (copied : copyLabel msg (off + 1) tgt' lb.toNat = some out) :
    ∃ l : Label, l.encoded <+: msg.drop off ∧ l.octets.length = lb.toNat ∧
      out = tgt ++ l.encoded := by
  obtain rfl := put_eq written
  obtain ⟨octets, length, front, rfl⟩ := copyLabel_eq copied
  have positive : 0 < octets.length := by
    rw [length]
    exact Nat.pos_of_ne_zero (by simpa [UInt8.ext_iff] using nonzero)
  have short : octets.length ≤ 63 := by
    simpa [length, UInt8.le_iff_toNat_le] using UInt8.not_lt.mp small
  let l : Label := ⟨octets, positive, short⟩
  have same : l.lengthByte = lb := UInt8.toNat_inj.mp (by rw [l.lengthByte_toNat, length])
  refine ⟨l, ?_, length, by simp [Label.encoded, same, l]⟩
  rw [drop_eq_cons_of_read read, Label.encoded, same]
  exact List.cons_prefix_cons.mpr ⟨rfl, front⟩

/-! ## Behind the first pointer -/

theorem follow_root {msg tgt : List UInt8} {off hops : ℕ} (zero : msg[off]? = some 0)
    (room : tgt.length < DNSNAMEBUFSIZE) : follow msg off hops tgt = .done (tgt ++ [0]) := by
  rw [follow, zero]
  simp only [show ¬(0x3f : UInt8) < 0 by decide, if_false, if_true]
  split
  next full => simp [put_of_lt room] at full
  next tgt' written => rw [put_eq written]

theorem follow_label {msg tgt : List UInt8} {off hops : ℕ} {l : Label}
    (here : l.encoded <+: msg.drop off) (inside : off + l.encoded.length < msg.length)
    (room : tgt.length + l.encoded.length < DNSNAMEBUFSIZE) :
    follow msg off hops tgt = follow msg (off + l.encoded.length) hops (tgt ++ l.encoded) := by
  simp only [Label.length_encoded, DNSNAMEBUFSIZE] at inside room
  have written := put_of_lt (c := l.lengthByte) (show tgt.length < DNSNAMEBUFSIZE by
    simp only [DNSNAMEBUFSIZE]; omega)
  have copied := copyLabel_label (tgt ++ [l.lengthByte]) here (by omega) (by
    simp only [List.length_append, List.length_singleton, DNSNAMEBUFSIZE]; omega)
  rw [follow, (label_read here).1]
  simp only [UInt8.not_lt.mpr l.lengthByte_le, if_false, l.lengthByte_ne_zero, l.lengthByte_toNat]
  split
  next full => simp [written] at full
  next tgt' some_tgt =>
    obtain rfl := put_eq some_tgt
    rw [if_neg (by omega), dif_neg (by
      simp only [List.length_append, List.length_singleton, DNSNAMEBUFSIZE]; omega)]
    split
    next outside =>
      rw [l.lengthByte_toNat, copied] at outside
      cases outside
    next out found =>
      rw [l.lengthByte_toNat, copied] at found
      obtain rfl := Option.some.inj found
      rw [Label.length_encoded, Label.encoded, List.append_assoc, List.singleton_append,
        Nat.add_assoc, Nat.add_comm 1]

theorem follow_pointer {msg tgt : List UInt8} {off hops : ℕ} {high low : UInt8}
    (first : msg[off]? = some high) (marked : 0xc0 ≤ high) (second : msg[off + 1]? = some low)
    (inside : pointerOffset high low < msg.length) (few : hops < 255) :
    follow msg off hops tgt = follow msg (pointerOffset high low) (hops + 1) tgt := by
  have next := (List.getElem?_eq_some_iff.mp second).1
  rw [follow, first]
  simp only [not_label_of_marked marked, if_true, if_false, second]
  rw [if_neg (by omega), dif_neg (by omega), if_neg (by omega)]

theorem follow_of_nameAt {msg tgt : List UInt8} {off hops h size : ℕ} {ls : List Label}
    (name : NameAt msg off h size ls) (few : hops + h ≤ 255)
    (room : tgt.length + (encode ls).length ≤ DNSNAMEBUFSIZE) :
    follow msg off hops tgt = .done (tgt ++ encode ls) := by
  induction name generalizing hops tgt with
  | root zero => exact follow_root zero room
  | @label off h size l ls here rest ih =>
      have ended := encode_length_pos ls
      simp only [encode_cons, List.length_append] at room
      rw [follow_label here rest.inside (by omega),
        ih few (by rw [List.length_append]; omega), encode_cons, List.append_assoc]
  | pointer first marked second target ih =>
      rw [follow_pointer first marked second target.inside (by omega), ih (by omega) room]

theorem nameAt_of_follow {msg tgt out : List UInt8} {off hops : ℕ} (few : hops ≤ 255)
    (ended : follow msg off hops tgt = .done out) :
    ∃ ls h size, NameAt msg off h size ls ∧ hops + h ≤ 255 ∧ out = tgt ++ encode ls ∧
      out.length ≤ DNSNAMEBUFSIZE := by
  fun_induction follow msg off hops tgt with
  | case1 | case2 | case3 | case4 | case5 | case6 | case8 | case10 | case11 | case12 =>
      cases ended
  | case7 off hops tgt high first marked marked' inside few' low second target ih =>
      obtain ⟨ls, h, size, name, few, rfl, room⟩ := ih (by omega) ended
      exact ⟨ls, h + 1, 2, .pointer first (UInt8.not_lt.mp marked') second name, by omega, rfl,
        room⟩
  | case9 off hops tgt tgt' zero small written =>
      obtain rfl := Followed.done.inj ended
      have room := put_fits written
      obtain rfl := put_eq written
      exact ⟨[], 0, 1, .root zero, few, rfl, room⟩
  | case13 off hops tgt lb read small tgt' written nonzero inside room tgt'' copied ih =>
      obtain ⟨l, here, length, rfl⟩ := label_of_copyLabel read small nonzero written copied
      have next : off + 1 + lb.toNat = off + l.encoded.length := by
        rw [Label.length_encoded, length]
        omega
      rw [next] at ih ended
      obtain ⟨ls, h, size, name, few, rfl, fits⟩ := ih few ended
      exact ⟨l :: ls, h, _, .label here name, few, by simp, fits⟩

/-- The loop leaves neither the message nor the buffer. -/
theorem follow_ne_fault {msg tgt : List UInt8} {off hops : ℕ} (inside : off < msg.length)
    (room : tgt.length < DNSNAMEBUFSIZE) : follow msg off hops tgt ≠ .fault := by
  fun_induction follow msg off hops tgt with
  | case1 off hops tgt outside =>
      have := List.getElem?_eq_none_iff.mp outside
      omega
  | case2 | case3 | case4 | case6 | case9 | case10 | case11 => nofun
  | case5 off hops tgt high first marked marked' within few outside =>
      have := List.getElem?_eq_none_iff.mp outside
      omega
  | case7 off hops tgt high first marked marked' within few low second target ih =>
      exact ih (Nat.lt_of_not_le target) room
  | case8 off hops tgt lb first small full =>
      simp [put_of_lt room] at full
  | case12 off hops tgt lb read small tgt' written nonzero within fits outside =>
      rw [copyLabel_of_fits tgt' (by omega) (by omega)] at outside
      cases outside
  | case13 off hops tgt lb read small tgt' written nonzero within fits tgt'' copied ih =>
      obtain ⟨octets, length, -, rfl⟩ := copyLabel_eq copied
      refine ih (by omega) ?_
      simp only [List.length_append, DNSNAMEBUFSIZE] at fits ⊢
      omega

/-! ## The whole name -/

/-- A label for which the data are too short. The byte behind it counts as well. -/
theorem inPlace_label_trunc {msg tgt : List UInt8} {off newsz : ℕ} {l : Label}
    (here : l.encoded <+: msg.drop off) (data : newsz ≤ l.encoded.length)
    (room : tgt.length < DNSNAMEBUFSIZE) : inPlace msg off newsz tgt = .trunc := by
  rw [Label.length_encoded] at data
  rw [inPlace, (label_read here).1]
  simp only [UInt8.not_lt.mpr l.lengthByte_le, if_false, l.lengthByte_ne_zero,
    l.lengthByte_toNat, put_of_lt room]
  rw [dif_pos (by omega)]

theorem inPlace_label {msg tgt : List UInt8} {off newsz : ℕ} {l : Label}
    (here : l.encoded <+: msg.drop off) (data : l.encoded.length < newsz)
    (inside : off + l.encoded.length < msg.length)
    (room : tgt.length + l.encoded.length < DNSNAMEBUFSIZE) :
    inPlace msg off newsz tgt =
      inPlace msg (off + l.encoded.length) (newsz - l.encoded.length) (tgt ++ l.encoded) := by
  simp only [Label.length_encoded, DNSNAMEBUFSIZE] at data inside room
  have written := put_of_lt (c := l.lengthByte) (show tgt.length < DNSNAMEBUFSIZE by
    simp only [DNSNAMEBUFSIZE]; omega)
  have copied := copyLabel_label (tgt ++ [l.lengthByte]) here (by omega) (by
    simp only [List.length_append, List.length_singleton, DNSNAMEBUFSIZE]; omega)
  have next : off + 1 + l.octets.length = off + l.encoded.length := by
    rw [Label.length_encoded]
    omega
  have left : newsz - 1 - l.octets.length = newsz - l.encoded.length := by
    rw [Label.length_encoded]
    omega
  rw [inPlace, (label_read here).1]
  simp only [UInt8.not_lt.mpr l.lengthByte_le, if_false, l.lengthByte_ne_zero,
    l.lengthByte_toNat, written, copied]
  rw [dif_neg (by omega), if_neg (by omega), if_neg (by
    simp only [List.length_append, List.length_singleton, DNSNAMEBUFSIZE]; omega), next, left]
  rw [List.append_assoc, List.singleton_append, ← Label.encoded]

/-- What `decompress_name` does with a name that is there: it reads it when the
data reach to its end, and otherwise says that they do not. -/
theorem afterInPlace_of_nameAt {msg tgt : List UInt8} {src sz off newsz h size : ℕ}
    {ls : List Label} (name : NameAt msg off h size ls) (few : h ≤ 255) (some_data : 0 < newsz)
    (room : tgt.length + (encode ls).length ≤ DNSNAMEBUFSIZE) :
    afterInPlace msg src sz (inPlace msg off newsz tgt) =
      if size ≤ newsz then .ok (tgt ++ encode ls) (src + (sz - (newsz - size))) (newsz - size)
      else .trunc := by
  induction name generalizing newsz tgt with
  | root zero =>
      have written := put_of_lt (c := 0) (show tgt.length < DNSNAMEBUFSIZE from room)
      rw [inPlace, zero, if_pos (show 1 ≤ newsz from some_data)]
      simp only [show ¬(0x3f : UInt8) < 0 by decide, if_false, if_true, written, afterInPlace]
      rfl
  | @label off h size l ls here rest ih =>
      have ended := encode_length_pos ls
      have positive := rest.size_pos
      rw [encode_cons, List.length_append] at room
      by_cases data : newsz ≤ l.encoded.length
      · rw [inPlace_label_trunc here data (by omega), if_neg (by omega)]
        rfl
      · rw [inPlace_label here (by omega) rest.inside (by omega),
          ih few (by omega) (by rw [List.length_append]; omega), Nat.sub_sub, encode_cons,
          List.append_assoc]
        by_cases fits : size ≤ newsz - l.encoded.length
        · rw [if_pos fits, if_pos (by omega)]
        · rw [if_neg fits, if_neg (by omega)]
  | @pointer off h size high low ls first marked second target ih =>
      have next := (List.getElem?_eq_some_iff.mp second).1
      rw [inPlace, first]
      simp only [not_label_of_marked marked, if_true, if_false, second]
      by_cases data : newsz - 1 = 0
      · rw [if_pos data, if_neg (by omega)]
        rfl
      · have inside := target.inside
        rw [if_neg data, if_neg (by omega), if_neg (by omega), if_pos (by omega)]
        simp only [afterInPlace, follow_of_nameAt target (show 1 + h ≤ 255 by omega) room]
        rw [Nat.sub_sub]

theorem nameAt_of_inPlace {msg tgt out : List UInt8} {src sz src' sz' off newsz : ℕ}
    (ended : afterInPlace msg src sz (inPlace msg off newsz tgt) = .ok out src' sz') :
    ∃ ls h size, NameAt msg off h size ls ∧ h ≤ 255 ∧ out = tgt ++ encode ls ∧
      out.length ≤ DNSNAMEBUFSIZE := by
  fun_induction inPlace msg off newsz tgt with
  | case1 | case2 | case3 | case4 | case5 | case6 | case8 | case10 | case11 | case12 | case13 =>
      cases ended
  | case7 off newsz tgt high first marked marked' data inside low second target =>
      simp only [afterInPlace] at ended
      split at ended
      next out' followed =>
        obtain ⟨rfl, -, -⟩ := Decompressed.ok.inj ended
        obtain ⟨ls, h, size, name, few, rfl, fits⟩ := nameAt_of_follow (by omega) followed
        exact ⟨ls, h + 1, 2, .pointer first (UInt8.not_lt.mp marked') second name, by omega, rfl,
          fits⟩
      next => cases ended
      next => cases ended
  | case9 off newsz tgt tgt' zero small written =>
      obtain ⟨rfl, -, -⟩ := Decompressed.ok.inj ended
      have fits := put_fits written
      obtain rfl := put_eq written
      exact ⟨[], 0, 1, .root zero, by omega, rfl, fits⟩
  | case14 off newsz tgt lb read small tgt' written nonzero data inside room tgt'' copied ih =>
      obtain ⟨l, here, length, rfl⟩ := label_of_copyLabel read small nonzero written copied
      have next : off + 1 + lb.toNat = off + l.encoded.length := by
        rw [Label.length_encoded, length]
        omega
      rw [next] at ih ended
      obtain ⟨ls, h, size, name, few, rfl, fits⟩ := ih ended
      exact ⟨l :: ls, h, _, .label here name, few, by simp, fits⟩

theorem afterInPlace_ne_fault {msg tgt : List UInt8} {src sz off newsz : ℕ}
    (inside : off < msg.length) (room : tgt.length < DNSNAMEBUFSIZE) :
    afterInPlace msg src sz (inPlace msg off newsz tgt) ≠ .fault := by
  fun_induction inPlace msg off newsz tgt with
  | case1 off newsz tgt outside =>
      have := List.getElem?_eq_none_iff.mp outside
      omega
  | case2 | case3 | case4 | case6 | case9 | case10 | case11 | case12 => nofun
  | case5 off newsz tgt high first marked marked' data within outside =>
      have := List.getElem?_eq_none_iff.mp outside
      omega
  | case7 off newsz tgt high first marked marked' data within low second target =>
      have followed : follow msg (pointerOffset high low) 1 tgt ≠ .fault :=
        follow_ne_fault (Nat.lt_of_not_le target) room
      simp only [afterInPlace]
      split
      next => nofun
      next => nofun
      next fault => exact absurd fault followed
  | case8 off newsz tgt lb first small full => simp [put_of_lt room] at full
  | case13 off newsz tgt lb read small tgt' written nonzero data within fits outside =>
      rw [copyLabel_of_fits tgt' (by omega) (by omega)] at outside
      cases outside
  | case14 off newsz tgt lb read small tgt' written nonzero data within fits tgt'' copied ih =>
      obtain ⟨octets, length, -, rfl⟩ := copyLabel_eq copied
      refine ih (by omega) ?_
      simp only [List.length_append, DNSNAMEBUFSIZE] at fits ⊢
      omega

theorem decompress_name_of_nameAt {msg : List UInt8} {src h size : ℕ} (sz : ℕ) {ls : List Label}
    (name : NameAt msg src h size ls) (few : h ≤ 255)
    (room : (encode ls).length ≤ DNSNAMEBUFSIZE) :
    decompress_name msg src sz =
      if size ≤ sz then .ok (encode ls) (src + size) (sz - size) else .trunc := by
  have positive := name.size_pos
  have inside := name.inside
  rw [decompress_name]
  by_cases data : sz = 0
  · rw [if_pos data, if_neg (by omega)]
  · rw [if_neg data, if_neg (by omega),
      afterInPlace_of_nameAt name few (Nat.pos_of_ne_zero data) (by simpa using room)]
    by_cases fits : size ≤ sz
    · rw [if_pos fits, if_pos fits, Nat.sub_sub_self fits, List.nil_append]
    · rw [if_neg fits, if_neg fits]

/-- `decompress_name` never leaves the message or the buffer. It returns `RC_OK`
for exactly the names that the message says stand there and that fit, also where
the bytes are arbitrary, and it says `RC_TRUNC` of such a name exactly when the
data end before what stands in place. -/
theorem decompress_name_reads (msg : List UInt8) (src sz : ℕ) :
    decompress_name msg src sz ≠ .fault ∧
      (∀ tgt src' sz', decompress_name msg src sz = .ok tgt src' sz' ↔
        ∃ ls hops size, NameAt msg src hops size ls ∧ hops ≤ 255 ∧
          (encode ls).length ≤ DNSNAMEBUFSIZE ∧ size ≤ sz ∧
          tgt = encode ls ∧ src' = src + size ∧ sz' = sz - size) ∧
      ∀ ls hops size, NameAt msg src hops size ls → hops ≤ 255 →
        (encode ls).length ≤ DNSNAMEBUFSIZE →
        (decompress_name msg src sz = .trunc ↔ sz < size) := by
  refine ⟨?_, ?_, ?_⟩
  · rw [decompress_name]
    split_ifs with data outside
    · nofun
    · nofun
    · exact afterInPlace_ne_fault (Nat.lt_of_not_le outside) (by decide)
  · intro tgt src' sz'
    constructor
    · intro read
      have ended := read
      rw [decompress_name] at ended
      split_ifs at ended with data outside
      obtain ⟨ls, h, size, name, few, rfl, room⟩ := nameAt_of_inPlace ended
      rw [List.nil_append] at room read
      rw [decompress_name_of_nameAt sz name few room] at read
      split_ifs at read with fits
      obtain ⟨-, rfl, rfl⟩ := Decompressed.ok.inj read
      exact ⟨ls, h, size, name, few, room, fits, List.nil_append _, rfl, rfl⟩
    · rintro ⟨ls, h, size, name, few, room, fits, rfl, rfl, rfl⟩
      rw [decompress_name_of_nameAt sz name few room, if_pos fits]
  · intro ls h size name few room
    rw [decompress_name_of_nameAt sz name few room]
    split_ifs with fits
    · simp only [false_iff]
      omega
    · simp only [true_iff]
      omega

end Orbot.Pdnsd
