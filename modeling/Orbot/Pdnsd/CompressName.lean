import Orbot.Pdnsd.DecompressName
import Orbot.Pdnsd.DomainMatch

/-! # Writing a compressed name

`compress_name` keeps a list of the names written so far and where they stand.
The end of a name that one of them has already is written as a pointer. Of a name
that was itself compressed only the part in front of its pointer may be pointed
to, and nothing in the list says how long that part is: it is enough that the
first of the longest matches is taken.
-/

namespace Orbot.Pdnsd

open Lib.CommonSuffix

/-- `compel_t`. -/
structure Compel where
  index : ℕ
  s : List UInt8
deriving DecidableEq

/-- What the loop over the list has found so far. -/
structure Best where
  longest : ℕ
  lrem : ℕ
  coffs : ℕ
deriving DecidableEq

/-- Part 1: compression. -/
def findLongest (inp : List UInt8) : List Compel → Best → Option Best
  | [], best => some best
  | ci :: cb, best =>
      match domain_match inp ci.s with
      | none => none
      | some (rv, rem, to') =>
          if best.longest < rv then
            let newoffs := ci.index + to'
            -- only use if the offset is not too large
            if newoffs ≤ 0x3fff then findLongest inp cb ⟨rv, rem, newoffs⟩
            else findLongest inp cb best
          else findLongest inp cb best

/-- The two bytes of a pointer. -/
def pointer (coffs : ℕ) : List UInt8 :=
  [(0xc0 : UInt8) ||| UInt8.ofNat ((coffs &&& 0x3f00) >>> 8), UInt8.ofNat (coffs &&& 0xff)]

/-- The bytes for `out` and the new list. A failed assertion has no value, no
more than an access outside of the names. -/
def compress_name (inp : List UInt8) (offs : ℕ) (cb : List Compel) :
    Option (List UInt8 × List Compel) := do
  let ilen ← rhnlen inp
  if DNSNAMEBUFSIZE < ilen then none
  else
    let best ← findLongest inp cb ⟨0, 0, 0⟩
    if 0 < best.longest then
      if ilen < best.lrem + 2 then none
      else
        some (inp.take best.lrem ++ pointer best.coffs,
          if best.lrem ≠ 0 then cb ++ [⟨offs, inp.take ilen⟩] else cb)
    else some (inp.take ilen, cb ++ [⟨offs, inp.take ilen⟩])

/-! ## Pointers -/

theorem or_marked (x : UInt8) : 0xc0 ≤ (0xc0 : UInt8) ||| x := by
  rw [UInt8.le_iff_toNat_le, UInt8.toNat_or]
  exact Nat.left_le_or

theorem toNat_unmarked {x : UInt8} (small : x.toNat < 64) :
    (((0xc0 : UInt8) ||| x) &&& 0x3f).toNat = x.toNat := by
  have low_bits := Nat.and_two_pow_sub_one_eq_mod x.toNat 6
  rw [UInt8.toNat_and, UInt8.toNat_or, Nat.and_or_distrib_right]
  simp only [UInt8.reduceToNat, Nat.reducePow, Nat.add_one_sub_one, Nat.reduceAnd, Nat.zero_or]
    at low_bits ⊢
  omega

/-- What is written for a small offset is read as that offset. -/
theorem pointer_reads {coffs : ℕ} (small : coffs ≤ 0x3fff) :
    ∃ high low : UInt8, pointer coffs = [high, low] ∧ 0xc0 ≤ high ∧
      pointerOffset high low = coffs := by
  have low_byte : coffs &&& 0xff = coffs % 256 := Nat.and_two_pow_sub_one_eq_mod coffs 8
  have high_bits : (coffs &&& 0x3f00) >>> 8 = coffs / 256 := by
    have six_bits := Nat.and_two_pow_sub_one_eq_mod (coffs / 256) 6
    rw [Nat.shiftRight_and_distrib, Nat.shiftRight_eq_div_pow]
    simp only [Nat.reducePow, Nat.add_one_sub_one, Nat.reduceShiftRight] at six_bits ⊢
    omega
  have high_byte : (UInt8.ofNat (coffs / 256)).toNat = coffs / 256 := by
    rw [UInt8.toNat_ofNat']
    omega
  refine ⟨_, _, rfl, or_marked _, ?_⟩
  rw [low_byte, high_bits, pointerOffset, toNat_unmarked (by omega), high_byte,
    ← Nat.shiftLeft_add_eq_or_of_lt]
  · rw [UInt8.toNat_ofNat', Nat.shiftLeft_eq]
    omega
  · rw [UInt8.toNat_ofNat']
    omega

/-! ## What the list stands for -/

/-- The names of two lists of labels are the same up to the case of their letters. -/
def SameName (ls ls' : List Label) : Prop := foldedLabels ls = foldedLabels ls'

/-- An entry of the list: its name, and the number of labels that stand in the
message as they are. Whoever can point to one of those reads the rest of the name.
The other labels are those of an entry in front of it, and from where they were
pointed to there to the index of this entry the message only goes on. -/
structure Stands (msg : List UInt8) (before : List Compel) (c : Compel) (ls : List Label)
    (written : ℕ) : Prop where
  spelled : c.s = encode ls
  fits : (encode ls).length ≤ DNSNAMEBUFSIZE
  here : ∀ n < written, c.index + segmentStart ls n ≤ 0x3fff → ∃ ls' hops size,
    NameAt msg (c.index + segmentStart ls n) hops size ls' ∧ SameName ls' (ls.drop n) ∧
      hops + n ≤ ls.length
  elsewhere : written < ls.length → ∃ f ∈ before, ∃ fs n, f.s = encode fs ∧
    (encode fs).length ≤ DNSNAMEBUFSIZE ∧ SameName (ls.drop written) (fs.drop n) ∧
    f.index + segmentStart fs n ≤ c.index

/-- Every entry stands for a name. -/
def Usable (msg : List UInt8) (cb : List Compel) : Prop :=
  ∀ before c after, cb = before ++ c :: after → ∃ ls written, Stands msg before c ls written

theorem Stands.append {msg : List UInt8} {before : List Compel} {c : Compel} {ls : List Label}
    {written : ℕ} (stands : Stands msg before c ls written) (more : List UInt8) :
    Stands (msg ++ more) before c ls written := by
  refine { stands with here := ?_ }
  intro n inside small
  obtain ⟨ls', hops, size, name, same, few⟩ := stands.here n inside small
  exact ⟨ls', hops, size, name.append more, same, few⟩

theorem Usable.append {msg : List UInt8} {cb : List Compel} (usable : Usable msg cb)
    (more : List UInt8) : Usable (msg ++ more) cb := by
  intro before c after split
  obtain ⟨ls, written, stands⟩ := usable before c after split
  exact ⟨ls, written, stands.append more⟩

theorem Usable.nil (msg : List UInt8) : Usable msg [] := by
  intro before c after split
  simp at split

theorem Usable.concat {msg : List UInt8} {cb : List Compel} {c : Compel} {ls : List Label}
    {written : ℕ} (usable : Usable msg cb) (stands : Stands msg cb c ls written) :
    Usable msg (cb ++ [c]) := by
  intro before c' after split
  rcases List.eq_nil_or_concat' after with rfl | ⟨after, last, rfl⟩
  · obtain ⟨rfl, eq⟩ := List.append_inj' split rfl
    obtain rfl := (List.cons.inj eq).1
    exact ⟨ls, written, stands⟩
  · have inside : cb ++ [c] = (before ++ c' :: after) ++ [last] := by simpa using split
    exact usable before c' after (List.append_inj' inside rfl).1

/-! ## Names that share an end -/

theorem sharedSegments_le_left (ls ls' : List Label) : sharedSegments ls ls' ≤ ls.length := by
  simpa [sharedSegments] using sharedSuffix_le_left (foldedLabels ls) (foldedLabels ls')

theorem sharedSegments_le_right (ls ls' : List Label) : sharedSegments ls ls' ≤ ls'.length := by
  simpa [sharedSegments] using sharedSuffix_le_right (foldedLabels ls) (foldedLabels ls')

theorem sameName_shared (ls ls' : List Label) :
    SameName (ls.drop (ls.length - sharedSegments ls ls'))
      (ls'.drop (ls'.length - sharedSegments ls ls')) := by
  have shared := drop_sharedSuffix (foldedLabels ls) (foldedLabels ls')
  simpa only [SameName, sharedSegments, foldedLabels_drop, length_foldedLabels] using shared

theorem SameName.length {ls ls' : List Label} (same : SameName ls ls') :
    ls.length = ls'.length := by
  simpa using congrArg List.length same

theorem SameName.drop {ls ls' : List Label} (same : SameName ls ls') (n : ℕ) :
    SameName (ls.drop n) (ls'.drop n) := by
  simpa only [SameName, foldedLabels_drop] using congrArg (List.drop n) same

theorem SameName.take {ls ls' : List Label} (same : SameName ls ls') (n : ℕ) :
    SameName (ls.take n) (ls'.take n) := by
  simpa only [SameName, foldedLabels, List.map_take] using congrArg (List.take n) same

theorem SameName.length_encode {ls ls' : List Label} (same : SameName ls ls') :
    (encode ls).length = (encode ls').length := by
  rw [Pdnsd.length_encode, Pdnsd.length_encode, length_encodedLabels_of_folded same]

/-- Where a match runs into the part of an entry that stands elsewhere, the entry
it stands in matches as much, and its offset is no larger. -/
theorem earlier_match {inp ls fs : List Label} {index index' written n : ℕ}
    (same : SameName (ls.drop written) (fs.drop n)) (inside : written ≤ ls.length)
    (order : index' + segmentStart fs n ≤ index)
    (beyond : written ≤ ls.length - sharedSegments inp ls)
    (some_match : 0 < sharedSegments inp ls) :
    sharedSegments inp ls ≤ sharedSegments inp fs ∧
      index' + segmentStart fs (fs.length - sharedSegments inp fs) ≤
        index + segmentStart ls (ls.length - sharedSegments inp ls) := by
  have lengths : ls.length - written = fs.length - n := by simpa using same.length
  have shared := sharedSegments_le_right inp ls
  obtain ⟨d, split⟩ := Nat.exists_eq_add_of_le beyond
  have tail : SameName (inp.drop (inp.length - sharedSegments inp ls)) (fs.drop (n + d)) := by
    have first := sameName_shared inp ls
    rw [split, ← List.drop_drop] at first
    rw [← List.drop_drop]
    exact first.trans (same.drop d)
  have as_much : sharedSegments inp ls ≤ sharedSegments inp fs := by
    have left := sharedSegments_le_left inp ls
    rw [SameName, foldedLabels_drop, foldedLabels_drop] at tail
    have enough := le_sharedSuffix_of_drop tail
    rw [length_foldedLabels, Nat.sub_sub_self left] at enough
    exact enough
  refine ⟨as_much, ?_⟩
  have start : fs.length - sharedSegments inp ls = n + d := by omega
  have mono : segmentStart fs (fs.length - sharedSegments inp fs) ≤ segmentStart fs (n + d) :=
    segmentStart_mono fs (by omega)
  have between := length_encodedLabels_of_folded (same.take d)
  rw [segmentStart_add] at mono
  rw [split, segmentStart_add]
  omega

/-! ## The loop over the list -/

/-- What a pointer to the best match so far reads, and the entry it is from. -/
structure Found (msg : List UInt8) (cb : List Compel) (inp : List Label) (best : Best) : Prop where
  few : best.longest ≤ inp.length
  small : best.coffs ≤ 0x3fff
  rem : best.lrem = segmentStart inp (inp.length - best.longest)
  reads : ∃ ls' hops size, NameAt msg best.coffs hops size ls' ∧
    SameName ls' (inp.drop (inp.length - best.longest)) ∧ hops ≤ best.longest
  source : ∃ f ∈ cb, ∃ fs n, f.s = encode fs ∧ (encode fs).length ≤ DNSNAMEBUFSIZE ∧
    SameName (inp.drop (inp.length - best.longest)) (fs.drop n) ∧
    f.index + segmentStart fs n = best.coffs

/-- The loop has a best match for what it has seen of the list. -/
structure Searched (msg : List UInt8) (seen : List Compel) (inp : List Label)
    (rest : List UInt8) (best : Best) : Prop where
  found : 0 < best.longest → Found msg seen inp best
  longest : ∀ f ∈ seen, ∀ rv rem to', domain_match (encode inp ++ rest) f.s = some (rv, rem, to') →
    f.index + to' ≤ 0x3fff → rv ≤ best.longest

theorem Found.more {msg : List UInt8} {cb : List Compel} {inp : List Label} {best : Best}
    (found : Found msg cb inp best) (c : Compel) : Found msg (cb ++ [c]) inp best := by
  obtain ⟨f, mem, source⟩ := found.source
  exact { found with source := ⟨f, List.mem_append_left _ mem, source⟩ }

/-- An entry that does not replace the best match. -/
theorem Searched.skip {msg rest : List UInt8} {seen : List Compel} {inp : List Label} {best : Best}
    {c : Compel} (searched : Searched msg seen inp rest best)
    (no_better : ∀ rv rem to', domain_match (encode inp ++ rest) c.s = some (rv, rem, to') →
      c.index + to' ≤ 0x3fff → rv ≤ best.longest) :
    Searched msg (seen ++ [c]) inp rest best := by
  constructor
  case found =>
    intro some_match
    exact (searched.found some_match).more c
  case longest =>
    intro f mem
    rcases List.mem_append.mp mem with mem | mem
    · exact searched.longest f mem
    · rw [List.mem_singleton.mp mem]
      exact no_better

/-- The first of the longest matches is one in the part of an entry that stands
in the message as it is. -/
theorem Searched.replace {msg rest : List UInt8} {seen : List Compel} {inp ls : List Label}
    {best : Best} {c : Compel} {written : ℕ} (searched : Searched msg seen inp rest best)
    (fits : (encode inp).length ≤ DNSNAMEBUFSIZE) (stands : Stands msg seen c ls written)
    (better : best.longest < sharedSegments inp ls)
    (small : c.index + segmentStart ls (ls.length - sharedSegments inp ls) ≤ 0x3fff) :
    Searched msg (seen ++ [c]) inp rest
      ⟨sharedSegments inp ls, segmentStart inp (inp.length - sharedSegments inp ls),
        c.index + segmentStart ls (ls.length - sharedSegments inp ls)⟩ := by
  have shared := sharedSegments_le_right inp ls
  have as_it_is : ls.length - sharedSegments inp ls < written := by
    by_contra beyond
    obtain ⟨f, mem, fs, n, spelled, fits', same, order⟩ := stands.elsewhere (by omega)
    have first := earlier_match same (by omega) order (Nat.le_of_not_lt beyond) (by omega)
    have matched := domain_match_encode rest [] fits fits'
    rw [List.append_nil, ← spelled] at matched
    have seen_longest := searched.longest f mem _ _ _ matched (first.2.trans small)
    omega
  obtain ⟨ls', hops, size, name, same, few⟩ := stands.here _ as_it_is small
  have same_end := sameName_shared inp ls
  have few' : hops ≤ sharedSegments inp ls := by omega
  constructor
  case found =>
    intro _
    exact ⟨sharedSegments_le_left inp ls, small, rfl,
      ⟨ls', hops, size, name, same.trans same_end.symm, few'⟩,
      ⟨c, by simp, ls, _, stands.spelled, stands.fits, same_end, rfl⟩⟩
  case longest =>
    intro f mem rv rem to' matched inside
    rcases List.mem_append.mp mem with mem | mem
    · exact (searched.longest f mem rv rem to' matched inside).trans better.le
    · rw [List.mem_singleton.mp mem, stands.spelled, ← List.append_nil (encode ls),
        domain_match_encode rest [] fits stands.fits] at matched
      exact (Prod.mk.inj (Option.some.inj matched)).1.ge

theorem findLongest_searched {msg rest : List UInt8} {seen cb : List Compel} {inp : List Label}
    {best : Best} (fits : (encode inp).length ≤ DNSNAMEBUFSIZE)
    (usable : Usable msg (seen ++ cb)) (searched : Searched msg seen inp rest best) :
    ∃ best', findLongest (encode inp ++ rest) cb best = some best' ∧
      Searched msg (seen ++ cb) inp rest best' := by
  induction cb generalizing seen best with
  | nil => exact ⟨best, rfl, by simpa using searched⟩
  | cons c cb ih =>
      obtain ⟨ls, written, stands⟩ := usable seen c cb rfl
      have matched := domain_match_encode rest [] fits stands.fits
      rw [List.append_nil, ← stands.spelled] at matched
      have whole : seen ++ c :: cb = (seen ++ [c]) ++ cb := by simp
      rw [whole] at usable ⊢
      simp only [findLongest, matched]
      split_ifs with better small
      · exact ih usable (searched.replace fits stands better small)
      · refine ih usable (searched.skip ?_)
        intro rv rem to' matched' inside
        obtain ⟨rfl, rfl, rfl⟩ := Option.some.inj (matched.symm.trans matched')
        exact absurd inside small
      · refine ih usable (searched.skip ?_)
        intro rv rem to' matched' inside
        obtain ⟨rfl, rfl, rfl⟩ := Option.some.inj (matched.symm.trans matched')
        exact Nat.le_of_not_lt better

/-! ## Names that can be pointed to -/

/-- The whole name is the end of one in the list and small offsets reach it there.
In a message that is too long for them there is nothing to point to any more. -/
def Listed (size : ℕ) (cb : List Compel) (ls : List Label) : Prop :=
  0x3fff < size ∨ ∃ c ∈ cb, ∃ ms n, c.s = encode ms ∧ (encode ms).length ≤ DNSNAMEBUFSIZE ∧
    SameName ls (ms.drop n) ∧ c.index + segmentStart ms n ≤ 0x3fff

theorem Listed.mono {size size' : ℕ} {cb cb' : List Compel} {ls : List Label}
    (listed : Listed size cb ls) (longer : size ≤ size') (grown : cb <+: cb') :
    Listed size' cb' ls := by
  rcases listed with beyond | ⟨c, mem, listed⟩
  · exact .inl (Nat.lt_of_lt_of_le beyond longer)
  · exact .inr ⟨c, grown.subset mem, listed⟩

theorem Listed.concat {size offs : ℕ} {cb : List Compel} {ls : List Label}
    (fits : (encode ls).length ≤ DNSNAMEBUFSIZE) (inside : offs ≤ size) :
    Listed size (cb ++ [⟨offs, encode ls⟩]) ls := by
  by_cases beyond : 0x3fff < size
  · exact .inl beyond
  · exact .inr ⟨_, List.mem_append_right _ (List.mem_singleton_self _), ls, 0, rfl, fits, rfl,
      by simp only [segmentStart_zero]; omega⟩

/-- Labels take up bytes. -/
theorem segmentStart_pos {ls : List Label} {n : ℕ} (some_label : 0 < n) (inside : n ≤ ls.length) :
    0 < segmentStart ls n := by
  have labels := two_mul_length_le (ls.take n)
  rw [List.length_take, Nat.min_eq_left inside] at labels
  simp only [segmentStart]
  omega

theorem Found.listed {msg : List UInt8} {cb : List Compel} {inp : List Label} {best : Best}
    {size : ℕ} (found : Found msg cb inp best) (whole : best.lrem = 0) : Listed size cb inp := by
  have all : inp.length - best.longest = 0 := by
    by_contra part
    have := segmentStart_pos (Nat.pos_of_ne_zero part) (Nat.sub_le _ _)
    rw [← found.rem] at this
    omega
  obtain ⟨f, mem, fs, n, spelled, fits, same, index⟩ := found.source
  rw [all, List.drop_zero] at same
  exact .inr ⟨f, mem, fs, n, spelled, fits, same, index.trans_le found.small⟩

/-- A name that can be pointed to is found as a whole. -/
theorem Searched.whole {msg rest : List UInt8} {cb : List Compel} {inp : List Label} {best : Best}
    {size : ℕ} (searched : Searched msg cb inp rest best)
    (fits : (encode inp).length ≤ DNSNAMEBUFSIZE) (listed : Listed size cb inp)
    (small : size ≤ 0x3fff) : inp.length ≤ best.longest := by
  obtain ⟨c, mem, ms, n, spelled, fits', same, index⟩ := listed.resolve_left (by omega)
  have matched := domain_match_encode rest [] fits fits'
  rw [List.append_nil, ← spelled] at matched
  have lengths : inp.length = ms.length - n := by simpa using same.length
  have shared : inp.length ≤ sharedSegments inp ms := by
    have ends : (foldedLabels inp).drop 0 = (foldedLabels ms).drop n := by
      rw [List.drop_zero, ← foldedLabels_drop]
      exact same
    have enough := le_sharedSuffix_of_drop ends
    rwa [length_foldedLabels, Nat.sub_zero] at enough
  have shared' := sharedSegments_le_left inp ms
  refine shared.trans (searched.longest c mem _ _ _ matched ?_)
  have start := segmentStart_mono ms (show ms.length - sharedSegments inp ms ≤ n by omega)
  omega

/-! ## What is written -/

/-- Labels that stand in front of a name are read with it. -/
theorem NameAt.after_labels {msg rest : List UInt8} {off hops size : ℕ} {ls tail : List Label}
    (front : msg.drop off = encodedLabels ls ++ rest)
    (name : NameAt msg (off + (encodedLabels ls).length) hops size tail) :
    NameAt msg off hops ((encodedLabels ls).length + size) (ls ++ tail) := by
  induction ls generalizing off with
  | nil => simpa [encodedLabels] using name
  | cons l ls ih =>
      have here : msg.drop off = l.encoded ++ (encodedLabels ls ++ rest) := by
        simpa [encodedLabels] using front
      have length : (encodedLabels (l :: ls)).length =
          l.encoded.length + (encodedLabels ls).length := by
        simp [encodedLabels]
      rw [length, ← Nat.add_assoc] at name
      rw [length, Nat.add_assoc]
      exact .label ⟨_, here.symm⟩ (ih (drop_of_drop here) name)

/-- A name that is written as it is. -/
theorem nameAt_whole {msg : List UInt8} {off : ℕ} {ls : List Label} {rest : List UInt8}
    (here : msg.drop off = encode ls ++ rest) : NameAt msg off 0 (encode ls).length ls := by
  have front : msg.drop off = encodedLabels ls ++ ([0] ++ rest) := by simpa [encode_eq] using here
  have root : NameAt msg (off + (encodedLabels ls).length) 0 1 [] :=
    .root (read_of_drop (drop_of_drop front))
  have name := NameAt.after_labels front root
  rwa [List.append_nil, ← length_encode] at name

/-- A name that ends in a pointer. -/
theorem nameAt_pointer {msg : List UInt8} {off coffs hops size : ℕ} {ls ls' : List Label}
    (here : msg.drop off = encodedLabels ls ++ pointer coffs) (small : coffs ≤ 0x3fff)
    (target : NameAt msg coffs hops size ls') :
    NameAt msg off (hops + 1) ((encodedLabels ls).length + 2) (ls ++ ls') := by
  obtain ⟨high, low, bytes, marked, reads⟩ := pointer_reads small
  rw [bytes] at here
  have at_pointer : msg.drop (off + (encodedLabels ls).length) = [high] ++ [low] :=
    drop_of_drop here
  refine .after_labels here (.pointer (read_of_drop at_pointer) marked ?_ (reads.symm ▸ target))
  exact read_of_drop (drop_of_drop at_pointer)

theorem SameName.append_left {ls ls' : List Label} (front : List Label) (same : SameName ls ls') :
    SameName (front ++ ls) (front ++ ls') := by
  simpa only [SameName, foldedLabels, List.map_append, List.append_cancel_left_eq] using same

/-- From any label on that is written as it is, the same bytes are read. -/
theorem drop_written {msg tail : List UInt8} {off : ℕ} {ls : List Label}
    (here : msg.drop off = encodedLabels ls ++ tail) (n : ℕ) :
    msg.drop (off + segmentStart ls n) = encodedLabels (ls.drop n) ++ tail := by
  have split : encodedLabels ls = encodedLabels (ls.take n) ++ encodedLabels (ls.drop n) := by
    rw [encodedLabels, encodedLabels, encodedLabels, ← List.flatMap_append, List.take_append_drop]
  rw [split, List.append_assoc] at here
  exact drop_of_drop here

theorem drop_message (msg out : List UInt8) : (msg ++ out).drop msg.length = out :=
  List.drop_left

theorem stands_whole {msg : List UInt8} {cb : List Compel} {inp : List Label}
    (fits : (encode inp).length ≤ DNSNAMEBUFSIZE) :
    Stands (msg ++ encode inp) cb ⟨msg.length, encode inp⟩ inp inp.length := by
  refine ⟨rfl, fits, ?_, fun beyond => absurd beyond (Nat.lt_irrefl _)⟩
  intro n inside _
  have here : (msg ++ encode inp).drop (msg.length + segmentStart inp n) =
      encode (inp.drop n) ++ [] := by
    rw [← List.drop_drop, drop_message, drop_segmentStart, List.append_nil]
  exact ⟨inp.drop n, 0, _, nameAt_whole here, rfl, by omega⟩

theorem stands_pointer {msg : List UInt8} {cb : List Compel} {inp : List Label} {best : Best}
    (fits : (encode inp).length ≤ DNSNAMEBUFSIZE) (some_match : 0 < best.longest)
    (found : Found msg cb inp best) :
    Stands (msg ++ (encodedLabels (inp.take (inp.length - best.longest)) ++ pointer best.coffs)) cb
      ⟨msg.length, encode inp⟩ inp (inp.length - best.longest) := by
  obtain ⟨ls', hops, size, name, same, few⟩ := found.reads
  refine ⟨rfl, fits, ?_, ?_⟩
  case refine_1 =>
    intro n inside _
    have here := drop_written (drop_message msg
      (encodedLabels (inp.take (inp.length - best.longest)) ++ pointer best.coffs)) n
    have start : segmentStart (inp.take (inp.length - best.longest)) n = segmentStart inp n := by
      rw [segmentStart, List.take_take, Nat.min_eq_left inside.le, segmentStart]
    have whole : inp.drop n = (inp.take (inp.length - best.longest)).drop n ++
        inp.drop (inp.length - best.longest) := by
      conv_lhs => rw [← List.take_append_drop (inp.length - best.longest) inp]
      rw [List.drop_append_of_le_length]
      simp only [List.length_take]
      omega
    rw [start] at here
    refine ⟨_, hops + 1, _, nameAt_pointer here found.small (name.append _), ?_, ?_⟩
    · rw [whole]
      exact same.append_left _
    · have := found.few
      omega
  case refine_2 =>
    intro _
    obtain ⟨f, mem, fs, n, spelled, fits', same', index⟩ := found.source
    refine ⟨f, mem, fs, n, spelled, fits', same', ?_⟩
    rw [index]
    exact name.inside.le

/-- A name that is put at the end of a message is read there, whatever part of it
was written as a pointer, and the list stays of use for the next name. -/
theorem compress_name_reads {msg : List UInt8} {cb : List Compel} {inp : List Label}
    (rest : List UInt8) (usable : Usable msg cb) (fits : (encode inp).length ≤ DNSNAMEBUFSIZE) :
    ∃ out cb', compress_name (encode inp ++ rest) msg.length cb = some (out, cb') ∧
      out.length ≤ (encode inp).length ∧ Usable (msg ++ out) cb' ∧ cb <+: cb' ∧
      Listed (msg.length + out.length) cb' inp ∧
      ∃ ls hops, NameAt (msg ++ out) msg.length hops out.length ls ∧ SameName ls inp ∧
        hops ≤ inp.length + 1 := by
  have start : Searched msg [] inp rest ⟨0, 0, 0⟩ :=
    ⟨fun none => absurd none (Nat.lt_irrefl 0), fun f mem => absurd mem List.not_mem_nil⟩
  obtain ⟨best, found_best, searched⟩ := findLongest_searched fits (by simpa using usable) start
  rw [List.nil_append] at searched
  simp only [compress_name, rhnlen_encode, Option.bind_eq_bind, Option.bind_some,
    if_neg (Nat.not_lt.mpr fits), found_best, List.take_left]
  by_cases some_match : 0 < best.longest
  · have found := searched.found some_match
    obtain ⟨ls', hops, size, name, same, few⟩ := found.reads
    have in_inp := found.few
    have split : (encode inp).length = best.lrem +
        (encode (inp.drop (inp.length - best.longest))).length := by
      rw [found.rem, ← drop_segmentStart, List.length_drop, Nat.add_sub_cancel']
      rw [segmentStart, length_encode, ← encodedLabels_take_drop inp (inp.length - best.longest)]
      omega
    have tail := two_mul_length_le (inp.drop (inp.length - best.longest))
    rw [List.length_drop, Nat.sub_sub_self in_inp] at tail
    rw [length_encode (inp.drop _)] at split
    have front : (encode inp ++ rest).take best.lrem =
        encodedLabels (inp.take (inp.length - best.longest)) := by
      rw [List.take_append_of_le_length (by omega), found.rem, take_segmentStart]
    have stands := stands_pointer fits some_match found
    have at_end : (msg ++ (encodedLabels (inp.take (inp.length - best.longest)) ++
        pointer best.coffs)).drop msg.length =
        encodedLabels (inp.take (inp.length - best.longest)) ++ pointer best.coffs :=
      drop_message _ _
    have read := nameAt_pointer at_end found.small (name.append _)
    have length : (encodedLabels (inp.take (inp.length - best.longest)) ++
        pointer best.coffs).length = best.lrem + 2 := by
      rw [List.length_append, found.rem, segmentStart]
      rfl
    rw [if_pos some_match, if_neg (by omega), front]
    refine ⟨_, _, rfl, by omega, ?_, ?_, ?_, inp.take (inp.length - best.longest) ++ ls', hops + 1,
      ?_, ?_, by omega⟩
    · split_ifs with some_label
      · exact (usable.append _).concat stands
      · exact usable.append _
    · split_ifs with some_label
      · exact List.prefix_append _ _
      · exact List.prefix_rfl
    · split_ifs with some_label
      · exact .concat fits (by omega)
      · exact found.listed (not_not.mp some_label)
    · rw [List.length_append]
      exact read
    · have parts := List.take_append_drop (inp.length - best.longest) inp
      conv_rhs => rw [← parts]
      exact same.append_left _
  · rw [if_neg some_match]
    refine ⟨_, _, rfl, Nat.le_refl _, (usable.append _).concat (stands_whole fits),
      List.prefix_append _ _, .concat fits (by omega), inp, 0, ?_, rfl, Nat.zero_le _⟩
    exact nameAt_whole (by rw [drop_message, List.append_nil])

/-- Where the offset is too large for any pointer, whatever name may stand. -/
theorem stands_beyond {msg : List UInt8} {cb : List Compel} {offs : ℕ} {inp : List Label}
    (fits : (encode inp).length ≤ DNSNAMEBUFSIZE) (beyond : 0x3fff < offs) :
    Stands msg cb ⟨offs, encode inp⟩ inp inp.length := by
  refine ⟨rfl, fits, ?_, fun more => absurd more (Nat.lt_irrefl _)⟩
  intro n _ small
  simp only at small
  omega

/-- The list stays of use when a name that can be pointed to is not written after all. -/
theorem compress_name_taken_back {msg out : List UInt8} {cb cb' : List Compel} {inp : List Label}
    {rest : List UInt8} (usable : Usable msg cb) (fits : (encode inp).length ≤ DNSNAMEBUFSIZE)
    (listed : Listed msg.length cb inp)
    (result : compress_name (encode inp ++ rest) msg.length cb = some (out, cb')) :
    Usable msg cb' := by
  have start : Searched msg [] inp rest ⟨0, 0, 0⟩ :=
    ⟨fun none => absurd none (Nat.lt_irrefl 0), fun f mem => absurd mem List.not_mem_nil⟩
  obtain ⟨best, found_best, searched⟩ := findLongest_searched fits (by simpa using usable) start
  rw [List.nil_append] at searched
  simp only [compress_name, rhnlen_encode, Option.bind_eq_bind, Option.bind_some,
    if_neg (Nat.not_lt.mpr fits), found_best, List.take_left] at result
  -- what is added to the list stands there, or is never looked at
  have concat : best.longest < inp.length ∨ inp.length = 0 →
      Usable msg (cb ++ [⟨msg.length, encode inp⟩]) := by
    rintro (part | root)
    · by_cases small : msg.length ≤ 0x3fff
      · have := searched.whole fits listed small
        omega
      · exact usable.concat (stands_beyond fits (Nat.lt_of_not_le small))
    · have nothing : Stands msg cb ⟨msg.length, encode inp⟩ inp 0 := by
        refine ⟨rfl, fits, fun n none => absurd none (Nat.not_lt_zero n), ?_⟩
        intro some_label
        omega
      exact usable.concat nothing
  split_ifs at result with some_match short some_label
  · obtain ⟨-, rfl⟩ := Prod.mk.inj (Option.some.inj result)
    refine concat (.inl ?_)
    have found := searched.found some_match
    by_contra whole
    rw [found.rem, show inp.length - best.longest = 0 by omega, segmentStart_zero] at some_label
    exact some_label rfl
  · obtain ⟨-, rfl⟩ := Prod.mk.inj (Option.some.inj result)
    exact usable
  · obtain ⟨-, rfl⟩ := Prod.mk.inj (Option.some.inj result)
    refine concat ?_
    omega

end Orbot.Pdnsd
