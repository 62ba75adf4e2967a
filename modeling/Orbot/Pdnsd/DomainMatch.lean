import Orbot.Pdnsd.Rhn

/-! # Comparing names from the end

`domain_match` compares two names segment by segment from the last one on. What
it returns is the longest end the two have in common, and where that starts in
either of them.
-/

namespace Orbot.Pdnsd

open Lib.CommonSuffix

/-- The loop that collects the length bytes of a name, here the last one first.
A name of more than 128 segments fails the assertion. -/
def collect (m : List UInt8) (i : ℕ) (lengths : List UInt8) : Option (ℕ × List UInt8) :=
  match _h : m[i]? with
  | none => none
  | some lb =>
      if lb = 0 then some (i, lengths)
      else if 128 ≤ lengths.length then none
      else collect m (i + (lb.toNat + 1)) (lb :: lengths)
termination_by m.length - i
decreasing_by
  have := (List.getElem?_eq_some_iff.mp ‹m[i]? = some lb›).1
  omega

/-- The inner loop: `lb` bytes before the indices `i` and `j`. -/
def sameBackwards (ms md : List UInt8) : ℕ → ℕ → ℕ → Option Bool
  | 0, _, _ => some true
  | lb + 1, i + 1, j + 1 => do
      let x ← ms[i]?
      let y ← md[j]?
      if tolower x = tolower y then sameBackwards ms md lb i j else some false
  | _ + 1, _, _ => none

/-- The loop over the segments: `k` of them match so far, and the rest of their
length bytes is left. -/
def matchSegments (ms md : List UInt8) :
    List UInt8 → List UInt8 → ℕ → ℕ → ℕ → Option (ℕ × ℕ × ℕ)
  | lb :: ls, lb' :: ld, i, j, k =>
      if lb ≠ lb' then some (k, i, j)
      else
        match sameBackwards ms md lb.toNat i j with
        | none => none
        | some false => some (k, i, j)
        | some true => matchSegments ms md ls ld (i - lb.toNat - 1) (j - lb.toNat - 1) (k + 1)
  | [], _, i, j, k => some (k, i, j)
  | _, [], i, j, k => some (k, i, j)

/-- The number of segments, `*os` and `*od`. -/
def domain_match (ms md : List UInt8) : Option (ℕ × ℕ × ℕ) := do
  let (i, ls) ← collect ms 0 []
  let (j, ld) ← collect md 0 []
  matchSegments ms md ls ld i j 0

/-! ## The end two names share -/

/-- Where the segment with a given number starts. -/
def segmentStart (ls : List Label) (n : ℕ) : ℕ := (encodedLabels (ls.take n)).length

theorem drop_segmentStart (ls : List Label) (n : ℕ) :
    (encode ls).drop (segmentStart ls n) = encode (ls.drop n) := by
  have split : encode ls = encodedLabels (ls.take n) ++ encode (ls.drop n) := by
    rw [← encode_append, List.take_append_drop]
  rw [split, segmentStart, List.drop_left]

theorem take_segmentStart (ls : List Label) (n : ℕ) :
    (encode ls).take (segmentStart ls n) = encodedLabels (ls.take n) := by
  have split : encode ls = encodedLabels (ls.take n) ++ encode (ls.drop n) := by
    rw [← encode_append, List.take_append_drop]
  rw [split, segmentStart, List.take_left]

@[simp] theorem segmentStart_zero (ls : List Label) : segmentStart ls 0 = 0 := rfl

@[simp] theorem segmentStart_length (ls : List Label) :
    segmentStart ls ls.length = (encodedLabels ls).length := by
  rw [segmentStart, List.take_length]

theorem segmentStart_concat {ls : List Label} {n : ℕ} (inside : n ≤ ls.length) (l : Label) :
    segmentStart (ls ++ [l]) n = segmentStart ls n := by
  rw [segmentStart, List.take_append_of_le_length inside, segmentStart]

theorem length_encodedLabels_concat (ls : List Label) (l : Label) :
    (encodedLabels (ls ++ [l])).length = (encodedLabels ls).length + (l.octets.length + 1) := by
  simp [encodedLabels]

theorem segmentStart_add (ls : List Label) (n d : ℕ) :
    segmentStart ls (n + d) = segmentStart ls n + (encodedLabels ((ls.drop n).take d)).length := by
  simp only [segmentStart, encodedLabels, List.take_add, List.flatMap_append, List.length_append]

theorem segmentStart_mono (ls : List Label) {n m : ℕ} (le : n ≤ m) :
    segmentStart ls n ≤ segmentStart ls m := by
  obtain ⟨d, rfl⟩ := Nat.exists_eq_add_of_le le
  rw [segmentStart_add]
  omega

/-- How many of their last segments two names share. -/
def sharedSegments (ls ls' : List Label) : ℕ :=
  sharedSuffix (foldedLabels ls) (foldedLabels ls')

theorem sharedSegments_concat (ls ls' : List Label) (l l' : Label) :
    sharedSegments (ls ++ [l]) (ls' ++ [l']) =
      if l.folded = l'.folded then sharedSegments ls ls' + 1 else 0 := by
  simp [sharedSegments, sharedSuffix, foldedLabels, sharedPrefix]

theorem collect_encode {m rest : List UInt8} {i : ℕ} {ls : List Label} {lengths : List UInt8}
    (at_i : m.drop i = encode ls ++ rest) (few : lengths.length + ls.length ≤ 128) :
    collect m i lengths =
      some (i + (encodedLabels ls).length, (ls.map Label.lengthByte).reverse ++ lengths) := by
  induction ls generalizing i lengths with
  | nil =>
      rw [collect]
      split
      next outside => simp [drop_root at_i] at outside
      next lb read =>
        obtain rfl := Option.some.inj ((drop_root at_i).symm.trans read)
        rfl
  | cons l ls ih =>
      obtain ⟨read, -, next⟩ := drop_label at_i
      simp only [List.length_cons] at few
      rw [collect]
      split
      next outside => simp [read] at outside
      next lb found =>
        obtain rfl := Option.some.inj (read.symm.trans found)
        rw [if_neg l.lengthByte_ne_zero, if_neg (by omega), l.lengthByte_toNat,
          show i + (l.octets.length + 1) = i + 1 + l.octets.length by omega,
          ih next (by simp only [List.length_cons]; omega)]
        simp [encodedLabels]
        omega

/-- What is collected from the start of a name. -/
theorem collect_whole {ls : List Label} (rest : List UInt8) (few : ls.length ≤ 127) :
    collect (encode ls ++ rest) 0 [] =
      some ((encodedLabels ls).length, (ls.map Label.lengthByte).reverse) := by
  have start : (encode ls ++ rest).drop 0 = encode ls ++ rest := List.drop_zero
  rw [collect_encode start (by simp only [List.length_nil]; omega), Nat.zero_add, List.append_nil]

theorem sameBackwards_append {ms md front front' xs ys rest rest' : List UInt8}
    (whole : ms = front ++ xs ++ rest) (whole' : md = front' ++ ys ++ rest')
    (lengths : xs.length = ys.length) :
    sameBackwards ms md xs.length (front.length + xs.length) (front'.length + xs.length) =
      some (decide (xs.map tolower = ys.map tolower)) := by
  induction xs using List.reverseRecOn generalizing ys rest rest' with
  | nil =>
      obtain rfl := List.length_eq_zero_iff.mp lengths.symm
      rfl
  | append_singleton xs x ih =>
      rcases List.eq_nil_or_concat' ys with rfl | ⟨ys, y, rfl⟩
      · simp at lengths
      · simp only [List.length_append, List.length_singleton, Nat.add_right_cancel_iff] at lengths
        have split : ms = front ++ xs ++ (x :: rest) := by simpa using whole
        have split' : md = front' ++ ys ++ (y :: rest') := by simpa using whole'
        have before := ih split split' lengths
        have read : ms[front.length + xs.length]? = some x := by simp [whole]
        have read' : md[front'.length + xs.length]? = some y := by simp [whole', lengths]
        simp only [List.length_append, List.length_singleton, ← Nat.add_assoc, sameBackwards, read,
          read', Option.bind_eq_bind, Option.bind_some, before, List.map_append, List.map_cons,
          List.map_nil]
        by_cases same : tolower x = tolower y
        · simp [same]
        · have other : xs.map tolower ++ [tolower x] ≠ ys.map tolower ++ [tolower y] := by
            intro eq
            exact same (List.cons.inj (List.append_inj_right' eq rfl)).1
          simp [same, other]

/-- The loop over the segments in front of what matches already. -/
theorem matchSegments_encode {ms md rest rest' : List UInt8} {ls ls' : List Label} (k : ℕ)
    (whole : ms = encodedLabels ls ++ rest) (whole' : md = encodedLabels ls' ++ rest') :
    matchSegments ms md (ls.map Label.lengthByte).reverse (ls'.map Label.lengthByte).reverse
        (encodedLabels ls).length (encodedLabels ls').length k =
      some (k + sharedSegments ls ls', segmentStart ls (ls.length - sharedSegments ls ls'),
        segmentStart ls' (ls'.length - sharedSegments ls ls')) := by
  induction ls using List.reverseRecOn generalizing ls' rest rest' k with
  | nil =>
      have none_shared : sharedSegments [] ls' = 0 :=
        Nat.le_zero.mp (sharedSuffix_le_left (foldedLabels []) _)
      simp only [List.map_nil, List.reverse_nil, matchSegments, none_shared, Nat.sub_zero,
        segmentStart_length, Nat.add_zero]
  | append_singleton ls l ih =>
      rcases List.eq_nil_or_concat' ls' with rfl | ⟨ls', l', rfl⟩
      · have none_shared : sharedSegments (ls ++ [l]) [] = 0 :=
          Nat.le_zero.mp (sharedSuffix_le_right _ (foldedLabels []))
        simp only [List.map_append, List.map_cons, List.map_nil, List.reverse_append,
          List.reverse_singleton, List.singleton_append, List.reverse_nil, matchSegments,
          none_shared, Nat.sub_zero, segmentStart_length, Nat.add_zero]
      · simp only [List.map_append, List.map_cons, List.map_nil, List.reverse_append,
          List.reverse_singleton, List.singleton_append, matchSegments, sharedSegments_concat]
        by_cases lengths : l.octets.length = l'.octets.length
        · have bytes : l.lengthByte = l'.lengthByte := by simp [Label.lengthByte, lengths]
          have split : ms = encodedLabels ls ++ [l.lengthByte] ++ l.octets ++ rest := by
            simpa [encodedLabels, Label.encoded] using whole
          have split' : md = encodedLabels ls' ++ [l'.lengthByte] ++ l'.octets ++ rest' := by
            simpa [encodedLabels, Label.encoded] using whole'
          have here := sameBackwards_append split split' lengths
          have start : (encodedLabels ls ++ [l.lengthByte]).length + l.octets.length =
              (encodedLabels (ls ++ [l])).length := by
            rw [length_encodedLabels_concat, List.length_append, List.length_singleton]
            omega
          have start' : (encodedLabels ls' ++ [l'.lengthByte]).length + l.octets.length =
              (encodedLabels (ls' ++ [l'])).length := by
            rw [length_encodedLabels_concat, List.length_append, List.length_singleton]
            omega
          rw [start, start'] at here
          rw [if_neg (not_not.mpr bytes), l.lengthByte_toNat, here]
          by_cases same : l.folded = l'.folded
          · have front : ms = encodedLabels ls ++ (l.encoded ++ rest) := by
              simpa [encodedLabels] using whole
            have front' : md = encodedLabels ls' ++ (l'.encoded ++ rest') := by
              simpa [encodedLabels] using whole'
            have before := ih (k + 1) front front'
            have shared := sharedSuffix_le_left (foldedLabels ls) (foldedLabels ls')
            have shared' := sharedSuffix_le_right (foldedLabels ls) (foldedLabels ls')
            rw [length_foldedLabels] at shared shared'
            have same' : l.octets.map tolower = l'.octets.map tolower := same
            have i : (encodedLabels (ls ++ [l])).length - l.octets.length - 1 =
                (encodedLabels ls).length := by
              rw [length_encodedLabels_concat]
              omega
            have j : (encodedLabels (ls' ++ [l'])).length - l.octets.length - 1 =
                (encodedLabels ls').length := by
              rw [length_encodedLabels_concat]
              omega
            simp only [same', decide_true, i, j, before, same, if_true, List.length_append,
              List.length_singleton, Nat.add_sub_add_right]
            rw [segmentStart_concat (Nat.sub_le _ _), segmentStart_concat (Nat.sub_le _ _),
              Nat.add_assoc k, Nat.add_comm 1]
          · have other : ¬l.octets.map tolower = l'.octets.map tolower := same
            simp only [other, decide_false, same, if_false, Nat.sub_zero, segmentStart_length,
              Nat.add_zero]
        · have bytes : l.lengthByte ≠ l'.lengthByte := by
            intro eq
            exact lengths (by simpa using congrArg UInt8.toNat eq)
          have other : l.folded ≠ l'.folded := by
            intro eq
            exact lengths (by simpa using congrArg List.length eq)
          simp only [ne_eq, bytes, not_false_eq_true, if_true, other, if_false, Nat.sub_zero,
            segmentStart_length, Nat.add_zero]

/-- Names that fit into the buffers have few enough segments. -/
theorem length_le_of_fits {ls : List Label} (fits : (encode ls).length ≤ DNSNAMEBUFSIZE) :
    ls.length ≤ 127 := by
  have := two_mul_length_le ls
  simp only [length_encode, DNSNAMEBUFSIZE] at fits
  omega

theorem domain_match_encode {ls ls' : List Label} (rest rest' : List UInt8)
    (fits : (encode ls).length ≤ DNSNAMEBUFSIZE) (fits' : (encode ls').length ≤ DNSNAMEBUFSIZE) :
    domain_match (encode ls ++ rest) (encode ls' ++ rest') =
      some (sharedSegments ls ls', segmentStart ls (ls.length - sharedSegments ls ls'),
        segmentStart ls' (ls'.length - sharedSegments ls ls')) := by
  have lengths := collect_whole rest (length_le_of_fits fits)
  have lengths' := collect_whole rest' (length_le_of_fits fits')
  have whole : encode ls ++ rest = encodedLabels ls ++ ([0] ++ rest) := by simp [encode_eq]
  have whole' : encode ls' ++ rest' = encodedLabels ls' ++ ([0] ++ rest') := by simp [encode_eq]
  simp only [domain_match, lengths, lengths', Option.bind_eq_bind, Option.bind_some]
  simpa only [Nat.zero_add] using matchSegments_encode 0 whole whole'

end Orbot.Pdnsd
