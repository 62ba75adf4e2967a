import Mathlib.Data.Stream.Init
import Orbot.Java.Text

/-! # Hashed passwords

`PasswordDigest.secretToKey` is the secret-to-key conversion of RFC 2440: the
salt and the secret are fed to the digest again and again, until the number of
octets that the ninth byte of the specifier stands for has gone in. The length of
salt and secret together is an `int` there: no longer array can be allocated.
-/

namespace Orbot.Control

open Java (RuntimeException)

/-- `java.security.MessageDigest`, with the instance for SHA-1. -/
structure MessageDigest where
  State : Type
  getInstance : State
  update : State → List UInt8 → State
  digest : State → List UInt8

/-- The digest of several updates is that of their concatenation, and has 20 bytes. -/
structure MessageDigest.Computes (d : MessageDigest) (sha1 : List UInt8 → List UInt8) : Prop where
  digest_updates : ∀ updates : List (List UInt8),
    d.digest (updates.foldl d.update d.getInstance) = sha1 updates.flatten
  digest_length : ∀ bytes, (sha1 bytes).length = 20

/-- `System.arraycopy` -/
def arraycopy (src : List UInt8) (srcPos : ℕ) (dest : List UInt8) (destPos length : ℕ) :
    Except RuntimeException (List UInt8) :=
  if srcPos + length ≤ src.length ∧ destPos + length ≤ dest.length then
    .ok (dest.take destPos ++ (src.drop srcPos).take length ++ dest.drop (destPos + length))
  else .error .indexOutOfBounds

/-- `count`, computed in 32 bits. A shift counts by the lowest five bits of its
    right operand. -/
def octetCount (specifier8 : UInt8) : BitVec 32 :=
  let c := BitVec.ofNat 32 specifier8.toNat &&& 0xff#32
  (16#32 + (c &&& 15#32)) <<< (((c.sshiftRight 4) + 6#32) &&& 31#32)

/-- `tmp` -/
def saltedSecret (secret specifier : List UInt8) : Except RuntimeException (List UInt8) := do
  let tmp := List.replicate (8 + secret.length) 0
  let tmp ← arraycopy specifier 0 tmp 0 8
  arraycopy secret 0 tmp 8 secret.length

/-- The loop, with what it passes to `update`; `none` where it has not ended
    after so many rounds. -/
def updateLoop (tmp : List UInt8) : ℕ → Int → Option (List (List UInt8))
  | 0, _ => none
  | fuel + 1, count =>
      if count > 0 then
        if count ≥ tmp.length then (updateLoop tmp fuel (count - tmp.length)).map (tmp :: ·)
        else (updateLoop tmp fuel 0).map (tmp.take count.toNat :: ·)
      else some []

/-- `key` -/
def keyBytes (specifier digest : List UInt8) : Except RuntimeException (List UInt8) := do
  let key := List.replicate (20 + 9) 0
  let key ← arraycopy digest 0 key 9 20
  arraycopy specifier 0 key 0 9

def secretToKey (d : MessageDigest) (fuel : ℕ) (secret specifier : List UInt8) :
    Option (Except RuntimeException (List UInt8)) :=
  match Java.get specifier 8 with
  | .error e => some (.error e)
  | .ok specifier8 =>
      match saltedSecret secret specifier with
      | .error e => some (.error e)
      | .ok tmp =>
          (updateLoop tmp fuel (octetCount specifier8).toInt).map fun updates =>
            keyBytes specifier (d.digest (updates.foldl d.update d.getInstance))

/-! ## The count -/

/-- The number of octets a byte stands for. -/
def codedCount (specifier8 : UInt8) : ℕ :=
  (16 + specifier8.toNat % 16) * Nat.pow 2 (specifier8.toNat / 16 + 6)

/-- The computation in 32 bits gives that number, which is positive. -/
theorem octetCount_toInt (specifier8 : UInt8) :
    (octetCount specifier8).toInt = codedCount specifier8 ∧ 0 < codedCount specifier8 := by
  have small : specifier8.toNat < 256 := specifier8.toNat_lt
  have all : ∀ n < 256,
      ((16#32 + ((BitVec.ofNat 32 n &&& 0xff#32) &&& 15#32)) <<<
          ((((BitVec.ofNat 32 n &&& 0xff#32).sshiftRight 4) + 6#32) &&& 31#32)).toInt =
        (((16 + n % 16) * Nat.pow 2 (n / 16 + 6) : ℕ) : Int) ∧
      0 < (16 + n % 16) * Nat.pow 2 (n / 16 + 6) := by
    decide +kernel
  exact all specifier8.toNat small

/-! ## The bytes that are fed -/

section Loop

variable {tmp : List UInt8} (nonempty : tmp ≠ [])

/-- The rounds feed the front of the endless repetition, and end. -/
theorem updateLoop_eq (count fuel : ℕ) (enough : count < fuel) :
    ∃ updates, updateLoop tmp fuel count = some updates ∧
      updates.flatten = (Stream'.cycle tmp nonempty).take count := by
  have positive : 0 < tmp.length := List.length_pos_iff.mpr nonempty
  induction fuel generalizing count with
  | zero => omega
  | succ fuel ih =>
      by_cases more : (count : Int) > 0
      · by_cases whole : (count : Int) ≥ tmp.length
        · have remaining : (count : Int) - tmp.length = ((count - tmp.length : ℕ) : Int) := by omega
          obtain ⟨updates, loop, fed⟩ := ih (count - tmp.length) (by omega)
          refine ⟨tmp :: updates, ?_, ?_⟩
          · rw [updateLoop, if_pos more, if_pos whole, remaining, loop]
            rfl
          · have parts : count = tmp.length + (count - tmp.length) := by omega
            rw [List.flatten_cons, fed, Stream'.append_take, ← Stream'.cycle_eq, ← parts]
        · have short : count ≤ tmp.length := by omega
          obtain ⟨updates, loop, fed⟩ := ih 0 (by omega)
          refine ⟨tmp.take count :: updates, ?_, ?_⟩
          · rw [updateLoop, if_pos more, if_neg whole, Int.toNat_natCast]
            have last : updateLoop tmp fuel 0 = some updates := loop
            rw [last]
            rfl
          · rw [List.flatten_cons, fed, Stream'.take_zero, List.append_nil, Stream'.cycle_eq]
            exact (Stream'.take_append_of_le_length _ _ _ short).symm
      · have done : count = 0 := by omega
        subst done
        refine ⟨[], ?_, rfl⟩
        rw [updateLoop, if_neg more]

end Loop

/-! ## The key -/

section Key

variable {specifier : List UInt8} (long : 9 ≤ specifier.length)
include long

theorem saltedSecret_eq (secret : List UInt8) :
    saltedSecret secret specifier = .ok (specifier.take 8 ++ secret) := by
  have salt : arraycopy specifier 0 (List.replicate (8 + secret.length) 0) 0 8 =
      .ok (specifier.take 8 ++ List.replicate secret.length 0) := by
    rw [arraycopy, if_pos ⟨by omega, by simp⟩]
    simp
  have rest : arraycopy secret 0 (specifier.take 8 ++ List.replicate secret.length 0) 8
      secret.length = .ok (specifier.take 8 ++ secret) := by
    have front : (specifier.take 8).length = 8 := by
      rw [List.length_take]
      omega
    rw [arraycopy, if_pos ⟨by simp, by simp [front]⟩]
    simp [front]
  rw [saltedSecret, salt]
  exact rest

theorem salted_ne_nil (secret : List UInt8) : specifier.take 8 ++ secret ≠ [] := by
  have some : specifier ≠ [] := List.ne_nil_of_length_pos (by omega)
  simp [some]

theorem keyBytes_eq {digest : List UInt8} (length : digest.length = 20) :
    keyBytes specifier digest = .ok (specifier.take 9 ++ digest) := by
  have back : arraycopy digest 0 (List.replicate (20 + 9) 0) 9 20 =
      .ok (List.replicate 9 0 ++ digest) := by
    have whole : digest.take 20 = digest := List.take_of_length_le length.le
    rw [arraycopy, if_pos ⟨by omega, by simp⟩]
    simp [whole]
  have front : arraycopy specifier 0 (List.replicate 9 0 ++ digest) 0 9 =
      .ok (specifier.take 9 ++ digest) := by
    rw [arraycopy, if_pos ⟨by omega, by simp⟩]
    simp
  rw [keyBytes, back]
  exact front

end Key

/-- The loop ends, what it feeds are the first `count` bytes of the endless
    repetition of salt and secret, and the key is the specifier with their digest. -/
theorem secretToKey_eq {d : MessageDigest} {sha1 : List UInt8 → List UInt8}
    (computes : d.Computes sha1) (secret : List UInt8) {specifier : List UInt8}
    (long : 9 ≤ specifier.length) :
    (octetCount specifier[8]).toInt = codedCount specifier[8] ∧ 0 < codedCount specifier[8] ∧
      ∀ fuel, codedCount specifier[8] < fuel →
        ∃ updates,
          updateLoop (specifier.take 8 ++ secret) fuel (octetCount specifier[8]).toInt =
              some updates ∧
            updates.flatten =
              (Stream'.cycle (specifier.take 8 ++ secret) (salted_ne_nil long secret)).take
                (codedCount specifier[8]) ∧
            secretToKey d fuel secret specifier =
              some (.ok (specifier.take 9 ++ sha1 updates.flatten)) := by
  obtain ⟨exact32, positive⟩ := octetCount_toInt specifier[8]
  refine ⟨exact32, positive, fun fuel enough => ?_⟩
  obtain ⟨updates, loop, fed⟩ := updateLoop_eq (salted_ne_nil long secret) _ fuel enough
  rw [exact32]
  refine ⟨updates, loop, fed, ?_⟩
  have ninth : Java.get specifier 8 = .ok specifier[8] := by
    rw [Java.get, List.getElem?_eq_getElem]
  simp only [secretToKey, ninth, saltedSecret_eq long, exact32, loop, Option.map_some,
    computes.digest_updates, keyBytes_eq long (computes.digest_length _)]

/-- The SHA-1 digest of 1024 bytes, the salt 1 to 8 and the letters t, o and r by
    turns. It is asked for no other, and does not look at what it is given. -/
def exampleSha1 : List UInt8 → List UInt8 := fun _ =>
  [121, 154, 255, 111, 211, 141, 146, 69, 166, 83, 18, 180, 48, 127, 56, 50, 205, 239, 177, 81]

def exampleDigest : MessageDigest where
  State := List UInt8
  getInstance := []
  update fed bytes := fed ++ bytes
  digest := exampleSha1

theorem exampleDigest_computes : exampleDigest.Computes exampleSha1 := by
  constructor
  case digest_updates =>
    intro updates
    rfl
  case digest_length =>
    intro bytes
    rfl

theorem secretToKey_eq_tor :
    secretToKey exampleDigest 1025 [116, 111, 114] [1, 2, 3, 4, 5, 6, 7, 8, 0] =
      some (.ok [1, 2, 3, 4, 5, 6, 7, 8, 0, 121, 154, 255, 111, 211, 141, 146, 69, 166, 83, 18, 180,
        48, 127, 56, 50, 205, 239, 177, 81]) := by
  have long : 9 ≤ [(1 : UInt8), 2, 3, 4, 5, 6, 7, 8, 0].length := by decide
  have enough : codedCount 0 < 1025 := by decide
  obtain ⟨updates, -, -, key⟩ :=
    (secretToKey_eq exampleDigest_computes [116, 111, 114] long).2.2 1025 enough
  exact key

end Orbot.Control
