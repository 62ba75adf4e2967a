import Orbot.Pdnsd.CompressName

/-! # Resource records

The types of records the cache holds, and what the data of a record are made of.
Two switches go over these types, one where an answer is assembled and one where
a reply is read. Either treats the data as a few kinds of fields in a row.
-/

namespace Orbot.Pdnsd

def T_MIN : ℕ := 1
def T_A : ℕ := 1
def T_NS : ℕ := 2
def T_MD : ℕ := 3
def T_MF : ℕ := 4
def T_CNAME : ℕ := 5
def T_SOA : ℕ := 6
def T_MB : ℕ := 7
def T_MG : ℕ := 8
def T_MR : ℕ := 9
def T_PTR : ℕ := 12
def T_MINFO : ℕ := 14
def T_MX : ℕ := 15
def T_RP : ℕ := 17
def T_AFSDB : ℕ := 18
def T_RT : ℕ := 21
def T_PX : ℕ := 26
def T_AAAA : ℕ := 28
def T_NXT : ℕ := 30
def T_SRV : ℕ := 33
def T_NAPTR : ℕ := 35
def T_KX : ℕ := 36
def T_OPT : ℕ := 41
def T_IPSECKEY : ℕ := 45
def T_RRSIG : ℕ := 46
def T_NSEC : ℕ := 47
def T_MAX : ℕ := 51

def C_IN : ℕ := 1

/-- `NRRMU + NRREXT`. -/
def NRRTOT : ℕ := 47

/-- The indices of the types from `T_MIN` on. The four of them that have no place
in the cache come last. -/
def rrlkuptab : List ℕ :=
  [0, 1, 8, 9, 2, 3, 10, 11, 12, 13, 14, 4, 15, 16, 5, 6, 17, 18, 19, 20, 21, 22, 23, 24, 25, 26,
    27, 7, 28, 29, 30, 31, 32, 33, 34, 35, 36, 47, 48, 49, 50, 37, 38, 39, 40, 41, 42, 43, 44, 45,
    46]

def PDNSD_NOT_CACHED_TYPE (type : ℕ) : Bool :=
  decide (type < T_MIN) || decide (T_MAX < type) ||
    decide (NRRTOT ≤ (rrlkuptab[type - T_MIN]?).getD NRRTOT)

def sizeof_rr_hdr_t : ℕ := 10

/-- `PUTINT16`. -/
def putint16 (n : ℕ) : List UInt8 := [UInt8.ofNat (n / 256), UInt8.ofNat n]

/-- `PUTINT32`. -/
def putint32 (n : ℕ) : List UInt8 := putint16 (n / 65536) ++ putint16 n

@[simp] theorem length_putint16 (n : ℕ) : (putint16 n).length = 2 := rfl

@[simp] theorem length_putint32 (n : ℕ) : (putint32 n).length = 4 := rfl

/-- `GETINT16` at an offset. -/
def getint16 (msg : List UInt8) (i : ℕ) : Option ℕ := do
  let high ← msg[i]?
  let low ← msg[i + 1]?
  some (256 * high.toNat + low.toNat)

/-- `GETINT32` at an offset. -/
def getint32 (msg : List UInt8) (i : ℕ) : Option ℕ := do
  let high ← getint16 msg i
  let low ← getint16 msg (i + 2)
  some (65536 * high + low)

theorem getint16_put {msg rest : List UInt8} {i n : ℕ} (here : msg.drop i = putint16 n ++ rest) :
    getint16 msg i = some (n % 65536) := by
  have first : msg[i]? = some (UInt8.ofNat (n / 256)) := read_of_drop here
  have second : msg[i + 1]? = some (UInt8.ofNat n) :=
    read_of_drop (drop_of_drop (show msg.drop i = [UInt8.ofNat (n / 256)] ++ _ from here))
  simp only [getint16, first, second, Option.bind_eq_bind, Option.bind_some, UInt8.toNat_ofNat',
    Option.some.injEq]
  omega

theorem getint32_put {msg rest : List UInt8} {i n : ℕ} (here : msg.drop i = putint32 n ++ rest) :
    getint32 msg i = some (n % 4294967296) := by
  rw [putint32, List.append_assoc] at here
  have second := getint16_put (drop_of_drop here)
  simp only [length_putint16] at second
  simp only [getint32, getint16_put here, second, Option.bind_eq_bind, Option.bind_some,
    Option.some.injEq]
  omega

theorem getint16_ne_none (msg : List UInt8) (i : ℕ) (inside : i + 2 ≤ msg.length) :
    ∃ n, getint16 msg i = some n := by
  have first := List.getElem?_eq_getElem (l := msg) (i := i) (by omega)
  have second := List.getElem?_eq_getElem (l := msg) (i := i + 1) (by omega)
  rw [getint16, first, second]
  exact ⟨_, rfl⟩

theorem getint32_ne_none (msg : List UInt8) (i : ℕ) (inside : i + 4 ≤ msg.length) :
    ∃ n, getint32 msg i = some n := by
  obtain ⟨high, first⟩ := getint16_ne_none msg i (by omega)
  obtain ⟨low, second⟩ := getint16_ne_none msg (i + 2) (by omega)
  rw [getint32, first, second]
  exact ⟨_, rfl⟩

/-! ## Fields -/

/-- One field of the data of a record. -/
inductive Field
  /-- bytes that are copied as they are -/
  | octets (n : ℕ)
  /-- four bytes and three strings, each behind its length byte -/
  | texts
  | name
  | rest
deriving DecidableEq

/-- The value of a field. -/
inductive Piece
  | octets (l : List UInt8)
  | name (ls : List Label)

/-- The value as the cache holds it. -/
def Piece.bytes : Piece → List UInt8
  | .octets l => l
  | .name ls => encode ls

def bytes (ps : List Piece) : List UInt8 := ps.flatMap Piece.bytes

@[simp] theorem bytes_nil : bytes [] = [] := rfl

@[simp] theorem bytes_cons (p : Piece) (ps : List Piece) : bytes (p :: ps) = p.bytes ++ bytes ps :=
  rfl

/-- Strings, each behind its length byte. -/
def strings (ss : List (List UInt8)) : List UInt8 :=
  ss.flatMap fun s => UInt8.ofNat s.length :: s

theorem strings_cons (s : List UInt8) (ss : List (List UInt8)) :
    strings (s :: ss) = (UInt8.ofNat s.length :: s) ++ strings ss := rfl

/-- A value is one that the field can have. -/
def FieldFits : Field → Piece → Prop
  | .octets n, .octets l => l.length = n
  | .texts, .octets l => ∃ pref ss, l = pref ++ strings ss ∧ pref.length = 4 ∧ ss.length = 3 ∧
      ∀ s ∈ ss, s.length ≤ 255
  | .name, .name ls => (encode ls).length ≤ DNSNAMEBUFSIZE
  | .rest, .octets _ => True
  | .name, .octets _ | .octets _, .name _ | .texts, .name _ | .rest, .name _ => False

abbrev Fits : List Field → List Piece → Prop := List.Forall₂ FieldFits

/-- Strings are followed by a name, and nothing follows the rest. -/
def Shaped : List Field → Bool
  | [] => true
  | .octets _ :: fs | .name :: fs => Shaped fs
  | .texts :: fs => fs.head? == some .name && Shaped fs
  | .rest :: fs => fs.isEmpty

/-- The same value up to the case of the letters of a name. -/
def SamePiece : Piece → Piece → Prop
  | .octets l, .octets l' => l = l'
  | .name ls, .name ls' => SameName ls ls'
  | .octets _, .name _ | .name _, .octets _ => False

end Orbot.Pdnsd
