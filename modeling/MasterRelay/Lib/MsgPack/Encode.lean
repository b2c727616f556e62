import MasterRelay.Lib.MsgPack.Format
import Mathlib.Data.Nat.Basic
import Mathlib.Tactic.NormNum

/-!
# The shortest MessagePack encodings

For each of a non-negative integer, an integer, a string, a boolean and the headers of maps, the
shortest encoding the format has, and the token it is read as.

* `token_packUint`, `token_packInt`, `token_packStr`, `token_packMap`: reading what was packed gives
  the value back and leaves the bytes behind it alone, for every value the format can hold.
-/

namespace MasterRelay.Lib.MsgPack

/-- The `n` low bytes of `v`, most significant first. -/
def beBytes : Nat → Nat → Bytes
  | 0, _ => []
  | n + 1, v => UInt8.ofNat (v / 256 ^ n) :: beBytes n v

/-- The shortest encoding of a non-negative integer. -/
def packUint (v : Nat) : Bytes :=
  if v < 0x80 then [UInt8.ofNat v]
  else if v < 2 ^ 8 then 0xcc :: beBytes 1 v
  else if v < 2 ^ 16 then 0xcd :: beBytes 2 v
  else if v < 2 ^ 32 then 0xce :: beBytes 4 v
  else 0xcf :: beBytes 8 v

/-- The shortest encoding of an integer. -/
def packInt (i : Int) : Bytes :=
  if 0 ≤ i then packUint i.toNat
  else if -32 ≤ i then [UInt8.ofNat (i + 256).toNat]
  else if -2 ^ 7 ≤ i then 0xd0 :: beBytes 1 (i + 2 ^ 8).toNat
  else if -2 ^ 15 ≤ i then 0xd1 :: beBytes 2 (i + 2 ^ 16).toNat
  else if -2 ^ 31 ≤ i then 0xd2 :: beBytes 4 (i + 2 ^ 32).toNat
  else 0xd3 :: beBytes 8 (i + 2 ^ 64).toNat

/-- The shortest header of a string of `n` bytes. -/
def packStr (n : Nat) : Bytes :=
  if n < 0x20 then [UInt8.ofNat (0xa0 + n)]
  else if n < 2 ^ 8 then 0xd9 :: beBytes 1 n
  else if n < 2 ^ 16 then 0xda :: beBytes 2 n
  else 0xdb :: beBytes 4 n

/-- The shortest header of a map of `n` entries. -/
def packMap (n : Nat) : Bytes :=
  if n < 0x10 then [UInt8.ofNat (0x80 + n)]
  else if n < 2 ^ 16 then 0xde :: beBytes 2 n
  else 0xdf :: beBytes 4 n

def packBool (b : Bool) : Bytes := if b then [0xc3] else [0xc2]

/-! ## Numbers -/

theorem beBytes_length (n v : Nat) : (beBytes n v).length = n := by
  induction n with
  | zero => rfl
  | succ n ih => rw [beBytes, List.length_cons, ih]

theorem beNat_beBytes (n v : Nat) : beNat (beBytes n v) = v % 256 ^ n := by
  induction n with
  | zero => simp [beBytes, beNat, Nat.mod_one]
  | succ n ih =>
    have hbyte : (UInt8.ofNat (v / 256 ^ n)).toNat = v / 256 ^ n % 256 := UInt8.toNat_ofNat'
    rw [beBytes, beNat, beBytes_length, ih, hbyte, Nat.mod_pow_succ]
    ring

theorem splitBytes_append (b r : Bytes) : splitBytes b.length (b ++ r) = .ok (b, r) := by
  unfold splitBytes
  rw [if_pos (by simp), List.take_left, List.drop_left]

theorem readNat_beBytes {n v : Nat} (hv : v < 256 ^ n) (r : Bytes) :
    readNat n (beBytes n v ++ r) = .ok (v, r) := by
  have h := splitBytes_append (beBytes n v) r
  rw [beBytes_length] at h
  unfold readNat
  rw [h]
  simp only [beNat_beBytes, Nat.mod_eq_of_lt hv]

theorem numberOf_beBytes {n v : Nat} (hv : v < 256 ^ n) (f : Nat → Token) (r : Bytes) :
    numberOf n f (beBytes n v ++ r) = .ok (f v, r) := by
  unfold numberOf
  rw [readNat_beBytes hv]

theorem intObject_nonneg {i : Int} (h : 0 ≤ i) : intObject i = .positiveInteger i.toNat := if_pos h

theorem intObject_neg {i : Int} (h : i < 0) : intObject i = .negativeInteger i :=
  if_neg (by omega)

/-! ## First bytes -/

theorem token_fixint {v : Nat} (h : v < 0x80) (r : Bytes) :
    token (UInt8.ofNat v :: r) = .ok (.scalar (.positiveInteger v), r) := by
  have hv : (UInt8.ofNat v).toNat = v := UInt8.toNat_ofNat_of_lt' (by simp [UInt8.size]; omega)
  simp only [token, hv, if_pos h]

theorem token_negative_fixint {v : Nat} (h : 0xe0 ≤ v) (h' : v < 0x100) (r : Bytes) :
    token (UInt8.ofNat v :: r) = .ok (.scalar (.negativeInteger ((v : Int) - 256)), r) := by
  have hv : (UInt8.ofNat v).toNat = v := UInt8.toNat_ofNat_of_lt' (by simp [UInt8.size]; omega)
  simp only [token, hv]
  rw [if_neg (by omega), if_neg (by omega), if_neg (by omega), if_neg (by omega),
    if_neg (by omega)]

theorem token_fixmap {n : Nat} (h : n < 0x10) (r : Bytes) :
    token (UInt8.ofNat (0x80 + n) :: r) = .ok (.map n, r) := by
  have hv : (UInt8.ofNat (0x80 + n)).toNat = 0x80 + n :=
    UInt8.toNat_ofNat_of_lt' (by simp [UInt8.size]; omega)
  simp only [token, hv]
  rw [if_neg (by omega), if_pos (by omega), Nat.add_sub_cancel_left]

theorem token_fixstr {b : Bytes} (h : b.length < 0x20) (r : Bytes) :
    token (UInt8.ofNat (0xa0 + b.length) :: (b ++ r)) = .ok (.scalar (.str ⟨b, r⟩), r) := by
  have hv : (UInt8.ofNat (0xa0 + b.length)).toNat = 0xa0 + b.length :=
    UInt8.toNat_ofNat_of_lt' (by simp [UInt8.size]; omega)
  simp only [token, hv]
  rw [if_neg (by omega), if_neg (by omega), if_neg (by omega), if_pos (by omega),
    Nat.add_sub_cancel_left, scalarOf, splitBytes_append]

/-- A first byte from `0xc0` to `0xdf` is read by its format. -/
theorem token_format {c : UInt8} {f : Format} (hf : formatAt c.toNat = some f)
    (h : 0xc0 ≤ c.toNat) (h' : c.toNat < 0xe0) (r : Bytes) : token (c :: r) = f.read r := by
  simp only [token]
  rw [if_neg (by omega), if_neg (by omega), if_neg (by omega), if_neg (by omega),
    if_pos (by omega), tokenAt, hf]

/-! ## Round trips -/

theorem read_uint {w v : Nat} (hv : v < 256 ^ w) (r : Bytes) :
    (Format.uint w).read (beBytes w v ++ r) = .ok (.scalar (.positiveInteger v), r) := by
  rw [Format.read, numberOf_beBytes hv]

theorem token_packUint {v : Nat} (hv : v < 2 ^ 64) (r : Bytes) :
    token (packUint v ++ r) = .ok (.scalar (.positiveInteger v), r) := by
  unfold packUint
  split_ifs with h1 h2 h3 h4
  · exact token_fixint h1 r
  · rw [List.cons_append, token_format (f := .uint 1) rfl (by decide) (by decide)]
    exact read_uint (w := 1) (by omega) r
  · rw [List.cons_append, token_format (f := .uint 2) rfl (by decide) (by decide)]
    exact read_uint (w := 2) (by omega) r
  · rw [List.cons_append, token_format (f := .uint 4) rfl (by decide) (by decide)]
    exact read_uint (w := 4) (by omega) r
  · rw [List.cons_append, token_format (f := .uint 8) rfl (by decide) (by decide)]
    exact read_uint (w := 8) (by omega) r

/-- A negative number in `w` bytes of two's complement. -/
theorem read_int_neg {w : Nat} {i : Int} (hw : 0 < w) (hlo : -2 ^ (8 * w - 1) ≤ i) (hi : i < 0)
    (r : Bytes) :
    (Format.int w).read (beBytes w (i + 2 ^ (8 * w)).toNat ++ r) =
      .ok (.scalar (.negativeInteger i), r) := by
  have hpow : (2 : Int) ^ (8 * w) = 2 * 2 ^ (8 * w - 1) := by
    rw [← pow_succ']; congr 1; omega
  have h256 : 256 ^ w = 2 ^ (8 * w) := by rw [pow_mul]; norm_num
  have hcast : (((2 : Nat) ^ (8 * w) : Nat) : Int) = 2 ^ (8 * w) := by push_cast; rfl
  have hcast' : (((2 : Nat) ^ (8 * w - 1) : Nat) : Int) = 2 ^ (8 * w - 1) := by push_cast; rfl
  have hnat : (((i + 2 ^ (8 * w)).toNat : Nat) : Int) = i + 2 ^ (8 * w) :=
    Int.toNat_of_nonneg (by omega)
  rw [Format.read, numberOf_beBytes (by rw [h256]; omega)]
  have hs : signed w (i + 2 ^ (8 * w)).toNat = i := by
    unfold signed
    rw [if_neg (by omega), hnat]
    omega
  rw [hs, intObject_neg hi]

theorem token_packInt {i : Int} (hlo : -2 ^ 63 ≤ i) (hhi : i < 2 ^ 64) (r : Bytes) :
    token (packInt i ++ r) = .ok (.scalar (intObject i), r) := by
  unfold packInt
  split_ifs with h0 h1 h2 h3 h4
  · rw [intObject_nonneg h0]
    exact token_packUint (by omega) r
  · rw [intObject_neg (by omega), List.singleton_append,
      token_negative_fixint (by omega) (by omega), Int.toNat_of_nonneg (by omega),
      Int.add_sub_cancel]
  · rw [intObject_neg (by omega), List.cons_append,
      token_format (f := .int 1) rfl (by decide) (by decide)]
    exact read_int_neg (by decide) h2 (by omega) r
  · rw [intObject_neg (by omega), List.cons_append,
      token_format (f := .int 2) rfl (by decide) (by decide)]
    exact read_int_neg (by decide) h3 (by omega) r
  · rw [intObject_neg (by omega), List.cons_append,
      token_format (f := .int 4) rfl (by decide) (by decide)]
    exact read_int_neg (by decide) h4 (by omega) r
  · rw [intObject_neg (by omega), List.cons_append,
      token_format (f := .int 8) rfl (by decide) (by decide)]
    exact read_int_neg (by decide) hlo (by omega) r

theorem token_packMap {n : Nat} (hn : n < 2 ^ 32) (r : Bytes) :
    token (packMap n ++ r) = .ok (.map n, r) := by
  unfold packMap
  split_ifs with h1 h2
  · exact token_fixmap h1 r
  · rw [List.cons_append, token_format (f := .map 2) rfl (by decide) (by decide)]
    exact numberOf_beBytes (n := 2) (by omega) _ r
  · rw [List.cons_append, token_format (f := .map 4) rfl (by decide) (by decide)]
    exact numberOf_beBytes (n := 4) (by omega) _ r

theorem sizedOf_beBytes {w : Nat} {b : Bytes} (hw : b.length < 256 ^ w) (f : Slice → Object)
    (r : Bytes) :
    sizedOf w f (beBytes w b.length ++ (b ++ r)) = .ok (.scalar (f ⟨b, r⟩), r) := by
  unfold sizedOf
  rw [readNat_beBytes hw]
  simp only [scalarOf, splitBytes_append]

theorem token_packStr {b : Bytes} (hb : b.length < 2 ^ 32) (r : Bytes) :
    token (packStr b.length ++ (b ++ r)) = .ok (.scalar (.str ⟨b, r⟩), r) := by
  unfold packStr
  split_ifs with h1 h2 h3
  · exact token_fixstr h1 r
  · rw [List.cons_append, token_format (f := .str 1) rfl (by decide) (by decide)]
    exact sizedOf_beBytes (w := 1) (by omega) _ r
  · rw [List.cons_append, token_format (f := .str 2) rfl (by decide) (by decide)]
    exact sizedOf_beBytes (w := 2) (by omega) _ r
  · rw [List.cons_append, token_format (f := .str 4) rfl (by decide) (by decide)]
    exact sizedOf_beBytes (w := 4) (by omega) _ r

theorem token_packBool (b : Bool) (r : Bytes) :
    token (packBool b ++ r) = .ok (.scalar (.boolean b), r) := by
  cases b <;> rfl

end MasterRelay.Lib.MsgPack
