import Mathlib.Data.List.Basic
import Mathlib.Algebra.Order.Ring.Nat
import Mathlib.Tactic.Ring

/-!
# The MessagePack format

An `Object` is a value of the format. A string keeps, beside its own bytes, the bytes of the input
buffer that follow it (`Slice.after`): a zero-copy decoder hands out a pointer into the buffer and a
length, and a reader that runs past the length sees the buffer. `Slice.mem` is what the pointer
points at.

* `token` reads one first byte and what belongs to it: a whole scalar, or the header of an array or
  of a map.
* `Parses d k buf os rest` is the format itself: `buf` starts with the encodings of the `k` objects
  `os`, nested at most `d` containers deep, and `rest` is what follows them. The entries of a map
  are its keys and values in turn (`pairUp`).

Results:
* `token_length`, `parses_length`: reading shortens the buffer, so decoding terminates.
* `parses_pairs`: a string key of a parsed map is followed by the encoding of its value.
* `token_scalar`, `parses_boolean`: a boolean is a single byte, `0xc2` or `0xc3`.
-/

namespace MasterRelay.Lib.MsgPack

/-- Bytes. -/
abbrev Bytes := List UInt8

/-- A pointer into the input with a length: `bytes` are the bytes it covers, `after` the rest of
the input behind them. -/
structure Slice where
  bytes : Bytes
  after : Bytes
  deriving DecidableEq, Repr

/-- The input from the pointer on. -/
def Slice.mem (s : Slice) : Bytes := s.bytes ++ s.after

/-- A MessagePack value. A non-negative integer is `positiveInteger` whatever its encoding. -/
inductive Object where
  | nil
  | boolean (b : Bool)
  | positiveInteger (n : Nat)
  | negativeInteger (i : Int)
  | float32 (bits : Nat)
  | float64 (bits : Nat)
  | str (s : Slice)
  | bin (s : Slice)
  | ext (type : Nat) (s : Slice)
  | array (items : List Object)
  | map (entries : List (Object × Object))

/-- What one first byte introduces. -/
inductive Token where
  | scalar (o : Object)
  | array (n : Nat)
  | map (n : Nat)

/-- Why no object can be read: the input ends inside it, or it is not MessagePack. -/
inductive Failure where
  | more
  | invalid
  deriving DecidableEq, Repr

/-- The number big-endian bytes spell. -/
def beNat : Bytes → Nat
  | [] => 0
  | b :: r => b.toNat * 256 ^ r.length + beNat r

/-- The first `n` bytes and the rest. -/
def splitBytes (n : Nat) (buf : Bytes) : Except Failure (Bytes × Bytes) :=
  if n ≤ buf.length then .ok (buf.take n, buf.drop n) else .error .more

/-- A big-endian number of `n` bytes. -/
def readNat (n : Nat) (buf : Bytes) : Except Failure (Nat × Bytes) :=
  match splitBytes n buf with
  | .ok (b, r) => .ok (beNat b, r)
  | .error e => .error e

/-- The integer object of value `i`. -/
def intObject (i : Int) : Object :=
  if 0 ≤ i then .positiveInteger i.toNat else .negativeInteger i

/-- The value of a `w`-byte two's complement number read as `n`. -/
def signed (w n : Nat) : Int := if n < 2 ^ (8 * w - 1) then n else n - 2 ^ (8 * w)

/-- A scalar made of the next `n` bytes. -/
def scalarOf (n : Nat) (f : Slice → Object) (buf : Bytes) : Except Failure (Token × Bytes) :=
  match splitBytes n buf with
  | .ok (b, r) => .ok (.scalar (f ⟨b, r⟩), r)
  | .error e => .error e

/-- A token made from a big-endian number of `n` bytes. -/
def numberOf (n : Nat) (f : Nat → Token) (buf : Bytes) : Except Failure (Token × Bytes) :=
  match readNat n buf with
  | .ok (v, r) => .ok (f v, r)
  | .error e => .error e

/-- A scalar whose `w`-byte length comes first. -/
def sizedOf (w : Nat) (f : Slice → Object) (buf : Bytes) : Except Failure (Token × Bytes) :=
  match readNat w buf with
  | .ok (n, r) => scalarOf n f r
  | .error e => .error e

/-- An extension object of `n` bytes: its type byte comes first. -/
def extOf (n : Nat) (buf : Bytes) : Except Failure (Token × Bytes) :=
  match readNat 1 buf with
  | .ok (t, r) => scalarOf n (.ext t) r
  | .error e => .error e

/-- An extension object whose `w`-byte length comes first. -/
def sizedExtOf (w : Nat) (buf : Bytes) : Except Failure (Token × Bytes) :=
  match readNat w buf with
  | .ok (n, r) => extOf n r
  | .error e => .error e

/-- The families of formats the first bytes `0xc0` to `0xdf` introduce. A `w` is the width in bytes
of the number behind the first byte: the value itself, or a length or a count. -/
inductive Format where
  | nil
  | boolean (b : Bool)
  | uint (w : Nat)
  | int (w : Nat)
  | float32
  | float64
  | str (w : Nat)
  | bin (w : Nat)
  | ext (w : Nat)
  | fixext (n : Nat)
  | array (w : Nat)
  | map (w : Nat)

/-- The format table of the first bytes `0xc0` to `0xdf`; `0xc1` is never used. -/
def formatAt : Nat → Option Format
  | 0xc0 => some .nil
  | 0xc2 => some (.boolean false)
  | 0xc3 => some (.boolean true)
  | 0xc4 => some (.bin 1)
  | 0xc5 => some (.bin 2)
  | 0xc6 => some (.bin 4)
  | 0xc7 => some (.ext 1)
  | 0xc8 => some (.ext 2)
  | 0xc9 => some (.ext 4)
  | 0xca => some .float32
  | 0xcb => some .float64
  | 0xcc => some (.uint 1)
  | 0xcd => some (.uint 2)
  | 0xce => some (.uint 4)
  | 0xcf => some (.uint 8)
  | 0xd0 => some (.int 1)
  | 0xd1 => some (.int 2)
  | 0xd2 => some (.int 4)
  | 0xd3 => some (.int 8)
  | 0xd4 => some (.fixext 1)
  | 0xd5 => some (.fixext 2)
  | 0xd6 => some (.fixext 4)
  | 0xd7 => some (.fixext 8)
  | 0xd8 => some (.fixext 16)
  | 0xd9 => some (.str 1)
  | 0xda => some (.str 2)
  | 0xdb => some (.str 4)
  | 0xdc => some (.array 2)
  | 0xdd => some (.array 4)
  | 0xde => some (.map 2)
  | 0xdf => some (.map 4)
  | _ => none

/-- What stands behind the first byte. -/
def Format.read : Format → Bytes → Except Failure (Token × Bytes)
  | .nil, r => .ok (.scalar .nil, r)
  | .boolean b, r => .ok (.scalar (.boolean b), r)
  | .uint w, r => numberOf w (fun v => .scalar (.positiveInteger v)) r
  | .int w, r => numberOf w (fun v => .scalar (intObject (signed w v))) r
  | .float32, r => numberOf 4 (fun v => .scalar (.float32 v)) r
  | .float64, r => numberOf 8 (fun v => .scalar (.float64 v)) r
  | .str w, r => sizedOf w .str r
  | .bin w, r => sizedOf w .bin r
  | .ext w, r => sizedExtOf w r
  | .fixext n, r => extOf n r
  | .array w, r => numberOf w .array r
  | .map w, r => numberOf w .map r

/-- The token a first byte from `0xc0` to `0xdf` introduces. -/
def tokenAt (n : Nat) (r : Bytes) : Except Failure (Token × Bytes) :=
  match formatAt n with
  | some f => f.read r
  | none => .error .invalid

/-- The token `buf` starts with, and the input behind it. -/
def token : Bytes → Except Failure (Token × Bytes)
  | [] => .error .more
  | b :: r =>
    if b.toNat < 0x80 then .ok (.scalar (.positiveInteger b.toNat), r)
    else if b.toNat < 0x90 then .ok (.map (b.toNat - 0x80), r)
    else if b.toNat < 0xa0 then .ok (.array (b.toNat - 0x90), r)
    else if b.toNat < 0xc0 then scalarOf (b.toNat - 0xa0) .str r
    else if b.toNat < 0xe0 then tokenAt b.toNat r
    else .ok (.scalar (.negativeInteger ((b.toNat : Int) - 256)), r)

/-- Keys and values in turn, as entries. -/
def pairUp : List Object → List (Object × Object)
  | k :: v :: os => (k, v) :: pairUp os
  | _ => []

/-- Entries, as keys and values in turn. -/
def flatten : List (Object × Object) → List Object
  | [] => []
  | (k, v) :: es => k :: v :: flatten es

/-- **The format**: `buf` starts with the encodings of the `k` objects `os`, nested at most `d`
containers deep, with `rest` behind them. -/
inductive Parses : Nat → Nat → Bytes → List Object → Bytes → Prop
  | zero (d : Nat) (buf : Bytes) : Parses d 0 buf [] buf
  | scalar {d k : Nat} {buf r rest : Bytes} {o : Object} {os : List Object}
      (ht : token buf = .ok (.scalar o, r)) (hr : Parses d k r os rest) :
      Parses d (k + 1) buf (o :: os) rest
  | array {d k n : Nat} {buf r r' rest : Bytes} {xs os : List Object}
      (ht : token buf = .ok (.array n, r)) (hx : Parses d n r xs r')
      (hr : Parses (d + 1) k r' os rest) :
      Parses (d + 1) (k + 1) buf (.array xs :: os) rest
  | map {d k n : Nat} {buf r r' rest : Bytes} {xs os : List Object}
      (ht : token buf = .ok (.map n, r)) (hx : Parses d (2 * n) r xs r')
      (hr : Parses (d + 1) k r' os rest) :
      Parses (d + 1) (k + 1) buf (.map (pairUp xs) :: os) rest

theorem pairUp_flatten : ∀ es : List (Object × Object), pairUp (flatten es) = es
  | [] => rfl
  | (k, v) :: es => by simp only [flatten, pairUp, pairUp_flatten es]

theorem mem_of_mem_pairUp {xs : List Object} {k v : Object} (h : (k, v) ∈ pairUp xs) :
    k ∈ xs ∧ v ∈ xs := by
  induction xs using pairUp.induct with
  | case1 k₀ v₀ os ih =>
    simp only [pairUp, List.mem_cons, Prod.mk.injEq] at h ⊢
    rcases h with ⟨rfl, rfl⟩ | h
    · simp
    · obtain ⟨hk, hv⟩ := ih h
      exact ⟨.inr (.inr hk), .inr (.inr hv)⟩
  | case2 => simp [pairUp] at h

/-! ## The buffer shrinks -/

theorem splitBytes_length {n : Nat} {buf b r : Bytes} (h : splitBytes n buf = .ok (b, r)) :
    r.length ≤ buf.length := by
  unfold splitBytes at h
  split at h
  · cases h; simp
  · exact absurd h (by simp)

theorem readNat_length {n v : Nat} {buf r : Bytes} (h : readNat n buf = .ok (v, r)) :
    r.length ≤ buf.length := by
  unfold readNat at h
  split at h
  · rename_i hs; cases h; exact splitBytes_length hs
  · exact absurd h (by simp)

theorem scalarOf_length {n : Nat} {f : Slice → Object} {buf r : Bytes} {t : Token}
    (h : scalarOf n f buf = .ok (t, r)) : r.length ≤ buf.length := by
  unfold scalarOf at h
  split at h
  · rename_i hs; cases h; exact splitBytes_length hs
  · exact absurd h (by simp)

theorem numberOf_length {n : Nat} {f : Nat → Token} {buf r : Bytes} {t : Token}
    (h : numberOf n f buf = .ok (t, r)) : r.length ≤ buf.length := by
  unfold numberOf at h
  split at h
  · rename_i hs; cases h; exact readNat_length hs
  · exact absurd h (by simp)

theorem sizedOf_length {w : Nat} {f : Slice → Object} {buf r : Bytes} {t : Token}
    (h : sizedOf w f buf = .ok (t, r)) : r.length ≤ buf.length := by
  unfold sizedOf at h
  split at h
  · rename_i hs; exact (scalarOf_length h).trans (readNat_length hs)
  · exact absurd h (by simp)

theorem extOf_length {n : Nat} {buf r : Bytes} {t : Token} (h : extOf n buf = .ok (t, r)) :
    r.length ≤ buf.length := by
  unfold extOf at h
  split at h
  · rename_i hs; exact (scalarOf_length h).trans (readNat_length hs)
  · exact absurd h (by simp)

theorem sizedExtOf_length {w : Nat} {buf r : Bytes} {t : Token}
    (h : sizedExtOf w buf = .ok (t, r)) : r.length ≤ buf.length := by
  unfold sizedExtOf at h
  split at h
  · rename_i hs; exact (extOf_length h).trans (readNat_length hs)
  · exact absurd h (by simp)

theorem read_length {f : Format} {buf r : Bytes} {t : Token} (h : f.read buf = .ok (t, r)) :
    r.length ≤ buf.length := by
  cases f with
  | nil | boolean => cases h; exact le_refl _
  | uint | int | float32 | float64 | array | map => exact numberOf_length h
  | str | bin => exact sizedOf_length h
  | ext => exact sizedExtOf_length h
  | fixext => exact extOf_length h

theorem tokenAt_length {n : Nat} {buf r : Bytes} {t : Token} (h : tokenAt n buf = .ok (t, r)) :
    r.length ≤ buf.length := by
  unfold tokenAt at h
  split at h
  · exact read_length h
  · exact absurd h (by simp)

/-- A token takes at least its first byte. -/
theorem token_length {buf r : Bytes} {t : Token} (h : token buf = .ok (t, r)) :
    r.length < buf.length := by
  cases buf with
  | nil => exact absurd h (by simp [token])
  | cons b buf =>
    rw [List.length_cons, Nat.lt_succ_iff]
    simp only [token] at h
    split_ifs at h
    · cases h; exact le_refl _
    · cases h; exact le_refl _
    · cases h; exact le_refl _
    · exact scalarOf_length h
    · exact tokenAt_length h
    · cases h; exact le_refl _

theorem parses_length {d k : Nat} {buf rest : Bytes} {os : List Object}
    (h : Parses d k buf os rest) : rest.length ≤ buf.length := by
  induction h with
  | zero => exact le_refl _
  | scalar ht _ ih => exact ih.trans (token_length ht).le
  | array ht _ _ ihx ihr => exact ihr.trans (ihx.trans (token_length ht).le)
  | map ht _ _ ihx ihr => exact ihr.trans (ihx.trans (token_length ht).le)

theorem parses_count {d k : Nat} {buf rest : Bytes} {os : List Object}
    (h : Parses d k buf os rest) : os.length = k := by
  induction h with
  | zero => rfl
  | scalar _ _ ih => rw [List.length_cons, ih]
  | array _ _ _ _ ih => rw [List.length_cons, ih]
  | map _ _ _ _ ih => rw [List.length_cons, ih]

/-! ## Strings and booleans in place

A string points at the input right behind its header, and what follows it is the input its
successor is read from. A boolean is a single byte. -/

theorem scalarOf_slice {n : Nat} {f : Slice → Object} {buf r : Bytes} {o : Object}
    (h : scalarOf n f buf = .ok (.scalar o, r)) : ∃ b, o = f ⟨b, r⟩ := by
  unfold scalarOf at h
  split at h
  · cases h; exact ⟨_, rfl⟩
  · exact absurd h (by simp)

theorem numberOf_token {n : Nat} {f : Nat → Token} {buf r : Bytes} {t : Token}
    (h : numberOf n f buf = .ok (t, r)) : ∃ v, t = f v := by
  unfold numberOf at h
  split at h
  · cases h; exact ⟨_, rfl⟩
  · exact absurd h (by simp)

theorem sizedOf_slice {w : Nat} {f : Slice → Object} {buf r : Bytes} {o : Object}
    (h : sizedOf w f buf = .ok (.scalar o, r)) : ∃ b, o = f ⟨b, r⟩ := by
  unfold sizedOf at h
  split at h
  · exact scalarOf_slice h
  · exact absurd h (by simp)

theorem extOf_slice {n : Nat} {buf r : Bytes} {o : Object}
    (h : extOf n buf = .ok (.scalar o, r)) : ∃ t s, o = .ext t s := by
  unfold extOf at h
  split at h
  · exact ⟨_, _, (scalarOf_slice h).choose_spec⟩
  · exact absurd h (by simp)

theorem sizedExtOf_slice {w : Nat} {buf r : Bytes} {o : Object}
    (h : sizedExtOf w buf = .ok (.scalar o, r)) : ∃ t s, o = .ext t s := by
  unfold sizedExtOf at h
  split at h
  · exact extOf_slice h
  · exact absurd h (by simp)

theorem intObject_ne (i : Int) :
    (∀ s, intObject i ≠ .str s) ∧ (∀ b, intObject i ≠ .boolean b) ∧
      ∀ es, intObject i ≠ .map es := by
  unfold intObject
  split <;> simp

/-- Only `0xc2` and `0xc3` are booleans. -/
theorem formatAt_boolean {n : Nat} {b : Bool} (h : formatAt n = some (.boolean b)) :
    n = 0xc2 ∨ n = 0xc3 := by
  unfold formatAt at h
  split at h <;> simp_all

/-- Of the formats behind a first byte, only `str` makes a string and only `boolean` a boolean. -/
theorem read_scalar {f : Format} {buf r : Bytes} {o : Object}
    (h : f.read buf = .ok (.scalar o, r)) :
    (∀ s, o = .str s → s.after = r) ∧ (∀ b, o = .boolean b → f = .boolean b) ∧
      ∀ es, o ≠ .map es := by
  cases f with
  | nil | boolean => cases h; simp
  | uint | float32 | float64 =>
    obtain ⟨v, hv⟩ := numberOf_token h
    cases hv; simp
  | int w =>
    obtain ⟨v, hv⟩ := numberOf_token h
    obtain rfl := Token.scalar.inj hv
    obtain ⟨hs, hb, hm⟩ := intObject_ne (signed w v)
    exact ⟨fun s h => absurd h (hs s), fun b h => absurd h (hb b), hm⟩
  | array | map =>
    obtain ⟨v, hv⟩ := numberOf_token h
    exact absurd hv (by simp)
  | str | bin =>
    obtain ⟨b, rfl⟩ := sizedOf_slice h
    simp
  | ext =>
    obtain ⟨t, s, rfl⟩ := sizedExtOf_slice h
    simp
  | fixext =>
    obtain ⟨t, s, rfl⟩ := extOf_slice h
    simp

/-- A string's slice ends where the input behind it begins; a boolean is the byte `0xc2` or
`0xc3`. -/
theorem token_scalar {buf r : Bytes} {o : Object} (h : token buf = .ok (.scalar o, r)) :
    (∀ s, o = .str s → s.after = r) ∧
      (∀ b, o = .boolean b → ∃ c tl, buf = c :: tl ∧ (c.toNat = 0xc2 ∨ c.toNat = 0xc3)) ∧
      ∀ es, o ≠ .map es := by
  cases buf with
  | nil => exact absurd h (by simp [token])
  | cons c buf =>
    simp only [token] at h
    split_ifs at h
    · cases h; simp
    · cases h
    · cases h
    · obtain ⟨b, rfl⟩ := scalarOf_slice h
      simp
    · unfold tokenAt at h
      split at h
      · rename_i f hf
        obtain ⟨hstr, hbool, hmap⟩ := read_scalar h
        refine ⟨hstr, fun b hb => ⟨c, buf, rfl, ?_⟩, hmap⟩
        rw [hbool b hb] at hf
        exact formatAt_boolean hf
      · exact absurd h (by simp)
    · cases h; simp

/-- What a map holds was read as keys and values in turn. -/
theorem parses_mem_map {d k : Nat} {buf rest : Bytes} {os : List Object}
    (h : Parses d k buf os rest) {es : List (Object × Object)} (hm : Object.map es ∈ os) :
    ∃ d' n r xs r', es = pairUp xs ∧ Parses d' n r xs r' := by
  induction h with
  | zero => exact absurd hm List.not_mem_nil
  | scalar ht _ ih =>
    rcases List.mem_cons.mp hm with h | hm
    · exact absurd h.symm ((token_scalar ht).2.2 es)
    · exact ih hm
  | array _ _ _ _ ih =>
    rcases List.mem_cons.mp hm with h | hm
    · exact absurd h (by simp)
    · exact ih hm
  | map _ hx _ _ ih =>
    rcases List.mem_cons.mp hm with h | hm
    · exact ⟨_, _, _, _, _, Object.map.inj h, hx⟩
    · exact ih hm

/-- The first object of a parse and the parse of the others; a string is followed by what the others
are read from. -/
theorem parses_cons {d k : Nat} {buf rest : Bytes} {o : Object} {os : List Object}
    (h : Parses d k buf (o :: os) rest) :
    ∃ k' r, k = k' + 1 ∧ Parses d k' r os rest ∧ ∀ s, o = .str s → s.after = r := by
  cases h with
  | scalar ht hr => exact ⟨_, _, rfl, hr, (token_scalar ht).1⟩
  | array ht hx hr => exact ⟨_, _, rfl, hr, by simp⟩
  | map ht hx hr => exact ⟨_, _, rfl, hr, by simp⟩

/-- **A key's bytes are followed by its value's**: the slice of a string key is followed by an
input that starts with the value's encoding. -/
theorem parses_pairs {d k : Nat} {buf rest : Bytes} {xs : List Object}
    (h : Parses d k buf xs rest) {s : Slice} {v : Object} (hm : (Object.str s, v) ∈ pairUp xs) :
    ∃ d' k' os r, Parses d' (k' + 1) s.after (v :: os) r := by
  induction xs using pairUp.induct generalizing k buf with
  | case1 k₀ v₀ os ih =>
    -- the two heads are one entry, and the parse of the rest is two objects further on
    simp only [pairUp, List.mem_cons, Prod.mk.injEq] at hm
    obtain ⟨k₁, r₁, -, hval, hkey⟩ := parses_cons h
    obtain ⟨k₂, r₂, rfl, hrest, -⟩ := parses_cons hval
    rcases hm with ⟨hs, rfl⟩ | hm
    · rw [hkey s hs.symm]
      exact ⟨d, k₂, os, rest, hval⟩
    · exact ih hrest hm
  | case2 => simp [pairUp] at hm

theorem parses_boolean {d k : Nat} {buf rest : Bytes} {b : Bool} {os : List Object}
    (h : Parses d k buf (.boolean b :: os) rest) :
    ∃ c tl, buf = c :: tl ∧ (c.toNat = 0xc2 ∨ c.toNat = 0xc3) := by
  cases h with
  | scalar ht _ => exact (token_scalar ht).2.1 b rfl

end MasterRelay.Lib.MsgPack
