import MasterRelay.Lib.MsgPack.Format

/-!
# How long an encoding is

A token takes its first byte, at most eight bytes that are a number, a length or a count, and the
bytes of its string: `token_size`, whichever of its encodings it comes in.
-/

namespace MasterRelay.Lib.MsgPack

/-- The bytes of a string, of binary data or of an extension. -/
def Token.body : Token → Nat
  | .scalar (.str s) => s.bytes.length
  | .scalar (.bin s) => s.bytes.length
  | .scalar (.ext _ s) => s.bytes.length
  | _ => 0

/-- The bytes between the first byte of a format and the body. -/
def Format.head : Format → Nat
  | .nil => 0
  | .boolean _ => 0
  | .uint w => w
  | .int w => w
  | .float32 => 4
  | .float64 => 8
  | .str w => w
  | .bin w => w
  | .ext w => w + 1
  | .fixext _ => 1
  | .array w => w
  | .map w => w

theorem formatAt_head {n : Nat} {f : Format} (h : formatAt n = some f) : f.head ≤ 8 := by
  unfold formatAt at h
  split at h <;> cases h <;> decide

theorem splitBytes_size {n : Nat} {buf b r : Bytes} (h : splitBytes n buf = .ok (b, r)) :
    b.length = n ∧ buf.length = n + r.length := by
  unfold splitBytes at h
  split_ifs at h with hle
  cases h
  rw [List.length_take, List.length_drop]
  omega

theorem readNat_size {n v : Nat} {buf r : Bytes} (h : readNat n buf = .ok (v, r)) :
    buf.length = n + r.length := by
  unfold readNat at h
  split at h
  · rename_i hs
    cases h
    exact (splitBytes_size hs).2
  · cases h

theorem numberOf_size {n : Nat} {f : Nat → Token} {buf r : Bytes} {t : Token}
    (h : numberOf n f buf = .ok (t, r)) : buf.length = n + r.length := by
  unfold numberOf at h
  split at h
  · rename_i hv
    cases h
    exact readNat_size hv
  · cases h

theorem scalarOf_size {n : Nat} {f : Slice → Object} (hf : ∀ s, (Token.scalar (f s)).body =
    s.bytes.length) {buf r : Bytes} {t : Token} (h : scalarOf n f buf = .ok (t, r)) :
    buf.length = t.body + r.length := by
  unfold scalarOf at h
  split at h
  · rename_i hs
    cases h
    obtain ⟨hb, hbuf⟩ := splitBytes_size hs
    rw [hf, hbuf, hb]
  · cases h

theorem sizedOf_size {w : Nat} {f : Slice → Object} (hf : ∀ s, (Token.scalar (f s)).body =
    s.bytes.length) {buf r : Bytes} {t : Token} (h : sizedOf w f buf = .ok (t, r)) :
    buf.length = w + (t.body + r.length) := by
  unfold sizedOf at h
  split at h
  · rename_i hn
    rw [readNat_size hn, scalarOf_size hf h]
  · cases h

theorem extOf_size {n : Nat} {buf r : Bytes} {t : Token} (h : extOf n buf = .ok (t, r)) :
    buf.length = 1 + (t.body + r.length) := by
  unfold extOf at h
  split at h
  · rename_i hn
    rw [readNat_size hn, scalarOf_size (fun _ => rfl) h]
  · cases h

theorem sizedExtOf_size {w : Nat} {buf r : Bytes} {t : Token}
    (h : sizedExtOf w buf = .ok (t, r)) : buf.length = w + (1 + (t.body + r.length)) := by
  unfold sizedExtOf at h
  split at h
  · rename_i hn
    rw [readNat_size hn, extOf_size h]
  · cases h

/-- What a format reads: its head and the body. -/
theorem read_size {f : Format} {buf r : Bytes} {t : Token} (h : f.read buf = .ok (t, r)) :
    buf.length ≤ f.head + t.body + r.length := by
  cases f with
  | nil | boolean =>
    cases h
    exact Nat.le_add_left _ _
  | uint | int | float32 | float64 | array | map =>
    have hsize := numberOf_size h
    simp only [Format.head]
    omega
  | str | bin =>
    have hsize := sizedOf_size (fun _ => rfl) h
    simp only [Format.head]
    omega
  | ext =>
    have hsize := sizedExtOf_size h
    simp only [Format.head]
    omega
  | fixext =>
    have hsize := extOf_size h
    simp only [Format.head]
    omega

/-- **A token takes at most nine bytes and its body.** -/
theorem token_size {buf r : Bytes} {t : Token} (h : token buf = .ok (t, r)) :
    buf.length ≤ 9 + t.body + r.length := by
  cases buf with
  | nil => cases h
  | cons b buf =>
    rw [List.length_cons]
    simp only [token] at h
    split_ifs at h
    · cases h
      omega
    · cases h
      omega
    · cases h
      omega
    · have hsize := scalarOf_size (fun _ => rfl) h
      omega
    · unfold tokenAt at h
      split at h
      · rename_i f hf
        have hhead := formatAt_head hf
        have hsize := read_size h
        omega
      · cases h
    · cases h
      omega

end MasterRelay.Lib.MsgPack
