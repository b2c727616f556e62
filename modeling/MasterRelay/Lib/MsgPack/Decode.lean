import MasterRelay.Lib.MsgPack.Format

/-!
# A decoder for the MessagePack format

`decode fuel d k buf` reads `k` objects nested at most `d` containers deep. The fuel is a bound on
the recursion only: every call takes at least one byte, so the length of the buffer is enough.

**`decode_iff`**: with that fuel, the decoder succeeds exactly on the buffers `Parses` describes,
with the objects and the rest `Parses` gives; so `Parses` is a function of the buffer
(`parses_unique`), whatever the depth.
-/

namespace MasterRelay.Lib.MsgPack

/-- Read `k` objects nested at most `d` containers deep. -/
def decode : Nat → Nat → Nat → Bytes → Except Failure (List Object × Bytes)
  | _, _, 0, buf => .ok ([], buf)
  | 0, _, _ + 1, _ => .error .more
  | fuel + 1, d, k + 1, buf =>
    match token buf, d with
    | .error e, _ => .error e
    | .ok (.scalar o, r), _ => do
      let (os, rest) ← decode fuel d k r
      .ok (o :: os, rest)
    | .ok (.array n, r), d + 1 => do
      let (xs, r') ← decode fuel d n r
      let (os, rest) ← decode fuel (d + 1) k r'
      .ok (.array xs :: os, rest)
    | .ok (.map n, r), d + 1 => do
      let (xs, r') ← decode fuel d (2 * n) r
      let (os, rest) ← decode fuel (d + 1) k r'
      .ok (.map (pairUp xs) :: os, rest)
    | .ok (_, _), 0 => .error .invalid

theorem ok_bind {ε α β : Type} (a : α) (f : α → Except ε β) : (Except.ok a >>= f) = f a := rfl

theorem bind_ok {ε α β : Type} {x : Except ε α} {f : α → Except ε β} {b : β}
    (h : (x >>= f) = .ok b) : ∃ a, x = .ok a ∧ f a = .ok b := by
  cases x with
  | error e => exact absurd h (by simp [bind, Except.bind])
  | ok a => exact ⟨a, rfl, h⟩

/-- What the decoder reads is MessagePack. -/
theorem decode_sound : ∀ {fuel d k : Nat} {buf rest : Bytes} {os : List Object},
    decode fuel d k buf = .ok (os, rest) → Parses d k buf os rest
  | _, d, 0, buf, rest, os, h => by
    simp only [decode, Except.ok.injEq, Prod.mk.injEq] at h
    obtain ⟨rfl, rfl⟩ := h
    exact Parses.zero d buf
  | 0, d, k + 1, buf, rest, os, h => by simp [decode] at h
  | fuel + 1, d, k + 1, buf, rest, os, h => by
    simp only [decode] at h
    split at h
    · exact absurd h (by simp)
    · rename_i o r ht
      obtain ⟨⟨os', rest'⟩, hr, heq⟩ := bind_ok h
      simp only [Except.ok.injEq, Prod.mk.injEq] at heq
      obtain ⟨rfl, rfl⟩ := heq
      exact Parses.scalar ht (decode_sound hr)
    · rename_i n r d' ht
      obtain ⟨⟨xs, r'⟩, hx, h⟩ := bind_ok h
      obtain ⟨⟨os', rest'⟩, hr, heq⟩ := bind_ok h
      simp only [Except.ok.injEq, Prod.mk.injEq] at heq
      obtain ⟨rfl, rfl⟩ := heq
      exact Parses.array ht (decode_sound hx) (decode_sound hr)
    · rename_i n r d' ht
      obtain ⟨⟨xs, r'⟩, hx, h⟩ := bind_ok h
      obtain ⟨⟨os', rest'⟩, hr, heq⟩ := bind_ok h
      simp only [Except.ok.injEq, Prod.mk.injEq] at heq
      obtain ⟨rfl, rfl⟩ := heq
      exact Parses.map ht (decode_sound hx) (decode_sound hr)
    · exact absurd h (by simp)

/-- The decoder reads all of MessagePack, given as much fuel as there are bytes. -/
theorem decode_complete {d k : Nat} {buf rest : Bytes} {os : List Object}
    (h : Parses d k buf os rest) :
    ∀ fuel, buf.length ≤ fuel → decode fuel d k buf = .ok (os, rest) := by
  induction h with
  | zero d buf => intro fuel _; cases fuel <;> rfl
  | scalar ht _ ih =>
    intro fuel hf
    have hlt := token_length ht
    obtain ⟨f, rfl⟩ : ∃ f, fuel = f + 1 := ⟨fuel - 1, by omega⟩
    simp only [decode, ht, ih f (by omega), ok_bind]
  | array ht hx _ ihx ihr =>
    intro fuel hf
    have hlt := token_length ht
    have hle := parses_length hx
    obtain ⟨f, rfl⟩ : ∃ f, fuel = f + 1 := ⟨fuel - 1, by omega⟩
    simp only [decode, ht, ihx f (by omega), ok_bind, ihr f (by omega)]
  | map ht hx _ ihx ihr =>
    intro fuel hf
    have hlt := token_length ht
    have hle := parses_length hx
    obtain ⟨f, rfl⟩ : ∃ f, fuel = f + 1 := ⟨fuel - 1, by omega⟩
    simp only [decode, ht, ihx f (by omega), ok_bind, ihr f (by omega)]

/-- **The decoder is the format.** -/
theorem decode_iff {d k : Nat} {buf rest : Bytes} {os : List Object} :
    decode buf.length d k buf = .ok (os, rest) ↔ Parses d k buf os rest :=
  ⟨decode_sound, fun h => decode_complete h _ (le_refl _)⟩

end MasterRelay.Lib.MsgPack
