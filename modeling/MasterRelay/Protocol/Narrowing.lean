import MasterRelay.Protocol.Coordinates

/-!
# Integers on the wire and in the fields

A MessagePack integer has up to 64 bits, the fields of the messages have 32. The decoders cast:
`(uint32_t)v.via.u64` for `id` and `tick`, `(int32_t)v.via.i64` for `x` and `y`, without looking at
the value. So a field is its integer modulo `2^32`, and the integer itself exactly when it fits.

* `NarrowedId`, `NarrowedCoordinate`: what a cast does.
* **`integers_narrowed`**: every field of the three messages, and when two ids become one.
* `wideId_becomesOne`: `2^32 + 1` on the wire is the player 1.
-/

namespace MasterRelay.Protocol

open MasterRelay.Lib.LastMatch
open MasterRelay.Lib.MsgPack

/-- The cast of an unsigned field. -/
def NarrowedId (n : Nat) (field : UInt32) : Prop :=
  field.toNat = n % 2 ^ 32 ∧ (field.toNat = n ↔ n < 2 ^ 32)

/-- The cast of a coordinate, when an integer supplies it. -/
def NarrowedCoordinate (supplied : Object) (field : Int32) : Prop :=
  ∀ i, integer? supplied = some i →
    field.toInt = i.bmod (2 ^ 32) ∧ (field.toInt = i ↔ -2 ^ 31 ≤ i ∧ i < 2 ^ 31)

theorem narrowedId (n : Nat) : NarrowedId n (UInt32.ofNat n) := by
  have hmod : (UInt32.ofNat n).toNat = n % 2 ^ 32 := UInt32.toNat_ofNat'
  refine ⟨hmod, ?_⟩
  rw [hmod]
  constructor
  · intro h
    rw [← h]
    exact Nat.mod_lt _ (by decide)
  · intro h
    exact Nat.mod_eq_of_lt h

theorem narrowedCoordinate (rd : Reader) (v : Object) :
    NarrowedCoordinate v (Int32.ofInt (rd.viaI64 v)) := by
  intro i hi
  have hmod := ofInt_viaI64_integer rd hi
  refine ⟨hmod, ?_⟩
  constructor
  · intro h
    have hlo := (Int32.ofInt (rd.viaI64 v)).le_toInt
    have hhi := (Int32.ofInt (rd.viaI64 v)).toInt_lt
    rw [h] at hlo hhi
    exact ⟨hlo, hhi⟩
  · rintro ⟨hlo, hhi⟩
    rw [hmod]
    exact Int.bmod_eq_of_le_mul_two (by omega) (by omega)

variable {mp : Msgpack} {rd : Reader} {payload : Option Bytes}

theorem userInfo_map {ui : UserInfo} (h : ifbFunTryUnpackUserInfo mp rd payload = .ok ui) :
    mp.unpackNext (payload.getD []) = .success (.map (rootEntries mp payload)) := by
  cases hroot : mp.unpackNext (payload.getD []) with
  | success root =>
    cases root with
    | map kvs => rw [rootEntries_map _ hroot]
    | _ => exact absurd h (by simp [ifbFunTryUnpackUserInfo, hroot])
  | _ => exact absurd h (by simp [ifbFunTryUnpackUserInfo, hroot, fail])

/-- **What the casts do.** Every field of an accepted message is its supplying integer modulo
`2^32`, so it equals that integer exactly when it is in the range of the field; and two wire ids
decode to the same player exactly when they agree modulo `2^32`. -/
theorem integers_narrowed (mp : Msgpack) (rd : Reader) (payload : Option Bytes) :
    (∀ ui, ifbFunTryUnpackUserInfo mp rd payload = .ok ui →
      ∃ n, lastNatural (cStr "id") (rootEntries mp payload) = some n ∧ NarrowedId n ui.id) ∧
    (∀ pi, ifbTryUnpackPlayerInput mp rd payload = .ok pi →
      (∃ n, lastNatural (cStr "id") (rootEntries mp payload) = some n ∧ NarrowedId n pi.id) ∧
      (∃ v, lastValue (cStr "x") (rootEntries mp payload) = some v ∧ NarrowedCoordinate v pi.x) ∧
      ∃ v, lastValue (cStr "y") (rootEntries mp payload) = some v ∧ NarrowedCoordinate v pi.y) ∧
    (∀ gs, ifbTryUnpackGameState mp rd payload = .ok gs →
      (∃ n, lastNatural (cStr "tick") (rootEntries mp payload) = some n ∧ NarrowedId n gs.tick) ∧
      ∀ i, ∃ es x y, lastValue (posName i) (rootEntries mp payload) = some (.map es) ∧
        lastCoordinate rd (cStr "x") es = some x ∧ NarrowedCoordinate x (gs.pos i).x ∧
        lastCoordinate rd (cStr "y") es = some y ∧ NarrowedCoordinate y (gs.pos i).y) ∧
    ∀ n n' id id', NarrowedId n id → NarrowedId n' id' → (id = id' ↔ n % 2 ^ 32 = n' % 2 ^ 32) := by
  refine ⟨?_, ?_, ?_, ?_⟩
  · intro ui hui
    rw [unpackUserInfo_selection rd payload (userInfo_map hui)] at hui
    obtain ⟨n, hn, hid, -⟩ := userInfoSelection_eq_ok.mp hui
    exact ⟨n, hn, hid ▸ narrowedId n⟩
  · intro pi hpi
    rw [unpackPlayerInput_selection rd payload (playerInput_map hpi)] at hpi
    obtain ⟨n, x, y, hn, hx, hy, rfl⟩ := playerInputSelection_eq_ok.mp hpi
    exact ⟨⟨n, hn, narrowedId n⟩, ⟨x, hx, narrowedCoordinate rd x⟩,
      ⟨y, hy, narrowedCoordinate rd y⟩⟩
  · intro gs hgs
    obtain ⟨data, rfl, hmap⟩ := gameState_map hgs
    obtain ⟨-, ⟨n, hn, htick⟩, hpos⟩ := (unpackGameState_eq_ok mp rd hmap).mp hgs
    refine ⟨⟨n, hn, htick ▸ narrowedId n⟩, fun i => ?_⟩
    obtain ⟨k, v, p, hmem, hk, -⟩ := lastField_isSome.mp ⟨_, hpos i⟩
    obtain ⟨v', hv'⟩ := lastValue_isSome.mpr ⟨k, v, hmem, hk⟩
    obtain ⟨es, x, y, rfl, -, hx, hy, hpx, hpy⟩ := gameState_pos hmap hgs i hv'
    exact ⟨es, x, y, hv', hx, hpx ▸ narrowedCoordinate rd x, hy, hpy ▸ narrowedCoordinate rd y⟩
  · rintro n n' id id' ⟨hid, -⟩ ⟨hid', -⟩
    rw [← UInt32.toNat_inj, hid, hid']

/-- `{"id": id, "is_master": true}`, with the encoding of an integer for `id`. -/
def idPayload (id : Bytes) : Bytes :=
  [0x82, 0xa2, 0x69, 0x64] ++ id ++ [0xa9] ++ cStr "is_master" ++ [0xc3]

/-- The ids `1` and `2^32 + 1` are one player. -/
theorem wideId_becomesOne :
    lastNatural (cStr "id")
      (rootEntries reference (some (idPayload [0xcf, 0, 0, 0, 1, 0, 0, 0, 1]))) =
        some (2 ^ 32 + 1) ∧
    ifbFunTryUnpackUserInfo reference (.strict fun _ => 0)
      (some (idPayload [0xcf, 0, 0, 0, 1, 0, 0, 0, 1])) = .ok ⟨1, true⟩ ∧
    ifbFunTryUnpackUserInfo reference (.strict fun _ => 0) (some (idPayload [0x01])) =
      .ok ⟨1, true⟩ := by
  decide +kernel

end MasterRelay.Protocol
