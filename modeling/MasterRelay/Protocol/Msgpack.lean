import MasterRelay.Lib.MsgPack.Decode
import MasterRelay.Lib.MsgPack.Encode
import MasterRelay.Protocol.Message

/-!
# msgpack-c, as the program uses it

msgpack-c is not part of the repository. The model takes it as a parameter: a `Msgpack` gives the
bytes each `msgpack_pack_*` call writes, the result of `msgpack_unpack_next` and the numbers of the
object types. What the program relies on is `Msgpack.Lawful`:

* what is packed is a MessagePack encoding of the value (which of the encodings is left open);
* `msgpack_unpack_next` reads the first object of its input whenever the input starts with one that
  is nested at most `MSGPACK_EMBED_STACK_SIZE` containers deep, and reads nothing else.

The strings of an unpacked object point into the input, as msgpack-c's do (`Slice`).

`reference` packs every value in its shortest form and unpacks with the decoder of
`Lib/MsgPack/Decode.lean`; `reference_lawful` shows that the assumptions can be met.
-/

namespace MasterRelay.Protocol

open MasterRelay.Lib.MsgPack

/-- The results of `msgpack_unpack_next` the program tells apart. -/
inductive UnpackReturn where
  | success (root : Object)
  | nomemError
  | parseError
  | unpackContinue

/-- The functions of msgpack-c the program calls. -/
structure Msgpack where
  packMap : Nat → Bytes
  packStr : Nat → Bytes
  packStrBody : Bytes → Bytes
  packUint32 : UInt32 → Bytes
  packInt32 : Int32 → Bytes
  packTrue : Bytes
  packFalse : Bytes
  unpackNext : Bytes → UnpackReturn
  /-- The number of `obj.type`. -/
  typeNo : Object → Nat

/-- How many containers deep `msgpack_unpack_next` reads. -/
def msgpackEmbedStackSize : Nat := 32

/-- What the program relies on: msgpack-c follows the MessagePack format. -/
structure Msgpack.Lawful (mp : Msgpack) : Prop where
  packMap : ∀ n < 2 ^ 32, ∀ r, token (mp.packMap n ++ r) = .ok (.map n, r)
  packStr : ∀ b : Bytes, b.length < 2 ^ 32 → ∀ r,
    token (mp.packStr b.length ++ (mp.packStrBody b ++ r)) = .ok (.scalar (.str ⟨b, r⟩), r)
  packUint32 : ∀ u r, token (mp.packUint32 u ++ r) = .ok (.scalar (.positiveInteger u.toNat), r)
  packInt32 : ∀ i r, token (mp.packInt32 i ++ r) = .ok (.scalar (intObject i.toInt), r)
  packTrue : ∀ r, token (mp.packTrue ++ r) = .ok (.scalar (.boolean true), r)
  packFalse : ∀ r, token (mp.packFalse ++ r) = .ok (.scalar (.boolean false), r)
  unpackNext : ∀ {buf rest o}, Parses msgpackEmbedStackSize 1 buf [o] rest →
    mp.unpackNext buf = .success o
  unpackNext_sound : ∀ {buf o}, mp.unpackNext buf = .success o →
    ∃ rest, Parses msgpackEmbedStackSize 1 buf [o] rest

/-- Nothing is unpacked from an empty buffer. -/
theorem Msgpack.Lawful.ne_nil {mp : Msgpack} (hmp : mp.Lawful) {buf : Bytes} {o : Object}
    (h : mp.unpackNext buf = .success o) : buf ≠ [] := by
  rintro rfl
  obtain ⟨rest, hp⟩ := hmp.unpackNext_sound h
  cases hp with
  | scalar ht => exact absurd ht (by simp [token])
  | array ht => exact absurd ht (by simp [token])
  | map ht => exact absurd ht (by simp [token])

/-- The numbers of `msgpack_object_type`. -/
def referenceTypeNo : Object → Nat
  | .nil => 0
  | .boolean _ => 1
  | .positiveInteger _ => 2
  | .negativeInteger _ => 3
  | .float64 _ => 4
  | .str _ => 5
  | .array _ => 6
  | .map _ => 7
  | .bin _ => 8
  | .ext _ _ => 9
  | .float32 _ => 10

/-- The shortest encodings and the decoder of the format. -/
def reference : Msgpack where
  packMap := packMap
  packStr := packStr
  packStrBody b := b
  packUint32 u := packUint u.toNat
  packInt32 i := packInt i.toInt
  packTrue := packBool true
  packFalse := packBool false
  unpackNext buf :=
    match decode buf.length msgpackEmbedStackSize 1 buf with
    | .ok (o :: _, _) => .success o
    | .error .more => .unpackContinue
    | _ => .parseError
  typeNo := referenceTypeNo

/-- **The assumptions on msgpack-c can be met.** -/
theorem reference_lawful : reference.Lawful where
  packMap _ hn r := token_packMap hn r
  packStr _ hb r := token_packStr hb r
  packUint32 u r := token_packUint (by have := u.toNat_lt; omega) r
  packInt32 i r :=
    token_packInt (by have := i.le_toInt; omega) (by have := i.toInt_lt; omega) r
  packTrue r := token_packBool true r
  packFalse r := token_packBool false r
  unpackNext h := by
    show (match decode _ _ _ _ with
      | .ok (o :: _, _) => UnpackReturn.success o
      | .error .more => .unpackContinue
      | _ => .parseError) = _
    rw [decode_iff.mpr h]
  unpackNext_sound {buf o} h := by
    simp only [reference] at h
    split at h
    · rename_i o' os rest hd
      cases h
      have hp := decode_iff.mp hd
      obtain rfl : os = [] := by simpa using parses_count hp
      exact ⟨rest, hp⟩
    · exact absurd h (by simp)
    · exact absurd h (by simp)

end MasterRelay.Protocol
