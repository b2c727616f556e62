import MasterRelay.Lib.LastMatch
import MasterRelay.Protocol.Independence

/-!
# What the flat decoders select

`ifb_fun_try_unpack_user_info` and `ifb_try_unpack_player_input` go through the entries of a map and
overwrite a field at each entry that matches it. So they select, for each field, the last entry
with its key and, where the type is tested, with a value of its type: `userInfoSelection` and
`playerInputSelection` say which.

* **`unpackUserInfo_selection`**, **`unpackPlayerInput_selection`**: the loops are these selections.
* `userInfoSelection_eq_ok`, `playerInputSelection_eq_ok`: when they succeed, and with what.
* `ofInt_viaI64_integer`: an integer is cast modulo `2^32`.
-/

namespace MasterRelay.Protocol

open MasterRelay.Lib.LastMatch
open MasterRelay.Lib.MsgPack

/-! ## Fields of a map -/

/-- The string `name`. -/
def hasKey (name : Bytes) : Object → Bool
  | .str k => decide (k.bytes = name)
  | _ => false

/-- `MSGPACK_OBJECT_POSITIVE_INTEGER`: `via.u64`. -/
def natural? : Object → Option Nat
  | .positiveInteger n => some n
  | _ => none

/-- `MSGPACK_OBJECT_BOOLEAN`: `via.boolean`. -/
def boolean? : Object → Option Bool
  | .boolean b => some b
  | _ => none

/-- The integer, when it is one. -/
def integer? : Object → Option Int
  | .positiveInteger n => some n
  | .negativeInteger i => some i
  | _ => none

/-- What `read` makes of the value of an entry whose key is accepted. -/
def fieldAt {β : Type} (key : Object → Bool) (read : Object → Option β) (kv : Object × Object) :
    Option β :=
  if key kv.1 then read kv.2 else none

/-- The last entry under `name` with a non-negative integer. -/
def lastNatural (name : Bytes) : List (Object × Object) → Option Nat :=
  lastMatch (fieldAt (hasKey name) natural?)

/-- The last entry under `name` with a boolean. -/
def lastBoolean (name : Bytes) : List (Object × Object) → Option Bool :=
  lastMatch (fieldAt (hasKey name) boolean?)

/-- The value of the last entry under `name`. -/
def lastValue (name : Bytes) : List (Object × Object) → Option Object :=
  lastMatch (fieldAt (hasKey name) some)

variable {β : Type} {name : Bytes} {kvs : List (Object × Object)}

theorem fieldAt_eq_some {key : Object → Bool} {read : Object → Option β} {kv : Object × Object}
    {b : β} : fieldAt key read kv = some b ↔ key kv.1 = true ∧ read kv.2 = some b := by
  unfold fieldAt
  by_cases h : key kv.1 = true
  · rw [if_pos h]
    exact ⟨fun hr => ⟨h, hr⟩, And.right⟩
  · rw [if_neg h]
    exact ⟨fun hr => absurd hr (by simp), fun hr => absurd hr.1 h⟩

theorem hasKey_iff {o : Object} : hasKey name o = true ↔ ∃ k, o = .str k ∧ k.bytes = name := by
  cases o with
  | str k =>
    rw [hasKey, decide_eq_true_eq]
    exact ⟨fun h => ⟨k, rfl, h⟩, fun ⟨_, h, hk⟩ => Object.str.inj h ▸ hk⟩
  | _ => exact ⟨fun h => absurd h (by simp [hasKey]), fun ⟨_, h, _⟩ => absurd h (by simp)⟩

theorem natural?_eq_some {o : Object} {n : Nat} : natural? o = some n ↔ o = .positiveInteger n := by
  cases o <;> simp [natural?]

theorem boolean?_eq_some {o : Object} {b : Bool} : boolean? o = some b ↔ o = .boolean b := by
  cases o <;> simp [boolean?]

/-- Some entry has the key and a value that can be read. -/
theorem lastField_isSome {read : Object → Option β} :
    (∃ b, lastMatch (fieldAt (hasKey name) read) kvs = some b) ↔
      ∃ k v b, (Object.str k, v) ∈ kvs ∧ k.bytes = name ∧ read v = some b := by
  rw [lastMatch_isSome]
  constructor
  · rintro ⟨⟨o, v⟩, hmem, b, hf⟩
    obtain ⟨hkey, hread⟩ := fieldAt_eq_some.mp hf
    obtain ⟨k, rfl, hk⟩ := hasKey_iff.mp hkey
    exact ⟨k, v, b, hmem, hk, hread⟩
  · rintro ⟨k, v, b, hmem, hk, hread⟩
    exact ⟨_, hmem, b, fieldAt_eq_some.mpr ⟨hasKey_iff.mpr ⟨k, rfl, hk⟩, hread⟩⟩

theorem lastNatural_isSome :
    (∃ n, lastNatural name kvs = some n) ↔
      ∃ k n, (Object.str k, Object.positiveInteger n) ∈ kvs ∧ k.bytes = name := by
  rw [lastNatural, lastField_isSome]
  constructor
  · rintro ⟨k, v, n, hmem, hk, hread⟩
    obtain rfl := natural?_eq_some.mp hread
    exact ⟨k, n, hmem, hk⟩
  · rintro ⟨k, n, hmem, hk⟩
    exact ⟨k, _, n, hmem, hk, rfl⟩

theorem lastBoolean_isSome :
    (∃ b, lastBoolean name kvs = some b) ↔
      ∃ k b, (Object.str k, Object.boolean b) ∈ kvs ∧ k.bytes = name := by
  rw [lastBoolean, lastField_isSome]
  constructor
  · rintro ⟨k, v, b, hmem, hk, hread⟩
    obtain rfl := boolean?_eq_some.mp hread
    exact ⟨k, b, hmem, hk⟩
  · rintro ⟨k, b, hmem, hk⟩
    exact ⟨k, _, b, hmem, hk, rfl⟩

theorem lastValue_isSome :
    (∃ v, lastValue name kvs = some v) ↔ ∃ k v, (Object.str k, v) ∈ kvs ∧ k.bytes = name := by
  rw [lastValue, lastField_isSome]
  constructor
  · rintro ⟨k, v, b, hmem, hk, -⟩
    exact ⟨k, v, hmem, hk⟩
  · rintro ⟨k, v, hmem, hk⟩
    exact ⟨k, v, v, hmem, hk, rfl⟩

/-! ## The selections -/

/-- The fields `ifb_fun_try_unpack_user_info` selects. -/
def userInfoSelection (kvs : List (Object × Object)) : Except Stop UserInfo :=
  match lastNatural (cStr "id") kvs, lastBoolean (cStr "is_master") kvs with
  | some n, some b => .ok ⟨UInt32.ofNat n, b⟩
  | _, _ => fail "msgpack_unpack_next() err: some value not found."

/-- The fields `ifb_try_unpack_player_input` selects; the coordinates are read through `via.i64`. -/
def playerInputSelection (rd : Reader) (kvs : List (Object × Object)) : Except Stop PlayerInput :=
  match lastNatural (cStr "id") kvs, lastValue (cStr "x") kvs, lastValue (cStr "y") kvs with
  | none, _, _ => fail "ifb_try_unpack_player_input() 'id' is not parsed."
  | some _, none, _ => fail "ifb_try_unpack_player_input() 'x' is not parsed."
  | some _, some _, none => fail "ifb_try_unpack_player_input() 'y' is not parsed."
  | some n, some x, some y =>
    .ok ⟨UInt32.ofNat n, Int32.ofInt (rd.viaI64 x), Int32.ofInt (rd.viaI64 y)⟩

/-- A variable that is written, once its flag is set. -/
def parsed {β : Type} (flag : Bool) (value : β) : Option β := if flag then some value else none

theorem parsed_true {β : Type} (value : β) : parsed true value = some value := rfl

theorem id_ne_isMaster : cStr "id" ≠ cStr "is_master" := by decide

theorem userInfoStep_id (st : UserInfoLoop) (kv : Object × Object) :
    parsed (userInfoStep st kv).isFIdParsed (userInfoStep st kv).unpackRes.id =
      ((fieldAt (hasKey (cStr "id")) natural? kv).map UInt32.ofNat).or
        (parsed st.isFIdParsed st.unpackRes.id) := by
  obtain ⟨k, v⟩ := kv
  cases k with
  | str k =>
    have hne := id_ne_isMaster
    by_cases hid : k.bytes = cStr "id"
    · cases v <;> simp [userInfoStep, fieldAt, hasKey, natural?, parsed_true, hid, hne]
    · cases v with
      | boolean b =>
        by_cases hm : k.bytes = cStr "is_master" <;>
          simp [userInfoStep, fieldAt, hasKey, hid, hm, hne.symm]
      | _ => simp [userInfoStep, fieldAt, hasKey, hid]
  | _ => simp [userInfoStep, fieldAt, hasKey]

theorem userInfoStep_isMaster (st : UserInfoLoop) (kv : Object × Object) :
    parsed (userInfoStep st kv).isFIsMasterParsed (userInfoStep st kv).unpackRes.isMaster =
      (fieldAt (hasKey (cStr "is_master")) boolean? kv).or
        (parsed st.isFIsMasterParsed st.unpackRes.isMaster) := by
  obtain ⟨k, v⟩ := kv
  cases k with
  | str k =>
    have hne := id_ne_isMaster
    by_cases hm : k.bytes = cStr "is_master"
    · cases v <;> simp [userInfoStep, fieldAt, hasKey, boolean?, parsed_true, hm, hne.symm]
    · cases v with
      | positiveInteger n =>
        by_cases hid : k.bytes = cStr "id" <;>
          simp [userInfoStep, fieldAt, hasKey, hid, hm, hne]
      | _ => simp [userInfoStep, fieldAt, hasKey, hm]
  | _ => simp [userInfoStep, fieldAt, hasKey]

/-- The three fields of a player input have three names. -/
theorem inputNames_ne : cStr "id" ≠ cStr "x" ∧ cStr "id" ≠ cStr "y" ∧ cStr "x" ≠ cStr "y" := by
  decide

theorem playerInputStep_id (rd : Reader) (st : PlayerInputLoop) (kv : Object × Object) :
    parsed (playerInputStep rd st kv).isFIdParsed (playerInputStep rd st kv).unpackRes.id =
      ((fieldAt (hasKey (cStr "id")) natural? kv).map UInt32.ofNat).or
        (parsed st.isFIdParsed st.unpackRes.id) := by
  obtain ⟨k, v⟩ := kv
  obtain ⟨hx, hy, -⟩ := inputNames_ne
  cases k with
  | str k =>
    by_cases hid : k.bytes = cStr "id"
    · cases v <;> simp [playerInputStep, fieldAt, hasKey, natural?, parsed_true, hid, hx, hy]
    · simp only [playerInputStep, fieldAt, hasKey, hid, decide_false, if_false,
        Bool.false_eq_true, Option.map_none, Option.none_or]
      split_ifs <;> rfl
  | _ => simp [playerInputStep, fieldAt, hasKey]

theorem playerInputStep_x (rd : Reader) (st : PlayerInputLoop) (kv : Object × Object) :
    parsed (playerInputStep rd st kv).isFXParsed (playerInputStep rd st kv).unpackRes.x =
      ((fieldAt (hasKey (cStr "x")) some kv).map fun v => Int32.ofInt (rd.viaI64 v)).or
        (parsed st.isFXParsed st.unpackRes.x) := by
  obtain ⟨k, v⟩ := kv
  cases k with
  | str k =>
    by_cases hx : k.bytes = cStr "x"
    · simp [playerInputStep, fieldAt, hasKey, parsed_true, hx]
    · simp only [playerInputStep, fieldAt, hasKey, hx, decide_false, if_false,
        Bool.false_eq_true, Option.map_none, Option.none_or]
      split_ifs
      · rfl
      · cases v <;> rfl
      · rfl
  | _ => simp [playerInputStep, fieldAt, hasKey]

theorem playerInputStep_y (rd : Reader) (st : PlayerInputLoop) (kv : Object × Object) :
    parsed (playerInputStep rd st kv).isFYParsed (playerInputStep rd st kv).unpackRes.y =
      ((fieldAt (hasKey (cStr "y")) some kv).map fun v => Int32.ofInt (rd.viaI64 v)).or
        (parsed st.isFYParsed st.unpackRes.y) := by
  obtain ⟨k, v⟩ := kv
  obtain ⟨-, -, hxy⟩ := inputNames_ne
  cases k with
  | str k =>
    by_cases hy : k.bytes = cStr "y"
    · simp [playerInputStep, fieldAt, hasKey, parsed_true, hy, hxy.symm]
    · simp only [playerInputStep, fieldAt, hasKey, hy, decide_false, if_false,
        Bool.false_eq_true, Option.map_none, Option.none_or]
      split_ifs
      · rfl
      · cases v <;> rfl
      · rfl
  | _ => simp [playerInputStep, fieldAt, hasKey]

/-- What follows the loop, by the fields that were parsed. -/
theorem userInfoResult_eq (st : UserInfoLoop) :
    userInfoResult st =
      match parsed st.isFIdParsed st.unpackRes.id,
        parsed st.isFIsMasterParsed st.unpackRes.isMaster with
      | some id, some b => .ok ⟨id, b⟩
      | _, _ => fail "msgpack_unpack_next() err: some value not found." := by
  obtain ⟨⟨id, b⟩, f₁, f₂⟩ := st
  cases f₁ <;> cases f₂ <;> rfl

theorem playerInputResult_eq (st : PlayerInputLoop) :
    playerInputResult st =
      match parsed st.isFIdParsed st.unpackRes.id, parsed st.isFXParsed st.unpackRes.x,
        parsed st.isFYParsed st.unpackRes.y with
      | none, _, _ => fail "ifb_try_unpack_player_input() 'id' is not parsed."
      | some _, none, _ => fail "ifb_try_unpack_player_input() 'x' is not parsed."
      | some _, some _, none => fail "ifb_try_unpack_player_input() 'y' is not parsed."
      | some id, some x, some y => .ok ⟨id, x, y⟩ := by
  obtain ⟨⟨id, x, y⟩, f₁, f₂, f₃⟩ := st
  cases f₁ <;> cases f₂ <;> cases f₃ <;> rfl

/-- **`ifb_fun_try_unpack_user_info` on a map** returns what it selects. -/
theorem unpackUserInfo_selection {mp : Msgpack} (rd : Reader) (data : Option Bytes)
    (h : mp.unpackNext (data.getD []) = .success (.map kvs)) :
    ifbFunTryUnpackUserInfo mp rd data = userInfoSelection kvs := by
  rw [unpackUserInfo_map rd data h, userInfoResult_eq]
  have hid := foldl_lastMatch_unwritten userInfoStep
    (fun st => parsed st.isFIdParsed st.unpackRes.id) _ userInfoStep_id kvs .init rfl
  have hm := foldl_lastMatch_unwritten userInfoStep
    (fun st => parsed st.isFIsMasterParsed st.unpackRes.isMaster) _ userInfoStep_isMaster kvs
    .init rfl
  rw [hid, hm, lastMatch_value]
  unfold userInfoSelection lastNatural lastBoolean
  cases lastMatch (fieldAt (hasKey (cStr "id")) natural?) kvs <;>
    cases lastMatch (fieldAt (hasKey (cStr "is_master")) boolean?) kvs <;> rfl

/-- **`ifb_try_unpack_player_input` on a map** returns what it selects. -/
theorem unpackPlayerInput_selection {mp : Msgpack} (rd : Reader) (data : Option Bytes)
    (h : mp.unpackNext (data.getD []) = .success (.map kvs)) :
    ifbTryUnpackPlayerInput mp rd data = playerInputSelection rd kvs := by
  rw [unpackPlayerInput_map rd data h, playerInputResult_eq]
  have hid := foldl_lastMatch_unwritten (playerInputStep rd)
    (fun st => parsed st.isFIdParsed st.unpackRes.id) _ (playerInputStep_id rd) kvs
    .init rfl
  have hx := foldl_lastMatch_unwritten (playerInputStep rd)
    (fun st => parsed st.isFXParsed st.unpackRes.x) _ (playerInputStep_x rd) kvs
    .init rfl
  have hy := foldl_lastMatch_unwritten (playerInputStep rd)
    (fun st => parsed st.isFYParsed st.unpackRes.y) _ (playerInputStep_y rd) kvs
    .init rfl
  rw [hid, hx, hy, lastMatch_value, lastMatch_value, lastMatch_value]
  unfold playerInputSelection lastNatural lastValue
  cases lastMatch (fieldAt (hasKey (cStr "id")) natural?) kvs <;>
    cases lastMatch (fieldAt (hasKey (cStr "x")) some) kvs <;>
      cases lastMatch (fieldAt (hasKey (cStr "y")) some) kvs <;> rfl

/-! ## What they return -/

theorem userInfoSelection_eq_ok {ui : UserInfo} : userInfoSelection kvs = .ok ui ↔
    ∃ n, lastNatural (cStr "id") kvs = some n ∧ ui.id = UInt32.ofNat n ∧
      lastBoolean (cStr "is_master") kvs = some ui.isMaster := by
  unfold userInfoSelection
  cases lastNatural (cStr "id") kvs with
  | none => simp [fail]
  | some n =>
    cases lastBoolean (cStr "is_master") kvs with
    | none => simp [fail]
    | some b =>
      obtain ⟨id, m⟩ := ui
      constructor
      · intro h
        cases h
        exact ⟨n, rfl, rfl, rfl⟩
      · rintro ⟨n', hn, rfl, hb⟩
        cases hn
        cases hb
        rfl

theorem playerInputSelection_eq_ok {rd : Reader} {pi : PlayerInput} :
    playerInputSelection rd kvs = .ok pi ↔
      ∃ n x y, lastNatural (cStr "id") kvs = some n ∧ lastValue (cStr "x") kvs = some x ∧
        lastValue (cStr "y") kvs = some y ∧
        pi = ⟨UInt32.ofNat n, Int32.ofInt (rd.viaI64 x), Int32.ofInt (rd.viaI64 y)⟩ := by
  unfold playerInputSelection
  cases lastNatural (cStr "id") kvs with
  | none => simp [fail]
  | some n =>
    cases lastValue (cStr "x") kvs with
    | none => simp [fail]
    | some x =>
      cases lastValue (cStr "y") kvs with
      | none => simp [fail]
      | some y =>
        constructor
        · intro h
          exact ⟨n, x, y, rfl, rfl, rfl, (Except.ok.inj h).symm⟩
        · rintro ⟨n', x', y', hn, hx, hy, rfl⟩
          cases hn
          cases hx
          cases hy
          rfl

/-- An integer is returned modulo `2^32`, as a signed number. -/
theorem ofInt_viaI64_integer (rd : Reader) {v : Object} {i : Int} (h : integer? v = some i) :
    (Int32.ofInt (rd.viaI64 v)).toInt = i.bmod (2 ^ 32) := by
  rw [Int32.toInt_ofInt]
  cases v with
  | positiveInteger n =>
    cases h
    rw [viaI64_positiveInteger]
    exact Int.bmod_bmod_of_dvd (by decide)
  | negativeInteger j =>
    cases h
    rw [viaI64_negativeInteger]
    rfl
  | _ => exact absurd h (by simp [integer?])

end MasterRelay.Protocol
