import MasterRelay.Protocol.Pack
import MasterRelay.Protocol.Entries

/-!
# Unpacking what was packed

With msgpack-c following the format (`Msgpack.Lawful`), each decoder gives back what the matching
encoder packed, whatever bytes follow, for every reader that sees memory as the program does:
`unpack_userInfoBytes`, `unpack_playerInputBytes`, `unpack_gameStateBytes`.

Each proof has two halves: the packed bytes parse as a map with the entries one expects
(`parses_*`), and the loop over these entries ends with the value.
-/

namespace MasterRelay.Protocol

open MasterRelay.Lib.MsgPack

variable {mp : Msgpack} (hmp : mp.Lawful)

section Scalars

variable {d k : Nat} {r rest : Bytes} {os : List Object}

include hmp

theorem parses_str (text : String) (hlen : (cStr text).length < 2 ^ 32)
    (h : Parses d k r os rest) :
    Parses d (k + 1) (strBytes mp text ++ r) (.str ⟨cStr text, r⟩ :: os) rest := by
  rw [strBytes, List.append_assoc]
  exact .scalar (hmp.packStr _ hlen r) h

theorem parses_posKey (i : Fin 4) (h : Parses d k r os rest) :
    Parses d (k + 1) (strBytes mp (posKey i) ++ r) (.str ⟨posName i, r⟩ :: os) rest := by
  have hkey : ∀ i : Fin 4, cStr (posKey i) = posName i := by decide
  have hlen : ∀ i : Fin 4, (cStr (posKey i)).length < 2 ^ 32 := by decide
  rw [← hkey i]
  exact parses_str hmp (posKey i) (hlen i) h

theorem parses_uint32 (u : UInt32) (h : Parses d k r os rest) :
    Parses d (k + 1) (mp.packUint32 u ++ r) (.positiveInteger u.toNat :: os) rest :=
  .scalar (hmp.packUint32 u r) h

theorem parses_int32 (i : Int32) (h : Parses d k r os rest) :
    Parses d (k + 1) (mp.packInt32 i ++ r) (intObject i.toInt :: os) rest :=
  .scalar (hmp.packInt32 i r) h

theorem parses_packBoolean (b : Bool) (h : Parses d k r os rest) :
    Parses d (k + 1) (packBoolean mp b ++ r) (.boolean b :: os) rest := by
  cases b
  · exact .scalar (hmp.packFalse r) h
  · exact .scalar (hmp.packTrue r) h

end Scalars

/-! ## Integers -/

theorem bmod_64 {i : Int} (hlo : -2 ^ 63 ≤ i) (hhi : i < 2 ^ 63) : i.bmod (2 ^ 64) = i := by
  apply Int.bmod_eq_of_le_mul_two <;> omega

theorem viaI64_intObject (rd : Reader) {i : Int} (hlo : -2 ^ 63 ≤ i) (hhi : i < 2 ^ 63) :
    rd.viaI64 (intObject i) = i := by
  unfold intObject
  split
  · rename_i h
    rw [viaI64_positiveInteger, Int.toNat_of_nonneg h]
    exact bmod_64 hlo hhi
  · exact viaI64_negativeInteger rd i

/-- `via.i64` of a packed `int32_t`, cast back. -/
theorem ofInt_viaI64 (rd : Reader) (x : Int32) :
    Int32.ofInt (rd.viaI64 (intObject x.toInt)) = x := by
  have hlo := x.le_toInt
  have hhi := x.toInt_lt
  rw [viaI64_intObject rd (by omega) (by omega), Int32.ofInt_toInt]

/-! ## User info -/

include hmp in
theorem parses_userInfo (u : UserInfo) (r : Bytes) : ∃ a b,
    Parses msgpackEmbedStackSize 1 (userInfoBytes mp u ++ r)
      [.map [(.str ⟨cStr "id", a⟩, .positiveInteger u.id.toNat),
        (.str ⟨cStr "is_master", b⟩, .boolean u.isMaster)]] r := by
  have h := Parses.map (d := 31) (hmp.packMap 2 (by decide) _)
    (parses_str hmp "id" (by decide) (parses_uint32 hmp u.id
      (parses_str hmp "is_master" (by decide) (parses_packBoolean hmp u.isMaster (.zero _ r)))))
    (.zero _ r)
  simp only [userInfoBytes, List.append_assoc]
  exact ⟨_, _, h⟩

include hmp in
/-- **`ifb_fun_try_unpack_user_info` undoes `ifb_try_pack_user_info`.** -/
theorem unpack_userInfoBytes (rd : Reader) (u : UserInfo) (r : Bytes) :
    ifbFunTryUnpackUserInfo mp rd (some (userInfoBytes mp u ++ r)) = .ok u := by
  obtain ⟨a, b, h⟩ := parses_userInfo hmp u r
  rw [unpackUserInfo_map rd (some _) (hmp.unpackNext h)]
  simp [userInfoStep, userInfoResult, UserInfoLoop.init]

include hmp in
theorem userInfoBytes_ne_nil (u : UserInfo) : userInfoBytes mp u ≠ [] := by
  obtain ⟨a, b, h⟩ := parses_userInfo hmp u []
  rw [List.append_nil] at h
  exact hmp.ne_nil (hmp.unpackNext h)

/-! ## Player inputs -/

include hmp in
theorem parses_playerInput (pi : PlayerInput) (r : Bytes) : ∃ a b c,
    Parses msgpackEmbedStackSize 1 (playerInputBytes mp pi ++ r)
      [.map [(.str ⟨cStr "id", a⟩, .positiveInteger pi.id.toNat),
        (.str ⟨cStr "x", b⟩, intObject pi.x.toInt),
        (.str ⟨cStr "y", c⟩, intObject pi.y.toInt)]] r := by
  have h := Parses.map (d := 31) (hmp.packMap 3 (by decide) _)
    (parses_str hmp "id" (by decide) (parses_uint32 hmp pi.id
      (parses_str hmp "x" (by decide) (parses_int32 hmp pi.x
        (parses_str hmp "y" (by decide) (parses_int32 hmp pi.y (.zero _ r)))))))
    (.zero _ r)
  simp only [playerInputBytes, List.append_assoc]
  exact ⟨_, _, _, h⟩

include hmp in
/-- **`ifb_try_unpack_player_input` undoes `ifb_try_pack_player_input`.** -/
theorem unpack_playerInputBytes (rd : Reader) (pi : PlayerInput) (r : Bytes) :
    ifbTryUnpackPlayerInput mp rd (some (playerInputBytes mp pi ++ r)) = .ok pi := by
  obtain ⟨a, b, c, h⟩ := parses_playerInput hmp pi r
  rw [unpackPlayerInput_map rd (some _) (hmp.unpackNext h)]
  have hid : cStr "id" ≠ cStr "x" ∧ cStr "id" ≠ cStr "y" := by decide
  have hy : cStr "y" ≠ cStr "x" := by decide
  simp [playerInputStep, playerInputResult, PlayerInputLoop.init, hid.1, hid.2, hy, ofInt_viaI64]

include hmp in
theorem playerInputBytes_ne_nil (pi : PlayerInput) : playerInputBytes mp pi ≠ [] := by
  obtain ⟨a, b, c, h⟩ := parses_playerInput hmp pi []
  rw [List.append_nil] at h
  exact hmp.ne_nil (hmp.unpackNext h)

/-- The packet of a player input. -/
def inputPacket (mp : Msgpack) (pi : PlayerInput) : Bytes :=
  frame .playerInput (some (playerInputBytes mp pi))

include hmp in
theorem parse_inputPacket (pi : PlayerInput) :
    ifbPtclTryParseMessageByType (inputPacket mp pi) =
      .ok (.playerInput, some (playerInputBytes mp pi)) :=
  parse_frame rfl (playerInputBytes_ne_nil hmp pi)

/-! ## Positions -/

/-- The entries of a packed position, with whatever follows each key. -/
def PosEntries (p : PlayerPos) (kvs : List (Object × Object)) : Prop :=
  ∃ a b c, kvs = [(.str ⟨cStr "is_exists", a⟩, .boolean p.isExists),
    (.str ⟨cStr "x", b⟩, intObject p.x.toInt), (.str ⟨cStr "y", c⟩, intObject p.y.toInt)]

include hmp in
theorem parses_playerPos (p : PlayerPos) {d k : Nat} {r rest : Bytes} {os : List Object}
    (h : Parses (d + 1) k r os rest) : ∃ kvs, PosEntries p kvs ∧
      Parses (d + 1) (k + 1) (playerPosBytes mp p ++ r) (.map kvs :: os) rest := by
  have h := Parses.map (hmp.packMap 3 (by decide) _)
    (parses_str hmp "is_exists" (by decide) (parses_packBoolean hmp p.isExists
      (parses_str hmp "x" (by decide) (parses_int32 hmp p.x
        (parses_str hmp "y" (by decide) (parses_int32 hmp p.y (.zero d r)))))))
    h
  simp only [playerPosBytes, List.append_assoc]
  exact ⟨_, ⟨_, _, _, rfl⟩, h⟩

/-- The loop over the entries of a packed position. -/
theorem unpack_posEntries (mp : Msgpack) (past : Nat → UInt8) (stale : Object → Int)
    (out p : PlayerPos) {kvs : List (Object × Object)} (h : PosEntries p kvs) :
    ifbTryUnpackPlayerPos mp (.buffer past stale) out (.map kvs) = .ok p := by
  obtain ⟨a, b, c, rfl⟩ := h
  have hx := ofInt_viaI64 (.buffer past stale) p.x
  have hy := ofInt_viaI64 (.buffer past stale) p.y
  show Except.ok (PlayerPos.mk p.isExists (Int32.ofInt _) (Int32.ofInt _)) = _
  rw [hx, hy]

/-! ## Game states -/

include hmp in
theorem parses_gameState (gs : GameState) (r : Bytes) :
    ∃ a b₁ b₂ b₃ b₄ e₁ e₂ e₃ e₄, PosEntries gs.pos1 e₁ ∧ PosEntries gs.pos2 e₂ ∧
      PosEntries gs.pos3 e₃ ∧ PosEntries gs.pos4 e₄ ∧
      Parses msgpackEmbedStackSize 1 (gameStateBytes mp gs ++ r)
        [.map [(.str ⟨cStr "tick", a⟩, .positiveInteger gs.tick.toNat),
          (.str ⟨posName 0, b₁⟩, .map e₁), (.str ⟨posName 1, b₂⟩, .map e₂),
          (.str ⟨posName 2, b₃⟩, .map e₃), (.str ⟨posName 3, b₄⟩, .map e₄)]] r := by
  obtain ⟨e₄, he₄, h₄⟩ := parses_playerPos hmp (d := 30) gs.pos4 (.zero _ r)
  obtain ⟨e₃, he₃, h₃⟩ :=
    parses_playerPos hmp gs.pos3 (parses_posKey hmp 3 h₄)
  obtain ⟨e₂, he₂, h₂⟩ :=
    parses_playerPos hmp gs.pos2 (parses_posKey hmp 2 h₃)
  obtain ⟨e₁, he₁, h₁⟩ :=
    parses_playerPos hmp gs.pos1 (parses_posKey hmp 1 h₂)
  have h := Parses.map (hmp.packMap 5 (by decide) _)
    (parses_str hmp "tick" (by decide) (parses_uint32 hmp gs.tick
      (parses_posKey hmp 0 h₁)))
    (.zero _ r)
  simp only [gameStateBytes, posEntriesBytes, List.append_assoc, List.nil_append]
  exact ⟨_, _, _, _, _, e₁, e₂, e₃, e₄, he₁, he₂, he₃, he₄, h⟩

include hmp in
theorem gameStateBytes_ne_nil (gs : GameState) : gameStateBytes mp gs ≠ [] := by
  obtain ⟨_, _, _, _, _, _, _, _, _, -, -, -, -, h⟩ := parses_gameState hmp gs []
  rw [List.append_nil] at h
  exact hmp.ne_nil (hmp.unpackNext h)

/-- The locals after each field was set once. -/
theorem gameStateResult_set (t : Nat) (p₁ p₂ p₃ p₄ : PlayerPos) :
    gameStateResult (((((GameStateLoop.init.setTick t).setPos 0 p₁).setPos 1 p₂).setPos 2 p₃).setPos
      3 p₄) = .ok ⟨UInt32.ofNat t, p₁, p₂, p₃, p₄⟩ := rfl

include hmp in
/-- **`ifb_try_unpack_game_state` undoes `ifb_try_pack_game_state`.** -/
theorem unpack_gameStateBytes (past : Nat → UInt8) (stale : Object → Int) (gs : GameState)
    (r : Bytes) :
    ifbTryUnpackGameState mp (.buffer past stale) (some (gameStateBytes mp gs ++ r)) = .ok gs := by
  obtain ⟨a, b₁, b₂, b₃, b₄, e₁, e₂, e₃, e₄, h₁, h₂, h₃, h₄, h⟩ := parses_gameState hmp gs r
  have hpos : ∀ out p kvs, PosEntries p kvs →
      ifbTryUnpackPlayerPos mp (.buffer past stale) out (.map kvs) = .ok p :=
    fun out p kvs he => unpack_posEntries mp past stale out p he
  simp only [ifbTryUnpackGameState, hmp.unpackNext h, List.foldlM_cons, List.foldlM_nil, bind,
    Except.bind, gameStateEntry_tick mp _ (k := ⟨cStr "tick", a⟩) rfl,
    gameStateEntry_pos mp _ (k := ⟨posName 0, b₁⟩) (i := 0) rfl,
    gameStateEntry_pos mp _ (k := ⟨posName 1, b₂⟩) (i := 1) rfl,
    gameStateEntry_pos mp _ (k := ⟨posName 2, b₃⟩) (i := 2) rfl,
    gameStateEntry_pos mp _ (k := ⟨posName 3, b₄⟩) (i := 3) rfl,
    hpos _ _ _ h₁, hpos _ _ _ h₂, hpos _ _ _ h₃, hpos _ _ _ h₄, Except.map]
  exact (gameStateResult_set _ _ _ _ _).trans (by rw [UInt32.ofNat_toNat])

end MasterRelay.Protocol
