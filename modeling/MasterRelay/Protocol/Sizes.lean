import MasterRelay.Lib.MsgPack.Size
import MasterRelay.Protocol.RoundTrip

/-!
# How long the packets are

Whatever encodings msgpack-c chooses, what the program packs is short, for all values: the longest
packet is that of a game state, which stays below 384 bytes (`frame_gameState_size`).
-/

namespace MasterRelay.Protocol

open MasterRelay.Lib.MsgPack

variable {mp : Msgpack} (hmp : mp.Lawful)

include hmp

/-! ## What is packed in one call -/

/-- The header of a map. -/
theorem packMap_size {n : Nat} (hn : n < 2 ^ 32) : (mp.packMap n).length ≤ 9 := by
  have hsize := token_size (hmp.packMap n hn [])
  simpa [Token.body] using hsize

theorem packUint32_size (u : UInt32) : (mp.packUint32 u).length ≤ 9 := by
  have hsize := token_size (hmp.packUint32 u [])
  simpa [Token.body] using hsize

theorem packInt32_size (i : Int32) : (mp.packInt32 i).length ≤ 9 := by
  have hsize := token_size (hmp.packInt32 i [])
  have hbody : (Token.scalar (intObject i.toInt)).body = 0 := by
    unfold intObject
    split_ifs <;> rfl
  rw [hbody] at hsize
  simpa using hsize

theorem packBoolean_size (b : Bool) : (packBoolean mp b).length ≤ 9 := by
  cases b with
  | true =>
    have hsize := token_size (hmp.packTrue [])
    simpa [Token.body, packBoolean] using hsize
  | false =>
    have hsize := token_size (hmp.packFalse [])
    simpa [Token.body, packBoolean] using hsize

/-- A string takes at most nine bytes more than its text. -/
theorem strBytes_size (text : String) (h : (cStr text).length < 2 ^ 32) :
    (strBytes mp text).length ≤ 9 + (cStr text).length := by
  have hsize := token_size (hmp.packStr (cStr text) h [])
  simpa [Token.body, strBytes] using hsize

/-! ## The payloads -/

theorem userInfoBytes_size (ui : UserInfo) : (userInfoBytes mp ui).length ≤ 56 := by
  have hmap := packMap_size hmp (n := 2) (by decide)
  have hid := strBytes_size hmp "id" (by decide)
  have hmaster := strBytes_size hmp "is_master" (by decide)
  have huint := packUint32_size hmp ui.id
  have hbool := packBoolean_size hmp ui.isMaster
  have hlen : (cStr "id").length = 2 ∧ (cStr "is_master").length = 9 := by decide
  simp only [userInfoBytes, List.length_append]
  omega

theorem playerInputBytes_size (pi : PlayerInput) : (playerInputBytes mp pi).length ≤ 67 := by
  have hmap := packMap_size hmp (n := 3) (by decide)
  have hid := strBytes_size hmp "id" (by decide)
  have hx := strBytes_size hmp "x" (by decide)
  have hy := strBytes_size hmp "y" (by decide)
  have huint := packUint32_size hmp pi.id
  have hintx := packInt32_size hmp pi.x
  have hinty := packInt32_size hmp pi.y
  have hlen : (cStr "id").length = 2 ∧ (cStr "x").length = 1 ∧ (cStr "y").length = 1 := by decide
  simp only [playerInputBytes, List.length_append]
  omega

theorem playerPosBytes_size (pos : PlayerPos) : (playerPosBytes mp pos).length ≤ 74 := by
  have hmap := packMap_size hmp (n := 3) (by decide)
  have hexists := strBytes_size hmp "is_exists" (by decide)
  have hx := strBytes_size hmp "x" (by decide)
  have hy := strBytes_size hmp "y" (by decide)
  have hbool := packBoolean_size hmp pos.isExists
  have hintx := packInt32_size hmp pos.x
  have hinty := packInt32_size hmp pos.y
  have hlen : (cStr "is_exists").length = 9 ∧ (cStr "x").length = 1 ∧ (cStr "y").length = 1 := by
    decide
  simp only [playerPosBytes, List.length_append]
  omega

/-- The entries of the positions; a key has five bytes while there are nine of them at most. -/
theorem posEntriesBytes_size : ∀ (ps : List PlayerPos) (i : Nat), i + ps.length ≤ 9 →
    (posEntriesBytes mp i ps).length ≤ 88 * ps.length
  | [], _, _ => Nat.le_refl _
  | p :: ps, i, hi => by
    rw [List.length_cons] at hi
    have hkeys : ∀ j : Fin 9, (cStr (posKey j)).length = 5 := by decide
    have hkey : (cStr (posKey i)).length = 5 := hkeys ⟨i, by omega⟩
    have hstr := strBytes_size hmp (posKey i) (by omega)
    have hpos := playerPosBytes_size hmp p
    have hrest := posEntriesBytes_size ps (i + 1) (by omega)
    simp only [posEntriesBytes, List.length_append, List.length_cons]
    omega

theorem gameStateBytes_size (gs : GameState) : (gameStateBytes mp gs).length ≤ 383 := by
  have hmap := packMap_size hmp (n := 5) (by decide)
  have htick := strBytes_size hmp "tick" (by decide)
  have huint := packUint32_size hmp gs.tick
  have hentries :=
    posEntriesBytes_size hmp [gs.pos1, gs.pos2, gs.pos3, gs.pos4] 0 (by simp)
  have hlen : (cStr "tick").length = 4 := by decide
  simp only [gameStateBytes, List.length_append, List.length_cons, List.length_nil] at hentries ⊢
  omega

/-! ## The packets -/

theorem inputPacket_size (pi : PlayerInput) : (inputPacket mp pi).length ≤ 68 := by
  have hsize := playerInputBytes_size hmp pi
  simp only [inputPacket, frame, List.length_cons, Option.getD_some]
  omega

/-- **The packet of a game state.** -/
theorem frame_gameState_size (gs : GameState) :
    (frame .gameStateUpd (some (gameStateBytes mp gs))).length ≤ 384 := by
  have hsize := gameStateBytes_size hmp gs
  simp only [frame, List.length_cons, Option.getD_some]
  omega

end MasterRelay.Protocol
