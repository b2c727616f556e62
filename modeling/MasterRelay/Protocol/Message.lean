import MasterRelay.Lib.MsgPack.Format

/-!
# The shared protocol: messages and framing

The types of `protocol_msg.h` and the framing half of `protocol_msg.c`: a packet is one type byte
followed by a MessagePack payload.

* `ifbPtclTryParseMessageByType` is `ifb_ptcl_try_parse_message_by_type`: the switch over the first
  byte, the payload pointer (`none` is NULL: a packet of one byte has no payload) and the two ways
  it returns false, one of which leaves `err_buf` alone.
* `frame` is the buffer `ifb_ptcl_try_send_msg_packet` and `ifb_ptcl_try_broadcast_msg_packet`
  build.
* `Stop` is what ends a C function early: `return false` with what it wrote into `err_buf`, or an
  access to memory it does not own.

Result: `parse_frame`, a framed payload is parsed back.

Not modelled: `ifb_msg_type_to_str` and everything printed.
-/

namespace MasterRelay.Protocol

open MasterRelay.Lib.MsgPack

/-- The bytes of a C string literal. -/
def cStr (s : String) : Bytes := s.toList.map fun c => UInt8.ofNat c.toNat

/-- `ifb_en_channel_id`. -/
inductive ChannelId where
  | critical
  | stream
  | streamPuppetInputs
  | service
  deriving DecidableEq, Repr

/-- The number of a channel. -/
def ChannelId.toNat : ChannelId → Nat
  | .critical => 0
  | .stream => 1
  | .streamPuppetInputs => 2
  | .service => 3

/-- `ifb_en_message_type`. -/
inductive MessageType where
  | none
  | reqUserInfo
  | resUserInfo
  | gameStateUpd
  | playerInput
  | slaveConnected
  deriving DecidableEq, Repr

/-- The type byte. -/
def MessageType.toByte : MessageType → UInt8
  | .none => 0
  | .reqUserInfo => 1
  | .resUserInfo => 2
  | .gameStateUpd => 3
  | .playerInput => 4
  | .slaveConnected => 5

/-- `ifb_strct_player_input`. -/
structure PlayerInput where
  id : UInt32
  x : Int32
  y : Int32
  deriving DecidableEq, Repr

/-- `ifb_strct_user_info`. -/
structure UserInfo where
  id : UInt32
  isMaster : Bool
  deriving DecidableEq, Repr

/-- `ifb_strct_player_pos`. -/
structure PlayerPos where
  isExists : Bool
  x : Int32
  y : Int32
  deriving DecidableEq, Repr

/-- `ifb_strct_game_state`. -/
structure GameState where
  tick : UInt32
  pos1 : PlayerPos
  pos2 : PlayerPos
  pos3 : PlayerPos
  pos4 : PlayerPos
  deriving DecidableEq, Repr

/-- `{0}` -/
def PlayerInput.zero : PlayerInput := ⟨0, 0, 0⟩

/-- `{0}` -/
def UserInfo.zero : UserInfo := ⟨0, false⟩

/-- `{0}` -/
def PlayerPos.zero : PlayerPos := ⟨false, 0, 0⟩

/-- `{0}` -/
def GameState.zero : GameState := ⟨0, .zero, .zero, .zero, .zero⟩

/-- Why a function stops early: it returns false with `err_buf` holding `err` (`none`: `err_buf`
is left as it was), or it touches memory outside its objects. -/
inductive Stop where
  | err (err : Option String)
  | fault
  deriving DecidableEq, Repr

/-- `return false` after `snprintf(err_buf, ...)`. -/
def fail {α : Type} (msg : String) : Except Stop α := .error (.err (some msg))

/-- `is_suitable_msg_type`. -/
def isSuitableMsgType : MessageType → Bool
  | .reqUserInfo => true
  | .resUserInfo => true
  | .gameStateUpd => true
  | .slaveConnected => true
  | .playerInput => true
  | _ => false

/-- The `switch` of `ifb_ptcl_try_parse_message_by_type` over the first byte. -/
def typeOfByte (b : UInt8) : Option MessageType :=
  if b = MessageType.reqUserInfo.toByte then some .reqUserInfo
  else if b = MessageType.resUserInfo.toByte then some .resUserInfo
  else if b = MessageType.gameStateUpd.toByte then some .gameStateUpd
  else if b = MessageType.slaveConnected.toByte then some .slaveConnected
  else if b = MessageType.playerInput.toByte then some .playerInput
  else none

/-- `ifb_ptcl_try_parse_message_by_type`: the message type and `out_only_msg_payload`, which stays
NULL when nothing follows the type byte. -/
def ifbPtclTryParseMessageByType : Bytes → Except Stop (MessageType × Option Bytes)
  -- an empty packet returns false without a message
  | [] => .error (.err none)
  | b :: payload =>
    match typeOfByte b with
    | some t => .ok (t, if payload.length ≥ 1 then some payload else none)
    | none => fail ("unknown msg_type: " ++ toString b.toNat)

/-- The packet of a message: the type byte, then the contents of `sbuf` when there is one. -/
def frame (t : MessageType) (sbuf : Option Bytes) : Bytes := t.toByte :: sbuf.getD []

theorem typeOfByte_toByte {t : MessageType} (h : isSuitableMsgType t = true) :
    typeOfByte t.toByte = some t := by
  cases t <;> first | rfl | exact absurd h (by decide)

theorem typeOfByte_eq_some {b : UInt8} {t : MessageType} (h : typeOfByte b = some t) :
    b = t.toByte := by
  unfold typeOfByte at h
  split_ifs at h with h1 h2 h3 h4 h5 <;> cases h <;> assumption

/-- A frame is parsed to its type. -/
theorem parse_frame_type {t : MessageType} (h : isSuitableMsgType t = true)
    (sbuf : Option Bytes) :
    ∃ payload, ifbPtclTryParseMessageByType (frame t sbuf) = .ok (t, payload) := by
  simp only [frame, ifbPtclTryParseMessageByType, typeOfByte_toByte h]
  exact ⟨_, rfl⟩

/-- **A framed payload is parsed back.** -/
theorem parse_frame {t : MessageType} (h : isSuitableMsgType t = true) {payload : Bytes}
    (hp : payload ≠ []) :
    ifbPtclTryParseMessageByType (frame t (some payload)) = .ok (t, some payload) := by
  have hlen : payload.length ≥ 1 := List.length_pos_iff.mpr hp
  simp only [frame, Option.getD_some, ifbPtclTryParseMessageByType, typeOfByte_toByte h,
    if_pos hlen]

/-- A parsed packet starts with the byte of its type; its payload, if there is one, is the rest. -/
theorem parse_eq_ok {data : Bytes} {t : MessageType} {payload : Option Bytes}
    (h : ifbPtclTryParseMessageByType data = .ok (t, payload)) :
    data = frame t payload ∧ payload ≠ some [] := by
  cases data with
  | nil => exact absurd h (by simp [ifbPtclTryParseMessageByType])
  | cons b r =>
    simp only [ifbPtclTryParseMessageByType] at h
    split at h
    · rename_i t' ht
      obtain ⟨rfl, rfl⟩ := Prod.mk.inj (Except.ok.inj h)
      rw [typeOfByte_eq_some ht]
      cases r <;> simp [frame]
    · exact absurd h (by simp [fail])

end MasterRelay.Protocol
