import MasterRelay.Lib.Runs
import MasterRelay.Protocol.Send
import MasterRelay.Server.Registry

/-!
# The event loop of the server

`server.c` from `handle_game_state_updated_by_master` to `main`. One event of `enet_host_service` is
one step of the system `server`; its state is the table, its outputs are the packets that leave. A
step is refused where the process would fault (a copy, a packet or a key that is not there).

Handling an event writes `err_buf` and prints; neither is read again, so neither is kept. The loop
looks the sender of a packet up with `try_get_player_by_peer` and only prints what it finds.

`announce_cases`, `handlePlayerRegister_cases`, `onReceive_cases` and `disconnect_cases` say all a
step can do, and `server_outputs` all it can send; nothing after them unfolds the handlers.
-/

namespace MasterRelay.Server

open MasterRelay.Lib.MsgPack
open MasterRelay.Lib.Runs
open MasterRelay.Protocol

/-- An `ENetEvent`, with the environment it is handled in. -/
inductive Event (P : Type) where
  | connect (peer : P)
  | receive (env : Env P) (peer : P) (data : Bytes)
  | disconnect (peer : P)

variable {P : Type} (mp : Msgpack) (env : Env P)

/-- `handle_game_state_updated_by_master`. -/
def handleGameStateUpdatedByMaster (gameState : GameState) : Option (List (Output P)) :=
  match packed env (ifbTryPackGameState mp gameState) with
  | .error _ => some []
  | .ok sbuf =>
    match ifbPtclTryBroadcastMsgPacket env .gameStateUpd .stream (some sbuf) false false with
    | .error .fault => none
    | .error (.err _) => some []
    | .ok o => some [o]

/-- The second half of `handle_player_register`: the new player and the master are told. -/
def announce (t : Table P) (peer : P) (outIndex : Slot) (isMaster : Bool) : List (Output P) :=
  match packed env (ifbTryPackUserInfo mp ⟨UInt32.ofNat outIndex, isMaster⟩) with
  | .error _ => []
  | .ok sbuf =>
    match ifbPtclTrySendMsgPacket env .resUserInfo .critical (some sbuf) (some peer) true true with
    | .error _ => []
    | .ok res =>
      if isMaster then [res]
      else
        match tryGetMasterClient t with
        | .error _ => [res]
        | .ok master =>
          match ifbPtclTrySendMsgPacket env .slaveConnected .critical (some sbuf) (t master).peer
              true true with
          | .error _ => [res]
          | .ok connected => [res, connected]

variable [DecidableEq P]

/-- `handle_player_register`. -/
def handlePlayerRegister (t : Table P) (peer : P) : Option (Table P × List (Output P)) :=
  if isPlayerActive t peer then some (t, [])
  else
    let p := newPlayer peer (getActivePlayersCount t == 0)
    match tryRegisterPlayer env.mallocPlayer t p with
    | .error .fault => none
    | .error (.err _) => some (t, [])
    | .ok (t', outIndex) => some (t', announce mp env t' peer outIndex p.isMaster)

/-- `case ENET_EVENT_TYPE_RECEIVE`. -/
def onReceive (t : Table P) (peer : P) (data : Bytes) : Option (Table P × List (Output P)) :=
  match ifbPtclTryParseMessageByType data with
  | .error _ => some (t, [])
  | .ok (.reqUserInfo, _) => handlePlayerRegister mp env t peer
  | .ok (.gameStateUpd, payload) =>
    match ifbTryUnpackGameState mp env.reader payload with
    | .error .fault => none
    | .error (.err _) => some (t, [])
    | .ok gameState => (handleGameStateUpdatedByMaster mp env gameState).map fun out => (t, out)
  | .ok (.playerInput, _) =>
    match tryGetMasterClient t with
    | .error _ => some (t, [])
    | .ok master =>
      match ifbTryRelayPacket env data (t master).peer .streamPuppetInputs false false with
      | .error .fault => none
      | .error (.err _) => some (t, [])
      | .ok o => some (t, [o])
  | .ok _ => some (t, [])

omit env in
/-- One turn of the loop of `main`. -/
def serverStep (t : Table P) : Event P → Option (Table P × List (Output P))
  | .connect _ => some (t, [])
  | .receive env peer data => onReceive mp env t peer data
  | .disconnect peer =>
    match tryRemovePlayer t peer with
    | .ok t' => some (t', [])
    | .error _ => some (t, [])

omit env in
/-- **The server.** -/
def server : System (Table P) (Event P) (Output P) := ⟨serverStep mp⟩

/-! ## What a step can do -/

variable {mp env} {t t' : Table P} {peer : P} {data : Bytes} {out : List (Output P)}

/-- The packet of a request for user info. -/
def IsRequest (data : Bytes) : Prop := data.head? = some MessageType.reqUserInfo.toByte

instance (data : Bytes) : Decidable (IsRequest data) :=
  inferInstanceAs (Decidable (data.head? = some MessageType.reqUserInfo.toByte))

theorem isRequest_frame {ty : MessageType} {payload : Option Bytes} :
    IsRequest (frame ty payload) ↔ ty = .reqUserInfo := by
  cases ty <;> simp [IsRequest, frame, MessageType.toByte]

omit [DecidableEq P] in
/-- All an announcement can send: nothing, the answer to the new player, or the answer and the same
payload to the master. -/
theorem announce_cases (mp : Msgpack) (env : Env P) (t : Table P) (peer : P) (i : Slot) (m : Bool) :
    announce mp env t peer i m = [] ∨
      announce mp env t peer i m = [.send peer .critical
        (frame .resUserInfo (some (userInfoBytes mp ⟨UInt32.ofNat i, m⟩))) true true] ∨
      ∃ master q, m = false ∧ tryGetMasterClient t = .ok master ∧ (t master).peer = some q ∧
        announce mp env t peer i m = [.send peer .critical
          (frame .resUserInfo (some (userInfoBytes mp ⟨UInt32.ofNat i, m⟩))) true true,
          .send q .critical
            (frame .slaveConnected (some (userInfoBytes mp ⟨UInt32.ofNat i, m⟩))) true true] := by
  unfold announce
  split
  · exact .inl rfl
  · rename_i sbuf hpack
    obtain rfl := packed_eq_ok (emits_userInfo _) hpack
    split
    · exact .inl rfl
    · rename_i res hres
      obtain ⟨p, hp, rfl⟩ := trySend_eq_ok hres
      cases hp
      cases m with
      | true => exact .inr (.inl rfl)
      | false =>
        rw [if_neg Bool.false_ne_true]
        split
        · exact .inr (.inl rfl)
        · rename_i master hmaster
          split
          · exact .inr (.inl rfl)
          · rename_i o hconn
            obtain ⟨q, hq, rfl⟩ := trySend_eq_ok hconn
            exact .inr (.inr ⟨master, q, rfl, hmaster, hq, rfl⟩)

/-- All a registration can do. -/
theorem handlePlayerRegister_cases (h : handlePlayerRegister mp env t peer = some (t', out)) :
    (isPlayerActive t peer = true ∨ firstSlot freeTest t = none) ∧ t' = t ∧ out = [] ∨
      ∃ i m, isPlayerActive t peer = false ∧ firstSlot freeTest t = some i ∧
        m = (getActivePlayersCount t == 0) ∧ t' = Function.update t i (newPlayer peer m) ∧
        out = announce mp env t' peer i m := by
  unfold handlePlayerRegister at h
  split at h
  · rename_i hact
    cases h
    exact .inl ⟨.inl hact, rfl, rfl⟩
  · rename_i hact
    rw [Bool.not_eq_true] at hact
    dsimp only at h
    split at h
    · cases h
    · rename_i hreg
      cases h
      exact .inl ⟨.inr (tryRegisterPlayer_err hreg), rfl, rfl⟩
    · rename_i t₁ i hreg
      obtain ⟨hfree, rfl⟩ := tryRegisterPlayer_ok hreg
      cases h
      exact .inr ⟨i, _, hact, hfree, rfl, rfl, rfl⟩

omit [DecidableEq P] in
/-- All that follows a decoded game state. -/
theorem handleGameState_cases {gs : GameState} {out : List (Output P)}
    (h : handleGameStateUpdatedByMaster mp env gs = some out) :
    out = [] ∨
      out = [.broadcast .stream (frame .gameStateUpd (some (gameStateBytes mp gs)))
        false false] := by
  unfold handleGameStateUpdatedByMaster at h
  split at h
  · cases h
    exact .inl rfl
  · rename_i sbuf hpack
    split at h
    · cases h
    · cases h
      exact .inl rfl
    · rename_i o hsend
      cases h
      rw [tryBroadcast_eq_ok hsend, packed_eq_ok (emits_gameState gs) hpack]
      exact .inr rfl

/-- **All a received packet can do**: register its sender, broadcast the game state it carries, or
go to the master as it came. -/
theorem onReceive_cases (h : onReceive mp env t peer data = some (t', out)) :
    IsRequest data ∧ handlePlayerRegister mp env t peer = some (t', out) ∨
      ¬ IsRequest data ∧ t' = t ∧
        (out = [] ∨
          (∃ payload gs, data = frame .gameStateUpd payload ∧
            ifbTryUnpackGameState mp env.reader payload = .ok gs ∧
            out = [.broadcast .stream (frame .gameStateUpd (some (gameStateBytes mp gs)))
              false false]) ∨
          ∃ payload master p, data = frame .playerInput payload ∧
            tryGetMasterClient t = .ok master ∧ (t master).peer = some p ∧
            out = [.send p .streamPuppetInputs data false false]) := by
  unfold onReceive at h
  split at h
  · -- a packet that does not parse
    rename_i e hparse
    cases h
    refine .inr ⟨fun hreq => ?_, rfl, .inl rfl⟩
    cases data with
    | nil => exact absurd hreq (by simp [IsRequest])
    | cons b r =>
      obtain rfl : b = MessageType.reqUserInfo.toByte := by simpa [IsRequest] using hreq
      rw [ifbPtclTryParseMessageByType, typeOfByte_toByte rfl] at hparse
      cases hparse
  · rename_i payload hparse
    exact .inl ⟨by rw [(parse_eq_ok hparse).1, isRequest_frame], h⟩
  · rename_i payload hparse
    have hreq : ¬ IsRequest data := by
      rw [(parse_eq_ok hparse).1, isRequest_frame]
      decide
    split at h
    · cases h
    · cases h
      exact .inr ⟨hreq, rfl, .inl rfl⟩
    · rename_i gs hgs
      obtain ⟨out', hout, heq⟩ := Option.map_eq_some_iff.mp h
      cases heq
      rcases handleGameState_cases hout with rfl | rfl
      · exact .inr ⟨hreq, rfl, .inl rfl⟩
      · exact .inr ⟨hreq, rfl, .inr (.inl ⟨payload, gs, (parse_eq_ok hparse).1, hgs, rfl⟩)⟩
  · rename_i payload hparse
    have hreq : ¬ IsRequest data := by
      rw [(parse_eq_ok hparse).1, isRequest_frame]
      decide
    split at h
    · cases h
      exact .inr ⟨hreq, rfl, .inl rfl⟩
    · rename_i master hmaster
      split at h
      · cases h
      · cases h
        exact .inr ⟨hreq, rfl, .inl rfl⟩
      · rename_i o hrelay
        cases h
        obtain ⟨p, hp, rfl⟩ := tryRelay_eq_ok hrelay
        exact .inr ⟨hreq, rfl, .inr (.inr ⟨payload, master, p, (parse_eq_ok hparse).1, hmaster, hp,
          rfl⟩)⟩
  · rename_i r hne hgs hpi hparse
    cases h
    obtain ⟨ty, payload⟩ := r
    refine .inr ⟨fun hreq => ?_, rfl, .inl rfl⟩
    rw [(parse_eq_ok hparse).1, isRequest_frame] at hreq
    exact hne payload (by rw [hreq])

theorem receive_eq (env : Env P) (t : Table P) (peer : P) (data : Bytes) :
    (server mp).step t (.receive env peer data) = onReceive mp env t peer data := rfl

/-- All a disconnect can do: the record of the peer is given up, or there is none. -/
theorem disconnect_cases (hs : (server mp).step t (.disconnect peer) = some (t', out)) :
    out = [] ∧ ((∃ i, firstSlot (removeTest peer) t = some i ∧
        t' = Function.update t i { t i with peer := none, isExists := false }) ∨
      firstSlot (removeTest peer) t = none ∧ t' = t) := by
  have hremove : (match tryRemovePlayer t peer with
      | .ok t' => some (t', ([] : List (Output P)))
      | .error _ => some (t, [])) = some (t', out) := hs
  unfold tryRemovePlayer at hremove
  cases hi : firstSlot (removeTest peer) t with
  | none =>
    rw [hi] at hremove
    cases hremove
    exact ⟨rfl, .inr ⟨rfl, rfl⟩⟩
  | some i =>
    rw [hi] at hremove
    cases hremove
    exact ⟨rfl, .inl ⟨i, rfl, rfl⟩⟩

/-- **All a step can send**: an answer or an announcement on the critical channel, a game state to
everybody, or the player input it received. -/
theorem server_outputs {e : Event P} (hs : (server mp).step t e = some (t', out)) :
    ∀ o ∈ out, (∃ ty p payload, (ty = .resUserInfo ∨ ty = .slaveConnected) ∧
        o = .send p .critical (frame ty payload) true true) ∨
      (∃ payload, o = .broadcast .stream (frame .gameStateUpd payload) false false) ∨
      ∃ env peer payload p, e = .receive env peer (frame .playerInput payload) ∧
        o = .send p .streamPuppetInputs (frame .playerInput payload) false false := by
  intro o ho
  cases e with
  | connect peer =>
    cases hs
    exact absurd ho List.not_mem_nil
  | disconnect peer =>
    obtain ⟨rfl, -⟩ := disconnect_cases hs
    exact absurd ho List.not_mem_nil
  | receive env peer data =>
    rcases onReceive_cases hs with ⟨-, hreg⟩ | ⟨-, -, rfl | ⟨payload, gs, -, -, rfl⟩ |
      ⟨payload, master, q, rfl, -, -, rfl⟩⟩
    · rcases handlePlayerRegister_cases hreg with ⟨-, -, rfl⟩ | ⟨i, m, -, -, -, -, rfl⟩
      · exact absurd ho List.not_mem_nil
      · left
        rcases announce_cases mp env t' peer i m with h | h | ⟨master, q, -, -, -, h⟩
        · exact absurd (h ▸ ho) List.not_mem_nil
        · rw [h, List.mem_singleton] at ho
          exact ⟨_, _, _, .inl rfl, ho⟩
        · rw [h, List.mem_pair] at ho
          rcases ho with rfl | rfl
          · exact ⟨_, _, _, .inl rfl, rfl⟩
          · exact ⟨_, _, _, .inr rfl, rfl⟩
    · exact absurd ho List.not_mem_nil
    · exact .inr (.inl ⟨_, List.mem_singleton.mp ho⟩)
    · exact .inr (.inr ⟨env, peer, payload, q, rfl, List.mem_singleton.mp ho⟩)

end MasterRelay.Server
