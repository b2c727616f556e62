import MasterRelay.Protocol.Buffers
import MasterRelay.Server.Loop

/-!
# The buffers of the server

The handlers of `server.c` once more, with their calls on the `msgpack_sbuffer`. The values are
those of `Loop.lean` (`*_eq`, `*_value`).

`handle_player_register` destroys its buffer on each of its exits.
`handle_game_state_updated_by_master` destroys it on none.

* `playerRegister_settle`, `gameState_balanced_iff`: the two handlers, call by call.
* `serverBuffers_step`, `serverBuffers_run`: a run leaves one buffer for each game state it handles.
-/

namespace MasterRelay.Server

open MasterRelay.Lib.Ledger
open MasterRelay.Lib.MsgPack
open MasterRelay.Lib.Runs
open MasterRelay.Protocol

variable {P : Type} (mp : Msgpack) (env : Env P)

/-- `handle_game_state_updated_by_master`. -/
def handleGameStateUpdatedByMasterLogged (gameState : GameState) :
    Logged (Option (List (Output P))) :=
  let calls := [.init .handleGameStateUpdatedByMaster, .pack .handleGameStateUpdatedByMaster]
  match packed env (ifbTryPackGameState mp gameState) with
  | .error _ => ⟨some [], calls⟩
  | .ok sbuf =>
    match ifbPtclTryBroadcastMsgPacket env .gameStateUpd .stream (some sbuf) false false with
    | .error .fault => ⟨none, calls⟩
    | .error (.err _) => ⟨some [], calls⟩
    | .ok o => ⟨some [o], calls⟩

/-- The second half of `handle_player_register`. -/
def announceLogged (t : Table P) (peer : P) (outIndex : Slot) (isMaster : Bool) :
    Logged (List (Output P)) :=
  let calls := [.init .handlePlayerRegister, .pack .handlePlayerRegister]
  match packed env (ifbTryPackUserInfo mp ⟨UInt32.ofNat outIndex, isMaster⟩) with
  | .error _ => ⟨[], calls ++ [.destroy .handlePlayerRegister]⟩
  | .ok sbuf =>
    match ifbPtclTrySendMsgPacket env .resUserInfo .critical (some sbuf) (some peer) true true with
    | .error _ => ⟨[], calls ++ [.destroy .handlePlayerRegister]⟩
    | .ok res =>
      if isMaster then ⟨[res], calls ++ [.destroy .handlePlayerRegister]⟩
      else
        match tryGetMasterClient t with
        | .error _ => ⟨[res], calls ++ [.destroy .handlePlayerRegister]⟩
        | .ok master =>
          match ifbPtclTrySendMsgPacket env .slaveConnected .critical (some sbuf) (t master).peer
              true true with
          | .error _ => ⟨[res], calls ++ [.destroy .handlePlayerRegister]⟩
          | .ok connected => ⟨[res, connected], calls ++ [.destroy .handlePlayerRegister]⟩

variable [DecidableEq P]

/-- `handle_player_register`. -/
def handlePlayerRegisterLogged (t : Table P) (peer : P) :
    Logged (Option (Table P × List (Output P))) :=
  if isPlayerActive t peer then ⟨some (t, []), []⟩
  else
    let p := newPlayer peer (getActivePlayersCount t == 0)
    match tryRegisterPlayer env.mallocPlayer t p with
    | .error .fault => ⟨none, []⟩
    | .error (.err _) => ⟨some (t, []), []⟩
    | .ok (t', outIndex) =>
      let r := announceLogged mp env t' peer outIndex p.isMaster
      ⟨some (t', r.value), r.calls⟩

/-- The calls of `case ENET_EVENT_TYPE_RECEIVE`. -/
def onReceiveCalls (t : Table P) (peer : P) (data : Bytes) : List SbufferCall :=
  match ifbPtclTryParseMessageByType data with
  | .ok (.reqUserInfo, _) => (handlePlayerRegisterLogged mp env t peer).calls
  | .ok (.gameStateUpd, payload) =>
    match ifbTryUnpackGameState mp env.reader payload with
    | .error _ => []
    | .ok gameState => (handleGameStateUpdatedByMasterLogged mp env gameState).calls
  | _ => []

omit env in
/-- The calls of one turn of the loop of `main`. -/
def serverCalls (t : Table P) : Event P → List SbufferCall
  | .receive env peer data => onReceiveCalls mp env t peer data
  | .connect _ => []
  | .disconnect _ => []

/-! ## Values and calls -/

omit [DecidableEq P] in
/-- The buffer of a game state is destroyed on no exit. -/
theorem handleGameStateLogged_eq (gs : GameState) :
    handleGameStateUpdatedByMasterLogged mp env gs = ⟨handleGameStateUpdatedByMaster mp env gs,
      [.init .handleGameStateUpdatedByMaster, .pack .handleGameStateUpdatedByMaster]⟩ := by
  unfold handleGameStateUpdatedByMasterLogged handleGameStateUpdatedByMaster
  rcases packed env (ifbTryPackGameState mp gs) with err | sbuf
  · rfl
  · dsimp only
    rcases ifbPtclTryBroadcastMsgPacket env .gameStateUpd .stream (some sbuf) false false with
      (_ | _) | o <;> rfl

omit [DecidableEq P] in
/-- The buffer of an announcement is destroyed on each. -/
theorem announceLogged_eq (t : Table P) (peer : P) (i : Slot) (m : Bool) :
    announceLogged mp env t peer i m = ⟨announce mp env t peer i m,
      [.init .handlePlayerRegister, .pack .handlePlayerRegister,
        .destroy .handlePlayerRegister]⟩ := by
  unfold announceLogged announce
  rcases packed env (ifbTryPackUserInfo mp ⟨UInt32.ofNat i, m⟩) with err | sbuf
  · rfl
  · dsimp only
    rcases ifbPtclTrySendMsgPacket env .resUserInfo .critical (some sbuf) (some peer) true true with
      err | res
    · rfl
    · dsimp only
      split_ifs
      · rfl
      · rcases tryGetMasterClient t with err | master
        · rfl
        · dsimp only
          rcases ifbPtclTrySendMsgPacket env .slaveConnected .critical (some sbuf) (t master).peer
            true true with err | connected <;> rfl

theorem handlePlayerRegisterLogged_value (t : Table P) (peer : P) :
    (handlePlayerRegisterLogged mp env t peer).value = handlePlayerRegister mp env t peer := by
  unfold handlePlayerRegisterLogged handlePlayerRegister
  split_ifs
  · rfl
  · dsimp only
    rcases tryRegisterPlayer env.mallocPlayer t
      (newPlayer peer (getActivePlayersCount t == 0)) with (_ | _) | ⟨t', i⟩
    · rfl
    · rfl
    · dsimp only
      rw [announceLogged_eq]

/-- **`handle_player_register` leaves the ledger as it was.** -/
theorem playerRegister_settle (t : Table P) (peer : P) (live : Multiset SbufferOwner) :
    (handlePlayerRegisterLogged mp env t peer).settle live = some live := by
  unfold handlePlayerRegisterLogged
  split_ifs
  · rfl
  · dsimp only
    rcases tryRegisterPlayer env.mallocPlayer t
      (newPlayer peer (getActivePlayersCount t == 0)) with (_ | _) | ⟨t', i⟩
    · rfl
    · rfl
    · exact settle_destroyed (congrArg Logged.calls (announceLogged_eq mp env t' peer i _)) live

/-- A game state is packed, and ENet is handed no packet to broadcast. -/
structure BroadcastFaults : Prop where
  room : ∀ b ∈ env.grow.take gameStateWrites, b = true
  malloc : env.malloc .gameStateUpd = true
  notCreated : env.packetCreate .gameStateUpd = false

omit [DecidableEq P] in
/-- `handle_game_state_updated_by_master` does not return exactly where ENet is handed NULL. -/
theorem handleGameState_faults (gs : GameState) :
    handleGameStateUpdatedByMaster mp env gs = none ↔ BroadcastFaults env := by
  have hpacked : (∃ b, packed env (ifbTryPackGameState mp gs) = .ok b) ↔
      ∀ b ∈ env.grow.take gameStateWrites, b = true := packed_isOk (needs_gameState gs)
  unfold handleGameStateUpdatedByMaster
  constructor
  · intro h
    split at h
    · cases h
    · rename_i sbuf hpack
      split at h
      · rename_i hfault
        unfold ifbPtclTryBroadcastMsgPacket enetPacketCreate at hfault
        split_ifs at hfault with _ hmalloc hcreate
        · cases hfault
        · cases hfault
        · exact ⟨hpacked.mp ⟨sbuf, hpack⟩, by simpa using hmalloc, by simpa using hcreate⟩
      · cases h
      · cases h
  · rintro ⟨hroom, hmalloc, hnone⟩
    obtain ⟨sbuf, hpack⟩ := hpacked.mpr hroom
    simp [hpack, ifbPtclTryBroadcastMsgPacket, enetPacketCreate, hmalloc, hnone,
      isSuitableMsgType]

omit [DecidableEq P] in
/-- **`handle_game_state_updated_by_master` keeps a buffer whenever it returns.** -/
theorem gameState_balanced_iff (gs : GameState) :
    ReturnsBalanced (handleGameStateUpdatedByMasterLogged mp env gs) ↔ BroadcastFaults env := by
  rw [← handleGameState_faults mp env gs, handleGameStateLogged_eq]
  constructor
  · intro h
    cases hr : handleGameStateUpdatedByMaster mp env gs with
    | none => rfl
    | some out => exact absurd h (not_balanced rfl hr)
  · intro hnone out hr
    exact absurd (hnone.symm.trans hr) (by simp)

/-! ## Runs -/

/-- The step handles a game state. -/
def handlesGameState (x : Step (Table P) (Event P) (Output P)) : Bool :=
  match x.event with
  | .receive env _ data =>
    match ifbPtclTryParseMessageByType data with
    | .ok (.gameStateUpd, payload) => (ifbTryUnpackGameState mp env.reader payload).isOk
    | _ => false
  | _ => false

/-- A step keeps one buffer if it handles a game state, and none otherwise. -/
theorem serverBuffers_step (x : Step (Table P) (Event P) (Output P)) :
    settle 0 ((serverCalls mp x.pre x.event).flatMap sbufferUses) =
      some (Multiset.replicate (handlesGameState mp x).toNat
        .handleGameStateUpdatedByMaster) := by
  obtain ⟨t, e, out, t'⟩ := x
  cases e with
  | connect p => rfl
  | disconnect p => rfl
  | receive env p data =>
    unfold serverCalls onReceiveCalls handlesGameState
    dsimp only
    rcases ifbPtclTryParseMessageByType data with err | ⟨ty, payload⟩
    · rfl
    · cases ty with
      | reqUserInfo => exact playerRegister_settle mp env t p 0
      | gameStateUpd =>
        dsimp only
        cases ifbTryUnpackGameState mp env.reader payload with
        | error e => rfl
        | ok gs =>
          exact settle_kept (congrArg Logged.calls (handleGameStateLogged_eq mp env gs)) 0
      | _ => rfl

/-- **A run of the server keeps one buffer for each game state it handles.** -/
theorem serverBuffers_run (tr : List (Step (Table P) (Event P) (Output P))) :
    settle 0 (tr.flatMap fun x => (serverCalls mp x.pre x.event).flatMap sbufferUses) =
      some (Multiset.replicate (tr.countP (handlesGameState mp))
        .handleGameStateUpdatedByMaster) := by
  have hone : ∀ x : Step (Table P) (Event P) (Output P),
      [x].countP (handlesGameState mp) = (handlesGameState mp x).toNat := by
    intro x
    cases h : handlesGameState mp x <;> simp [h]
  have hcount := settle_count (fun x : Step (Table P) (Event P) (Output P) =>
    (serverCalls mp x.pre x.event).flatMap sbufferUses) .handleGameStateUpdatedByMaster
    (fun x => [x]) (handlesGameState mp) tr
    fun x _ => by rw [hone]; exact serverBuffers_step mp x
  rwa [List.flatMap_singleton'] at hcount

end MasterRelay.Server
