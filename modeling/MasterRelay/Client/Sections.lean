import MasterRelay.Protocol.Entries
import MasterRelay.Protocol.Send
import Mathlib.Logic.Function.Basic

/-!
# The client, section by section

`client.c` between its threads: the globals three threads share (`Shared`) and what each thread does
to them from one `pthread_mutex_lock` to the unlock. A section is a function of the globals and of
the locals of its thread; what a thread does outside its sections touches only its own locals and is
part of the section before it.

* The net thread: `netReceive` handles a received packet up to the end of its first section, and
  `netSection` is each further section of `attempt_init_current_game_state_by_master`.
* A call of `try_execute_tick`: `startTick` is its first section and `tickSection` each further one;
  `TickPc` says where the call stands, with its locals.

A section is `none` where the process would fault (a NULL global, a `malloc` that is not checked).
-/

namespace MasterRelay.Client

open MasterRelay.Lib.MsgPack
open MasterRelay.Protocol

/-- `strct_user_input`. -/
structure UserInput where
  x : Int32
  y : Int32
  deriving DecidableEq, Repr

/-- `OTHERS_COUNT`. -/
abbrev othersCount : Nat := 3

/-- The globals under a mutex; `none` is NULL. -/
structure Shared where
  myUserInfo : Option UserInfo
  currentGameState : Option GameState
  lastPlayerInputs : Option (Fin othersCount → PlayerInput)

/-- What a client learns from outside while a section runs. The server is its only peer. -/
structure ClientEnv where
  net : Env Unit
  /-- `CLIENT_PEER`; `none` is NULL. -/
  clientPeer : Option Unit
  mallocUserInfo : Bool
  mallocGameState : Bool
  mallocPlayerInputs : Bool

/-- A connected client in an environment in which everything succeeds. -/
def ClientEnv.ideal : ClientEnv := ⟨.ideal, some (), true, true, true⟩

/-- The arguments of a call of `try_execute_tick`. -/
structure TickCall where
  ticks : UInt32
  userInput : UserInput
  deriving DecidableEq, Repr

/-- What leaves the client: a packet, or the result of a call of `try_execute_tick`. -/
inductive ClientOutput where
  | sent (o : Output Unit)
  | returned (r : Except String Unit)

/-! ## The net thread -/

/-- The index the `switch` over the player ids selects. -/
def slaveIndex (id : UInt32) : Option (Fin othersCount) :=
  if id = 1 then some 0
  else if id = 2 then some 1
  else if id = 3 then some 2
  else none

/-- `update_games_state_by_slave_input`. -/
def updateGamesStateBySlaveInput (playerInput : PlayerInput) (s : Shared) : Option Shared :=
  match slaveIndex playerInput.id with
  | none => some s
  | some k =>
    match s.lastPlayerInputs with
    | none => none
    | some inputs =>
      some { s with lastPlayerInputs := some (Function.update inputs k
        { inputs k with x := playerInput.x, y := playerInput.y }) }

/-- The position of a slave with its flag set. -/
def connectSlave (gs : GameState) (k : Fin othersCount) : GameState :=
  match k with
  | 0 => { gs with pos2 := { gs.pos2 with isExists := true } }
  | 1 => { gs with pos3 := { gs.pos3 with isExists := true } }
  | 2 => { gs with pos4 := { gs.pos4 with isExists := true } }

/-- `handle_on_slave_connected`. -/
def handleOnSlaveConnected (userInfo : UserInfo) (s : Shared) : Shared :=
  match s.currentGameState, slaveIndex userInfo.id with
  | some gs, some k => { s with currentGameState := some (connectSlave gs k) }
  | _, _ => s

/-- Where the net thread stands: between two events, or before a section of
`attempt_init_current_game_state_by_master`. -/
inductive NetPc where
  | idle
  | initGameState
  | initPlayerInputs
  deriving DecidableEq, Repr

/-- `case ENET_EVENT_TYPE_RECEIVE` of `handle_net_events_loop`, up to the end of the first
section. -/
def netReceive (mp : Msgpack) (env : ClientEnv) (s : Shared) (data : Bytes) :
    Option (Shared × NetPc) :=
  match ifbPtclTryParseMessageByType data with
  | .error _ => some (s, .idle)
  | .ok (.resUserInfo, payload) =>
    match ifbFunTryUnpackUserInfo mp env.net.reader payload with
    | .error .fault => none
    | .error (.err _) => some (s, .idle)
    | .ok usrInfo =>
      if env.mallocUserInfo then
        some ({ s with myUserInfo := some usrInfo },
          if usrInfo.isMaster then .initGameState else .idle)
      else none
  -- a game state is only printed
  | .ok (.gameStateUpd, payload) =>
    match ifbTryUnpackGameState mp env.net.reader payload with
    | .error .fault => none
    | _ => some (s, .idle)
  | .ok (.slaveConnected, payload) =>
    match ifbFunTryUnpackUserInfo mp env.net.reader payload with
    | .error .fault => none
    | .error (.err _) => some (s, .idle)
    | .ok ui => some (handleOnSlaveConnected ui s, .idle)
  | .ok (.playerInput, payload) =>
    if s.myUserInfo.any UserInfo.isMaster then
      match ifbTryUnpackPlayerInput mp env.net.reader payload with
      | .error .fault => none
      | .error (.err _) => some (s, .idle)
      | .ok playerInput =>
        (updateGamesStateBySlaveInput playerInput s).map fun s' => (s', .idle)
    else some (s, .idle)
  | .ok _ => some (s, .idle)

/-- The sections of `attempt_init_current_game_state_by_master`. -/
def netSection (env : ClientEnv) (s : Shared) : NetPc → Option (Shared × NetPc)
  | .idle => none
  | .initGameState =>
    match s.currentGameState with
    | some _ => some (s, .initPlayerInputs)
    | none =>
      if env.mallocGameState then
        some ({ s with currentGameState := some .zero }, .initPlayerInputs)
      else none
  | .initPlayerInputs =>
    match s.lastPlayerInputs with
    | some _ => some (s, .idle)
    | none =>
      if env.mallocPlayerInputs then
        some ({ s with lastPlayerInputs := some fun i => ⟨UInt32.ofNat (i + 1), 0, 0⟩ }, .idle)
      else some (s, .idle)

/-! ## A tick -/

/-- Where a call of `try_execute_tick` stands, with its locals: before the section that copies
`*CURRENT_GAME_STATE`, the one that collects the inputs of the others, the one that writes the state
back, the one that reads it again to send it, or before `handle_cmd_slave_tick`. -/
inductive TickPc where
  | idle
  | copyState (c : TickCall)
  | collectInputs (c : TickCall) (gameState : GameState)
  | writeBack (c : TickCall) (gameState : GameState)
  | sendState
  | slaveTick (c : TickCall)
  deriving DecidableEq, Repr

/-- The master's own input, into its copy. -/
def ownInput (c : TickCall) (gs : GameState) : GameState :=
  { gs with tick := c.ticks, pos1 := ⟨true, gs.pos1.x + c.userInput.x, gs.pos1.y + c.userInput.y⟩ }

/-- A position moved. -/
def moved (p : PlayerPos) (input : PlayerInput) : PlayerPos :=
  { p with x := p.x + input.x, y := p.y + input.y }

/-- The loop over `LAST_PLAYER_INPUTS`. -/
def othersInputs (inputs : Fin othersCount → PlayerInput) (gs : GameState) : GameState :=
  { gs with pos2 := moved gs.pos2 (inputs 0), pos3 := moved gs.pos3 (inputs 1),
            pos4 := moved gs.pos4 (inputs 2) }

/-- The end of a master's call: the state is packed and sent. -/
def sendGameState (mp : Msgpack) (env : ClientEnv) (gs : GameState) : List ClientOutput :=
  match packed env.net (ifbTryPackGameState mp gs) with
  | .error err => [.returned (.error ("ifb_try_pack_game_state error: " ++ err ++ "\n"))]
  | .ok sbuf =>
    match ifbPtclTrySendMsgPacket env.net .gameStateUpd .stream (some sbuf) env.clientPeer
        false false with
    | .error err => [.returned (.error ("send_msg_packet_to_server error: " ++ err ++ "\n"))]
    | .ok o => [.sent o, .returned (.ok ())]

/-- `handle_cmd_slave_tick`; its failures are only printed. -/
def handleCmdSlaveTick (mp : Msgpack) (env : ClientEnv) (s : Shared) (userInput : UserInput) :
    Option (List (Output Unit)) :=
  match s.myUserInfo with
  | none => none
  | some ui =>
    match packed env.net (ifbTryPackPlayerInput mp ⟨ui.id, userInput.x, userInput.y⟩) with
    | .error _ => some []
    | .ok sbuf =>
      match ifbPtclTrySendMsgPacket env.net .playerInput .streamPuppetInputs (some sbuf)
          env.clientPeer false false with
      | .error _ => some []
      | .ok o => some [o]

/-- The first section of `try_execute_tick`. -/
def startTick (s : Shared) (c : TickCall) : TickPc × List ClientOutput :=
  match s.myUserInfo with
  | none => (.idle, [.returned (.error "MY_USER_INFO is not ready.")])
  | some ui => (if ui.isMaster then .copyState c else .slaveTick c, [])

/-- The sections of `try_execute_tick` after the first. -/
def tickSection (mp : Msgpack) (env : ClientEnv) (s : Shared) :
    TickPc → Option (Shared × TickPc × List ClientOutput)
  | .idle => none
  | .copyState c =>
    match s.currentGameState with
    | none => some (s, .idle, [.returned (.error "CURRENT_GAME_STATE is not ready.")])
    | some gs => some (s, .collectInputs c (ownInput c gs), [])
  | .collectInputs c gs =>
    match s.lastPlayerInputs with
    | none => none
    | some inputs => some (s, .writeBack c (othersInputs inputs gs), [])
  | .writeBack _ gs =>
    match s.currentGameState with
    | none => none
    | some _ => some ({ s with currentGameState := some gs }, .sendState, [])
  | .sendState =>
    match s.currentGameState with
    | none => some (s, .idle, [.returned (.error "CURRENT_GAME_STATE is NULL!")])
    | some gs => some (s, .idle, sendGameState mp env gs)
  | .slaveTick c =>
    (handleCmdSlaveTick mp env s c.userInput).map fun out =>
      (s, .idle, out.map .sent ++ [.returned (.ok ())])

/-! ## What the sections do to the positions -/

theorem slaveIndex_eq_some {id : UInt32} {k : Fin othersCount} :
    slaveIndex id = some k ↔ id = UInt32.ofNat (k + 1) := by
  unfold slaveIndex
  constructor
  · intro h
    split_ifs at h with h1 h2 h3 <;> cases h
    · exact h1
    · exact h2
    · exact h3
  · rintro rfl
    match k with
    | 0 => rfl
    | 1 => rfl
    | 2 => rfl

/-- Only the flag of one slave changes. -/
theorem connectSlave_pos (gs : GameState) (k : Fin othersCount) (i : Fin 4) :
    (connectSlave gs k).pos i =
      if i = k.succ then { gs.pos i with isExists := true } else gs.pos i := by
  match k with
  | 0 => match i with
    | 0 => rfl
    | 1 => rfl
    | 2 => rfl
    | 3 => rfl
  | 1 => match i with
    | 0 => rfl
    | 1 => rfl
    | 2 => rfl
    | 3 => rfl
  | 2 => match i with
    | 0 => rfl
    | 1 => rfl
    | 2 => rfl
    | 3 => rfl

/-- A tick moves each slave by its input and leaves its flag alone. -/
theorem tick_slavePos (c : TickCall) (inputs : Fin othersCount → PlayerInput) (gs : GameState)
    (k : Fin othersCount) :
    (ownInput c gs).pos k.succ = gs.pos k.succ ∧
      (othersInputs inputs gs).pos k.succ = moved (gs.pos k.succ) (inputs k) := by
  match k with
  | 0 => exact ⟨rfl, rfl⟩
  | 1 => exact ⟨rfl, rfl⟩
  | 2 => exact ⟨rfl, rfl⟩

end MasterRelay.Client
