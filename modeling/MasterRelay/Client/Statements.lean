import MasterRelay.Client.Atomic
import MasterRelay.Lib.Memory
import MasterRelay.Lib.Mutex

/-!
# The client, statement by statement

`client.c` with its mutexes as mutexes. The three threads run statement by statement, a struct is
copied word by word, `malloc` gives a block of whatever was there before, and `free` leaves a
dangling pointer. A thread is a program in the sense of `Lib/Mutex.lean`: what it does next is a
function of its locals, which say where it stands.

* `netProgram`: `handle_net_events_loop` for a received packet, with its handlers.
* `callerProgram`: `try_execute_tick`, called by the main thread and, after `is_user_info_ready`, by
  the tick thread.

What a thread computes between two statements that touch shared memory touches only its locals, and
is part of the second of them or of the one after it.
-/

namespace MasterRelay.Client

open MasterRelay.Lib.MsgPack
open MasterRelay.Lib.Memory
open MasterRelay.Lib.Mutex
open MasterRelay.Protocol

/-! ## The structs -/

/-- The words of a `ifb_strct_user_info`. -/
inductive UserInfoWord where
  | id
  | isMaster

/-- `ifb_strct_user_info`. -/
def userInfoLayout : Layout UserInfo UserInfoWord where
  words := [.id, .isMaster]
  copy
    | .id, src, dst => { dst with id := src.id }
    | .isMaster, src, dst => { dst with isMaster := src.isMaster }
  nonempty := by simp
  copied _ _ := rfl

/-- The words of a `ifb_strct_player_pos`. -/
inductive PosWord where
  | isExists
  | x
  | y

/-- One word of a position. -/
def copyPosWord : PosWord → PlayerPos → PlayerPos → PlayerPos
  | .isExists, src, dst => { dst with isExists := src.isExists }
  | .x, src, dst => { dst with x := src.x }
  | .y, src, dst => { dst with y := src.y }

/-- The words of a `ifb_strct_game_state`. -/
inductive GameStateWord where
  | tick
  | pos1 (w : PosWord)
  | pos2 (w : PosWord)
  | pos3 (w : PosWord)
  | pos4 (w : PosWord)

/-- One word of a game state. -/
def copyGameStateWord : GameStateWord → GameState → GameState → GameState
  | .tick, src, dst => { dst with tick := src.tick }
  | .pos1 w, src, dst => { dst with pos1 := copyPosWord w src.pos1 dst.pos1 }
  | .pos2 w, src, dst => { dst with pos2 := copyPosWord w src.pos2 dst.pos2 }
  | .pos3 w, src, dst => { dst with pos3 := copyPosWord w src.pos3 dst.pos3 }
  | .pos4 w, src, dst => { dst with pos4 := copyPosWord w src.pos4 dst.pos4 }

/-- `ifb_strct_game_state`. -/
def gameStateLayout : Layout GameState GameStateWord where
  words := [.tick, .pos1 .isExists, .pos1 .x, .pos1 .y, .pos2 .isExists, .pos2 .x, .pos2 .y,
    .pos3 .isExists, .pos3 .x, .pos3 .y, .pos4 .isExists, .pos4 .x, .pos4 .y]
  copy := copyGameStateWord
  nonempty := by simp
  copied _ _ := by simp only [List.foldl_cons, List.foldl_nil, copyGameStateWord, copyPosWord]

/-- The words of a `ifb_strct_player_input`. -/
inductive InputWord where
  | id
  | x
  | y

/-- One word of one element of `LAST_PLAYER_INPUTS`. -/
def copyInputWord (w : Fin othersCount × InputWord) (src dst : Fin othersCount → PlayerInput) :
    Fin othersCount → PlayerInput :=
  Function.update dst w.1 (match w.2 with
    | .id => { dst w.1 with id := (src w.1).id }
    | .x => { dst w.1 with x := (src w.1).x }
    | .y => { dst w.1 with y := (src w.1).y })

/-- The elements of `LAST_PLAYER_INPUTS`, as the loops over them go through it. -/
def playerInputsLayout :
    Layout (Fin othersCount → PlayerInput) (Fin othersCount × InputWord) where
  words := (List.finRange othersCount).flatMap fun i => [(i, .id), (i, .x), (i, .y)]
  copy := copyInputWord
  nonempty := List.cons_ne_nil _ _
  copied src dst := by
    refine funext fun i => ?_
    refine Fin.cases rfl (fun i => ?_) i
    refine Fin.cases rfl (fun i => ?_) i
    exact Fin.cases rfl (fun i => i.elim0) i

/-! ## The threads -/

/-- The mutexes `MTX_MY_USER_INFO`, `MTX_CURRENT_GAME_STATE` and `MTX_LAST_PLAYER_INPUTS`. -/
inductive Mtx where
  | myUserInfo
  | currentGameState
  | lastPlayerInputs
  deriving DecidableEq, Repr

/-- The global a mutex guards. -/
abbrev Cell : Mtx → Type
  | .myUserInfo => Pointer UserInfo
  | .currentGameState => Pointer GameState
  | .lastPlayerInputs => Pointer (Fin othersCount → PlayerInput)

/-- `net_bg_thread`, and the threads that call `try_execute_tick`. -/
inductive ThreadId where
  | net
  | caller (θ : Thread)
  deriving DecidableEq, Repr

/-- What a thread learns from outside at a statement: what the network and `malloc` say, the packet
a poll returns, the arguments of a call, and what a new block or local held before. -/
structure Outside where
  env : ClientEnv
  data : Bytes
  call : TickCall
  userInfo : UserInfo
  gameState : GameState
  inputs : Fin othersCount → PlayerInput

/-- What is seen of a thread: a packet it takes, or what leaves it. -/
inductive Seen where
  | received (data : Bytes)
  | made (θ : Thread) (o : ClientOutput)

/-- A received packet, with the environment it is decoded in. -/
structure Packet where
  env : ClientEnv
  data : Bytes

/-- Where the net thread stands, before the statement of that name. -/
inductive NetLocal where
  | poll
  | readRole (p : Packet) (ty : MessageType) (payload : Option Bytes)
  | dispatch (p : Packet) (ty : MessageType) (payload : Option Bytes)
  -- `case IFB_MSG_TYPE_RES_USER_INFO`
  | lockUserInfo (p : Packet) (usrInfo : UserInfo)
  | freeUserInfo (usrInfo : UserInfo)
  | mallocUserInfo (usrInfo : UserInfo)
  | storeUserInfo (usrInfo : UserInfo) (todo : List UserInfoWord)
  | unlockUserInfo (usrInfo : UserInfo)
  | testMaster (usrInfo : UserInfo)
  -- `attempt_init_current_game_state_by_master`
  | lockGameState
  | testGameState
  | mallocGameState
  | storeGameState (todo : List GameStateWord)
  | lockInputs
  | testInputs
  | mallocInputs
  | testMalloc
  | storeInputs (todo : List (Fin othersCount × InputWord))
  -- `case IFB_MSG_TYPE_GAME_STATE_UPD`
  | printGameState (p : Packet)
  -- `case IFB_MSG_TYPE_SLAVE_CONNECTED`
  | lockConnected (p : Packet) (ui : UserInfo)
  | testConnected (ui : UserInfo)
  | setExists (ui : UserInfo)
  | unlockConnected
  -- `case IFB_MSG_TYPE_PLAYER_INPUT`
  | readMaster (p : Packet) (payload : Option Bytes)
  | lockInput (p : Packet) (playerInput : PlayerInput)
  | writeX (playerInput : PlayerInput)
  | writeY (playerInput : PlayerInput)
  | unlockInput

/-- Where a thread that calls `try_execute_tick` stands. -/
inductive CallerLocal where
  | idle
  -- `is_user_info_ready`
  | lockReady (c : TickCall)
  | testReady (c : TickCall)
  | unlockReady (c : TickCall) (result : Bool)
  -- `ifb_strct_user_info my_ui = *MY_USER_INFO;`
  | lockInfo (c : TickCall)
  | testInfo (c : TickCall)
  | copyInfo (c : TickCall) (todo : List UserInfoWord) (myUi : UserInfo)
  | branch (c : TickCall) (myUi : UserInfo)
  -- `ifb_strct_game_state game_state = *CURRENT_GAME_STATE;`
  | lockCopy (c : TickCall)
  | testCopy (c : TickCall)
  | copyState (c : TickCall) (todo : List GameStateWord) (gameState : GameState)
  | addOwn (c : TickCall) (gameState : GameState)
  -- the loop over `LAST_PLAYER_INPUTS`
  | lockCollect (c : TickCall) (gameState : GameState)
  | enterCollect (c : TickCall) (gameState : GameState)
  | collect (c : TickCall) (gameState : GameState) (todo : List (Fin othersCount × InputWord))
      (inputs : Fin othersCount → PlayerInput)
  -- `*CURRENT_GAME_STATE = game_state;`
  | lockWrite (c : TickCall) (gameState : GameState)
  | writeState (todo : List GameStateWord) (gameState : GameState)
  -- the state is read again, and sent
  | lockSend
  | testSend
  | copySend (env : ClientEnv) (todo : List GameStateWord) (gameState : GameState)
  | send (env : ClientEnv) (gameState : GameState)
  -- `handle_cmd_slave_tick`
  | lockId (c : TickCall)
  | readId (c : TickCall)
  | unlockId (env : ClientEnv) (c : TickCall) (id : UInt32)
  | sendInput (env : ClientEnv) (c : TickCall) (id : UInt32)
  -- `return false;`
  | unlockFailed (mtx : Mtx) (err : String)
  | failed (err : String)

/-- The locals of each thread. -/
abbrev Locals : ThreadId → Type
  | .net => NetLocal
  | .caller _ => CallerLocal

/-- An instruction of the client. -/
abbrev Statement (Λ : Type) : Type := Instr Mtx Cell Λ Outside Seen

/-- The start of a loop that copies `*p` into a local, or the fault. -/
def readWord {α W Λ : Type} (lay : Layout α W) (w : W) (acc : α) (next : α → Λ) :
    Pointer α → Option (Pointer α × Λ)
  | .live v => some (.live v, next (lay.copy w v acc))
  | _ => none

/-- A test of a pointer against NULL. -/
def testNull {α Λ : Type} (g : Pointer α) (null other : Λ) : Option (Pointer α × Λ) :=
  some (g, match g with
    | .null => null
    | _ => other)

/-- A write through the pointer. -/
def store {α Λ : Type} (f : α → α) (next : Λ) (g : Pointer α) : Option (Pointer α × Λ) :=
  (g.write f).map fun g' => (g', next)

/-- `MY_USER_INFO != NULL && MY_USER_INFO->is_master`. -/
def readIsMaster : Pointer UserInfo → Option Bool
  | .null => some false
  | .freed => none
  | .live ui => some ui.isMaster

/-- The `switch` of `handle_net_events_loop`, up to the first statement that touches a global. -/
def netDispatch (mp : Msgpack) (p : Packet) (payload : Option Bytes) :
    MessageType → Option NetLocal
  | .resUserInfo =>
    match ifbFunTryUnpackUserInfo mp p.env.net.reader payload with
    | .error .fault => none
    | .error (.err _) => some .poll
    | .ok usrInfo => some (.lockUserInfo p usrInfo)
  | .gameStateUpd =>
    match ifbTryUnpackGameState mp p.env.net.reader payload with
    | .error .fault => none
    | .error (.err _) => some .poll
    | .ok _ => some (.printGameState p)
  | .slaveConnected =>
    match ifbFunTryUnpackUserInfo mp p.env.net.reader payload with
    | .error .fault => none
    | .error (.err _) => some .poll
    | .ok ui => some (.lockConnected p ui)
  | .playerInput => some (.readMaster p payload)
  | _ => some .poll

/-- `case IFB_MSG_TYPE_PLAYER_INPUT`, for a master. -/
def netInput (mp : Msgpack) (p : Packet) (payload : Option Bytes) : Option NetLocal :=
  match ifbTryUnpackPlayerInput mp p.env.net.reader payload with
  | .error .fault => none
  | .error (.err _) => some .poll
  | .ok playerInput => some (.lockInput p playerInput)

/-- **The net thread.** -/
def netProgram (mp : Msgpack) : NetLocal → Statement NetLocal
  | .poll => .free fun o =>
    match ifbPtclTryParseMessageByType o.data with
    | .error _ => some (.poll, [.received o.data])
    | .ok (ty, payload) => some (.readRole ⟨o.env, o.data⟩ ty payload, [.received o.data])
  -- only a commented-out `printf` uses what is read
  | .readRole p ty payload => .peek .myUserInfo fun _ g =>
    (readIsMaster g).map fun _ => (.dispatch p ty payload, [])
  | .dispatch p ty payload => .free fun _ => (netDispatch mp p payload ty).map fun x => (x, [])
  | .lockUserInfo _ usrInfo => .lock .myUserInfo (.freeUserInfo usrInfo)
  | .freeUserInfo usrInfo => .access .myUserInfo fun _ g =>
    match g with
    | .null => some (.null, .mallocUserInfo usrInfo)
    | .freed => none
    | .live _ => some (.freed, .mallocUserInfo usrInfo)
  | .mallocUserInfo usrInfo => .access .myUserInfo fun o _ =>
    some (.malloc o.env.mallocUserInfo o.userInfo, .storeUserInfo usrInfo userInfoLayout.words)
  | .storeUserInfo usrInfo (w :: todo) => .access .myUserInfo fun _ g =>
    store (userInfoLayout.copy w usrInfo) (.storeUserInfo usrInfo todo) g
  -- the new user info is printed
  | .storeUserInfo usrInfo [] => .access .myUserInfo fun _ g =>
    store id (.unlockUserInfo usrInfo) g
  | .unlockUserInfo usrInfo => .unlock .myUserInfo (.testMaster usrInfo)
  | .testMaster usrInfo => .free fun _ =>
    some (if usrInfo.isMaster then .lockGameState else .poll, [])
  | .lockGameState => .lock .currentGameState .testGameState
  | .testGameState => .access .currentGameState fun _ g =>
    testNull g .mallocGameState (.storeGameState [])
  | .mallocGameState => .access .currentGameState fun o _ =>
    some (.malloc o.env.mallocGameState o.gameState, .storeGameState gameStateLayout.words)
  | .storeGameState (w :: todo) => .access .currentGameState fun _ g =>
    store (gameStateLayout.copy w .zero) (.storeGameState todo) g
  | .storeGameState [] => .unlock .currentGameState .lockInputs
  | .lockInputs => .lock .lastPlayerInputs .testInputs
  | .testInputs => .access .lastPlayerInputs fun _ g => testNull g .mallocInputs .unlockInput
  | .mallocInputs => .access .lastPlayerInputs fun o _ =>
    some (.malloc o.env.mallocPlayerInputs o.inputs, .testMalloc)
  | .testMalloc => .access .lastPlayerInputs fun _ g =>
    testNull g .unlockInput (.storeInputs playerInputsLayout.words)
  | .storeInputs (w :: todo) => .access .lastPlayerInputs fun _ g =>
    store (playerInputsLayout.copy w fun i => ⟨UInt32.ofNat (i + 1), 0, 0⟩) (.storeInputs todo) g
  | .storeInputs [] => .unlock .lastPlayerInputs .poll
  -- `my_id` and `is_master` are read, and printed
  | .printGameState _ => .peek .myUserInfo fun _ g => (readIsMaster g).map fun _ => (.poll, [])
  | .lockConnected _ ui => .lock .currentGameState (.testConnected ui)
  | .testConnected ui => .access .currentGameState fun _ g =>
    testNull g .unlockConnected (.setExists ui)
  | .setExists ui => .access .currentGameState fun _ g =>
    match slaveIndex ui.id with
    | some k => store (connectSlave · k) .unlockConnected g
    | none => some (g, .unlockConnected)
  | .unlockConnected => .unlock .currentGameState .poll
  | .readMaster p payload => .peek .myUserInfo fun _ g =>
    match readIsMaster g with
    | none => none
    | some false => some (.poll, [])
    | some true => (netInput mp p payload).map fun x => (x, [])
  | .lockInput _ playerInput => .lock .lastPlayerInputs (.writeX playerInput)
  | .writeX playerInput => .access .lastPlayerInputs fun _ g =>
    match slaveIndex playerInput.id with
    | some k => store (fun inputs => Function.update inputs k { inputs k with x := playerInput.x })
        (.writeY playerInput) g
    | none => some (g, .unlockInput)
  | .writeY playerInput => .access .lastPlayerInputs fun _ g =>
    match slaveIndex playerInput.id with
    | some k => store (fun inputs => Function.update inputs k { inputs k with y := playerInput.y })
        .unlockInput g
    | none => some (g, .unlockInput)
  | .unlockInput => .unlock .lastPlayerInputs .poll

/-- The packet of `handle_cmd_slave_tick` for the id it has read; its failures are only printed. -/
def slaveTickPackets (mp : Msgpack) (env : ClientEnv) (id : UInt32) (userInput : UserInput) :
    List (Output Unit) :=
  match packed env.net (ifbTryPackPlayerInput mp ⟨id, userInput.x, userInput.y⟩) with
  | .error _ => []
  | .ok sbuf =>
    match ifbPtclTrySendMsgPacket env.net .playerInput .streamPuppetInputs (some sbuf)
        env.clientPeer false false with
    | .error _ => []
    | .ok o => [o]

/-- What a call has still to put out. -/
def callerPending (mp : Msgpack) : CallerLocal → List ClientOutput
  | .send env gs => sendGameState mp env gs
  | .sendInput env c id =>
    (slaveTickPackets mp env id c.userInput).map .sent ++ [.returned (.ok ())]
  | .failed err => [.returned (.error err)]
  | _ => []

/-- **A thread that calls `try_execute_tick`.** The tick thread asks whether the user info is ready
first. -/
def callerProgram (mp : Msgpack) (θ : Thread) : CallerLocal → Statement CallerLocal
  | .idle => .free fun o => some (match θ with
    | .main => .lockInfo o.call
    | .tickLoop => .lockReady o.call, [])
  | .lockReady c => .lock .myUserInfo (.testReady c)
  | .testReady c => .access .myUserInfo fun _ g =>
    testNull g (.unlockReady c false) (.unlockReady c true)
  | .unlockReady c result => .unlock .myUserInfo (if result then .lockInfo c else .idle)
  | .lockInfo c => .lock .myUserInfo (.testInfo c)
  | .testInfo c => .access .myUserInfo fun o g =>
    testNull g (.unlockFailed .myUserInfo "MY_USER_INFO is not ready.")
      (.copyInfo c userInfoLayout.words o.userInfo)
  | .copyInfo c (w :: todo) myUi => .access .myUserInfo fun _ g =>
    readWord userInfoLayout w myUi (.copyInfo c todo) g
  | .copyInfo c [] myUi => .unlock .myUserInfo (.branch c myUi)
  | .branch c myUi => .free fun _ => some (if myUi.isMaster then .lockCopy c else .lockId c, [])
  | .lockCopy c => .lock .currentGameState (.testCopy c)
  | .testCopy c => .access .currentGameState fun o g =>
    testNull g (.unlockFailed .currentGameState "CURRENT_GAME_STATE is not ready.")
      (.copyState c gameStateLayout.words o.gameState)
  | .copyState c (w :: todo) gs => .access .currentGameState fun _ g =>
    readWord gameStateLayout w gs (.copyState c todo) g
  | .copyState c [] gs => .unlock .currentGameState (.addOwn c gs)
  | .addOwn c gs => .free fun _ => some (.lockCollect c (ownInput c gs), [])
  | .lockCollect c gs => .lock .lastPlayerInputs (.enterCollect c gs)
  | .enterCollect c gs => .access .lastPlayerInputs fun o g =>
    some (g, .collect c gs playerInputsLayout.words o.inputs)
  | .collect c gs (w :: todo) inputs => .access .lastPlayerInputs fun _ g =>
    readWord playerInputsLayout w inputs (.collect c gs todo) g
  | .collect c gs [] inputs => .unlock .lastPlayerInputs (.lockWrite c (othersInputs inputs gs))
  | .lockWrite _ gs => .lock .currentGameState (.writeState gameStateLayout.words gs)
  | .writeState (w :: todo) gs => .access .currentGameState fun _ g =>
    store (gameStateLayout.copy w gs) (.writeState todo gs) g
  | .writeState [] _ => .unlock .currentGameState .lockSend
  | .lockSend => .lock .currentGameState .testSend
  | .testSend => .access .currentGameState fun o g =>
    testNull g (.unlockFailed .currentGameState "CURRENT_GAME_STATE is NULL!")
      (.copySend o.env gameStateLayout.words o.gameState)
  | .copySend env (w :: todo) gs => .access .currentGameState fun _ g =>
    readWord gameStateLayout w gs (.copySend env todo) g
  | .copySend env [] gs => .unlock .currentGameState (.send env gs)
  | .lockId c => .lock .myUserInfo (.readId c)
  | .readId c => .access .myUserInfo fun o g =>
    match g with
    | .live ui => some (.live ui, .unlockId o.env c ui.id)
    | _ => none
  | .unlockId env c id => .unlock .myUserInfo (.sendInput env c id)
  | .unlockFailed mtx err => .unlock mtx (.failed err)
  -- what is left makes its outputs
  | .send env gs => .free fun _ => some (.idle, (callerPending mp (.send env gs)).map (.made θ))
  | .sendInput env c id => .free fun _ =>
    some (.idle, (callerPending mp (.sendInput env c id)).map (.made θ))
  | .failed err => .free fun _ => some (.idle, (callerPending mp (.failed err)).map (.made θ))

/-- **The client, statement by statement.** -/
def clientProgram (mp : Msgpack) : Program ThreadId Mtx Cell Locals (fun _ => Outside) Seen
  | .net => netProgram mp
  | .caller θ => callerProgram mp θ

end MasterRelay.Client
