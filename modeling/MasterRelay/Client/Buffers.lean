import MasterRelay.Client.Role
import MasterRelay.Protocol.Buffers

/-!
# The buffers of a client

`handle_cmd_slave_tick` and `try_execute_tick` once more, with their calls on the `msgpack_sbuffer`.
The values are those of `Sections.lean` and `Atomic.lean` (`*_value`).

`handle_cmd_slave_tick` destroys its buffer on each of its exits. `try_execute_tick` destroys the
one of a master where packing or sending fails, and not where the state is sent.

* `slaveTick_settle`, `executeTick_balanced_iff`: the two functions, call by call.
* `clientBuffers_step`, `clientBuffers_run`: the threads keep one buffer for each game state sent.
-/

namespace MasterRelay.Client

open MasterRelay.Lib.Ledger
open MasterRelay.Lib.MsgPack
open MasterRelay.Lib.Runs
open MasterRelay.Protocol

variable (mp : Msgpack) (env : ClientEnv) (s : Shared)

/-- `handle_cmd_slave_tick`. -/
def handleCmdSlaveTickLogged (userInput : UserInput) : Logged (Option (List (Output Unit))) :=
  let calls := [.init .handleCmdSlaveTick, .pack .handleCmdSlaveTick, .destroy .handleCmdSlaveTick]
  match s.myUserInfo with
  | none => ⟨none, [.init .handleCmdSlaveTick]⟩
  | some ui =>
    match packed env.net (ifbTryPackPlayerInput mp ⟨ui.id, userInput.x, userInput.y⟩) with
    | .error _ => ⟨some [], calls⟩
    | .ok sbuf =>
      match ifbPtclTrySendMsgPacket env.net .playerInput .streamPuppetInputs (some sbuf)
          env.clientPeer false false with
      | .error _ => ⟨some [], calls⟩
      | .ok o => ⟨some [o], calls⟩

/-- The end of a master's call, with its buffer initialised. -/
def sendGameStateLogged (gs : GameState) : Logged (List ClientOutput) :=
  let calls := [.init .tryExecuteTick, .pack .tryExecuteTick]
  match packed env.net (ifbTryPackGameState mp gs) with
  | .error err => ⟨[.returned (.error ("ifb_try_pack_game_state error: " ++ err ++ "\n"))],
      calls ++ [.destroy .tryExecuteTick]⟩
  | .ok sbuf =>
    match ifbPtclTrySendMsgPacket env.net .gameStateUpd .stream (some sbuf) env.clientPeer
        false false with
    | .error err => ⟨[.returned (.error ("send_msg_packet_to_server error: " ++ err ++ "\n"))],
        calls ++ [.destroy .tryExecuteTick]⟩
    | .ok o => ⟨[.sent o, .returned (.ok ())], calls⟩

/-- `try_execute_tick`. -/
def tryExecuteTickLogged (c : TickCall) : Logged (Option (Shared × List ClientOutput)) :=
  match s.myUserInfo with
  | none => ⟨some (s, [.returned (.error "MY_USER_INFO is not ready.")]), []⟩
  | some myUi =>
    if myUi.isMaster then
      match s.currentGameState with
      | none => ⟨some (s, [.returned (.error "CURRENT_GAME_STATE is not ready.")]), []⟩
      | some gameState =>
        match s.lastPlayerInputs with
        | none => ⟨none, []⟩
        | some inputs =>
          let gameState := othersInputs inputs (ownInput c gameState)
          let r := sendGameStateLogged mp env gameState
          ⟨some ({ s with currentGameState := some gameState }, r.value), r.calls⟩
    else
      let r := handleCmdSlaveTickLogged mp env s c.userInput
      ⟨r.value.map fun out => (s, out.map .sent ++ [.returned (.ok ())]), r.calls⟩

/-- The calls of the sections of `try_execute_tick` after the first. The one that sends initialises
its buffer before it looks at the state. -/
def tickSectionCalls : TickPc → List SbufferCall
  | .sendState =>
    match s.currentGameState with
    | none => [.init .tryExecuteTick]
    | some gs => (sendGameStateLogged mp env gs).calls
  | .slaveTick c => (handleCmdSlaveTickLogged mp env s c.userInput).calls
  | _ => []

omit env s in
/-- The calls of a step of the threads. -/
def clientCalls (m : ClientState) : ClientEvent → List SbufferCall
  | .tickSection env θ => tickSectionCalls mp env m.shared (m.tick θ)
  | _ => []

/-! ## The values -/

theorem slaveTickLogged_value (input : UserInput) :
    (handleCmdSlaveTickLogged mp env s input).value = handleCmdSlaveTick mp env s input := by
  unfold handleCmdSlaveTickLogged handleCmdSlaveTick
  rcases s.myUserInfo with _ | ui
  · rfl
  · dsimp only
    rcases packed env.net (ifbTryPackPlayerInput mp ⟨ui.id, input.x, input.y⟩) with err | sbuf
    · rfl
    · dsimp only
      rcases ifbPtclTrySendMsgPacket env.net .playerInput .streamPuppetInputs (some sbuf)
        env.clientPeer false false with err | o <;> rfl

theorem sendGameStateLogged_value (gs : GameState) :
    (sendGameStateLogged mp env gs).value = sendGameState mp env gs := by
  unfold sendGameStateLogged sendGameState
  rcases packed env.net (ifbTryPackGameState mp gs) with err | sbuf
  · rfl
  · dsimp only
    rcases ifbPtclTrySendMsgPacket env.net .gameStateUpd .stream (some sbuf) env.clientPeer
      false false with err | o <;> rfl

theorem executeTickLogged_value (c : TickCall) :
    (tryExecuteTickLogged mp env s c).value = tryExecuteTick mp env s c := by
  unfold tryExecuteTickLogged tryExecuteTick
  rcases s.myUserInfo with _ | ui
  · rfl
  · dsimp only
    split_ifs
    · rcases s.currentGameState with _ | gs
      · rfl
      · rcases s.lastPlayerInputs with _ | inputs
        · rfl
        · dsimp only
          rw [sendGameStateLogged_value]
    · dsimp only
      rw [slaveTickLogged_value]

/-! ## The calls -/

theorem slaveTickLogged_calls (input : UserInput) :
    (handleCmdSlaveTickLogged mp env s input).calls = [.init .handleCmdSlaveTick] ∨
      (handleCmdSlaveTickLogged mp env s input).calls =
        [.init .handleCmdSlaveTick, .pack .handleCmdSlaveTick, .destroy .handleCmdSlaveTick] := by
  unfold handleCmdSlaveTickLogged
  rcases s.myUserInfo with _ | ui
  · exact .inl rfl
  · dsimp only
    rcases packed env.net (ifbTryPackPlayerInput mp ⟨ui.id, input.x, input.y⟩) with err | sbuf
    · exact .inr rfl
    · dsimp only
      rcases ifbPtclTrySendMsgPacket env.net .playerInput .streamPuppetInputs (some sbuf)
        env.clientPeer false false with err | o <;> exact .inr rfl

/-- **`handle_cmd_slave_tick` leaves the ledger as it was.** -/
theorem slaveTick_settle (input : UserInput) (live : Multiset SbufferOwner) :
    (handleCmdSlaveTickLogged mp env s input).settle live = some live := by
  rcases slaveTickLogged_calls mp env s input with h | h
  · rw [Logged.settle, h]
    rfl
  · exact settle_destroyed h live

/-- A game state is packed and handed to ENet. -/
structure SendsState (gs : GameState) : Prop where
  room : ∀ b ∈ env.net.grow.take gameStateWrites, b = true
  connected : env.clientPeer = some ()
  canSend : env.net.CanSend .gameStateUpd () .stream
    (frame .gameStateUpd (some (gameStateBytes mp gs))).length

/-- **All the end of a master's call can do**: send the state and keep the buffer, or fail and
destroy it. -/
theorem sendGameState_cases (gs : GameState) :
    SendsState mp env gs ∧ (sendGameStateLogged mp env gs).calls =
        [.init .tryExecuteTick, .pack .tryExecuteTick] ∧
      sendGameState mp env gs = [.sent (.send () .stream
        (frame .gameStateUpd (some (gameStateBytes mp gs))) false false), .returned (.ok ())] ∨
    ¬ SendsState mp env gs ∧ (sendGameStateLogged mp env gs).calls =
        [.init .tryExecuteTick, .pack .tryExecuteTick, .destroy .tryExecuteTick] ∧
      ∃ err, sendGameState mp env gs = [.returned (.error err)] := by
  have hpacked : (∃ b, packed env.net (ifbTryPackGameState mp gs) = .ok b) ↔
      ∀ b ∈ env.net.grow.take gameStateWrites, b = true := packed_isOk (needs_gameState gs)
  unfold sendGameStateLogged sendGameState
  cases hpack : packed env.net (ifbTryPackGameState mp gs) with
  | error err =>
    refine .inr ⟨fun h => ?_, rfl, _, rfl⟩
    obtain ⟨sbuf, hok⟩ := hpacked.mpr h.room
    cases hpack.symm.trans hok
  | ok sbuf =>
    obtain rfl := packed_eq_ok (emits_gameState gs) hpack
    dsimp only
    have hcan : ∀ p, (∃ o, ifbPtclTrySendMsgPacket env.net .gameStateUpd .stream
        (some (gameStateBytes mp gs)) (some p) false false = .ok o) ↔
          env.net.CanSend .gameStateUpd p .stream
            (frame .gameStateUpd (some (gameStateBytes mp gs))).length :=
      fun p => trySend_isOk false false rfl
    cases hsend : ifbPtclTrySendMsgPacket env.net .gameStateUpd .stream
        (some (gameStateBytes mp gs)) env.clientPeer false false with
    | error err =>
      refine .inr ⟨fun h => ?_, rfl, _, rfl⟩
      obtain ⟨o, ho⟩ := (hcan ()).mpr h.canSend
      rw [h.connected] at hsend
      cases hsend.symm.trans ho
    | ok o =>
      obtain ⟨p, hp, rfl⟩ := trySend_eq_ok hsend
      rw [hp] at hsend
      exact .inl ⟨⟨hpacked.mp ⟨_, hpack⟩, hp, (hcan p).mp ⟨_, hsend⟩⟩, rfl, rfl⟩

/-- The call is a master's that is ready, and sends its state. -/
def SendsTick (c : TickCall) : Prop :=
  ∃ ui gs inputs, s = ⟨some ui, some gs, some inputs⟩ ∧ ui.isMaster = true ∧
    SendsState mp env (othersInputs inputs (ownInput c gs))

/-- A master that is ready gets to the end of its call. -/
theorem executeTickLogged_ready {c : TickCall} {ui : UserInfo} (hmaster : ui.isMaster = true)
    (gs : GameState) (inputs : Fin othersCount → PlayerInput) :
    (tryExecuteTickLogged mp env ⟨some ui, some gs, some inputs⟩ c).calls =
      (sendGameStateLogged mp env (othersInputs inputs (ownInput c gs))).calls := by
  simp only [tryExecuteTickLogged, if_pos hmaster]

/-- Everyone else has destroyed the buffer, or has none. -/
theorem executeTickLogged_notReady {s : Shared} (c : TickCall)
    (hnot : ∀ ui gs inputs, s = ⟨some ui, some gs, some inputs⟩ → ui.isMaster = false)
    (live : Multiset SbufferOwner) : (tryExecuteTickLogged mp env s c).settle live = some live := by
  obtain ⟨myUi, cgs, lpi⟩ := s
  rcases myUi with _ | ui
  · rfl
  · by_cases hmaster : ui.isMaster = true
    · rcases cgs with _ | gs
      · simp [tryExecuteTickLogged, hmaster, Logged.settle, settle]
      · rcases lpi with _ | inputs
        · simp [tryExecuteTickLogged, hmaster, Logged.settle, settle]
        · exact absurd hmaster (Bool.eq_false_iff.mp (hnot ui gs inputs rfl))
    · have hcalls : (tryExecuteTickLogged mp env ⟨some ui, cgs, lpi⟩ c).calls =
          (handleCmdSlaveTickLogged mp env ⟨some ui, cgs, lpi⟩ c.userInput).calls := by
        simp only [tryExecuteTickLogged, if_neg hmaster]
      rw [Logged.settle, hcalls]
      exact slaveTick_settle mp env _ c.userInput live

/-- **`try_execute_tick` leaves the ledger as it was, unless it sends a state.** -/
theorem executeTick_balanced_iff (c : TickCall) :
    ReturnsBalanced (tryExecuteTickLogged mp env s c) ↔ ¬ SendsTick mp env s c := by
  by_cases hready : ∃ ui gs inputs, s = ⟨some ui, some gs, some inputs⟩ ∧ ui.isMaster = true
  · obtain ⟨ui, gs, inputs, rfl, hmaster⟩ := hready
    have hcalls := executeTickLogged_ready mp env (c := c) hmaster gs inputs
    rcases sendGameState_cases mp env (othersInputs inputs (ownInput c gs)) with
      ⟨hsends, hkept, -⟩ | ⟨hno, hdestroyed, -⟩
    · have hvalue := executeTickLogged_value mp env ⟨some ui, some gs, some inputs⟩ c
      rw [tryExecuteTick_master hmaster] at hvalue
      refine iff_of_false (not_balanced (hcalls.trans hkept) hvalue) (not_not.mpr ?_)
      exact ⟨ui, gs, inputs, rfl, hmaster, hsends⟩
    · refine iff_of_true (fun _ _ => settle_destroyed (hcalls.trans hdestroyed)) ?_
      rintro ⟨ui', gs', inputs', hs, -, hsends⟩
      cases hs
      exact hno hsends
  · refine iff_of_true (fun _ _ => executeTickLogged_notReady mp env c fun ui gs inputs hs => ?_) ?_
    · exact Bool.eq_false_iff.mpr fun hm => hready ⟨ui, gs, inputs, hs, hm⟩
    · rintro ⟨ui, gs, inputs, hs, hm, -⟩
      exact hready ⟨ui, gs, inputs, hs, hm⟩

/-! ## Runs -/

/-- A packet with a game state. -/
def isGameStatePacket : ClientOutput → Bool
  | .sent o => o.data.head? == some MessageType.gameStateUpd.toByte
  | .returned _ => false

variable {mp} {m m' : ClientState} {e : ClientEvent} {out : List ClientOutput}

/-- A slave sends no game state. -/
theorem slaveTick_countP {env : ClientEnv} {s : Shared} {input : UserInput}
    {sent : List (Output Unit)} (h : handleCmdSlaveTick mp env s input = some sent) :
    (sent.map ClientOutput.sent ++ [ClientOutput.returned (.ok ())]).countP isGameStatePacket =
      0 := by
  have hui : ∃ ui, s.myUserInfo = some ui := by
    cases hui : s.myUserInfo with
    | none =>
      rw [handleCmdSlaveTick, hui] at h
      cases h
    | some ui => exact ⟨ui, rfl⟩
  obtain ⟨ui, hui⟩ := hui
  rw [List.countP_eq_zero]
  intro o ho
  rcases List.mem_append.mp ho with hsent | hreturned
  · obtain ⟨o', ho', rfl⟩ := List.mem_map.mp hsent
    rw [isGameStatePacket, slaveTick_sent hui h ho']
    exact Bool.false_ne_true
  · cases List.mem_singleton.mp hreturned
    exact Bool.false_ne_true

/-- A section that sends a game state keeps its buffer, and no other section keeps one. -/
theorem tickSection_settle {env : ClientEnv} {s s' : Shared} {pc pc' : TickPc}
    (h : tickSection mp env s pc = some (s', pc', out)) :
    settle 0 ((tickSectionCalls mp env s pc).flatMap sbufferUses) =
      some (Multiset.replicate (out.countP isGameStatePacket) .tryExecuteTick) := by
  cases pc with
  | idle => cases h
  | copyState c =>
    rw [tickSection] at h
    split at h <;> cases h <;> rfl
  | collectInputs c gs =>
    rw [tickSection] at h
    split at h <;> cases h
    rfl
  | writeBack c gs =>
    rw [tickSection] at h
    split at h <;> cases h
    rfl
  | sendState =>
    rw [tickSection] at h
    rw [tickSectionCalls]
    cases hgs : s.currentGameState with
    | none =>
      rw [hgs] at h
      cases h
      rfl
    | some gs =>
      rw [hgs] at h
      cases h
      rcases sendGameState_cases mp env gs with ⟨-, hcalls, hout⟩ | ⟨-, hcalls, err, hout⟩
      · rw [hout]
        exact settle_kept hcalls 0
      · rw [hout]
        exact settle_destroyed hcalls 0
  | slaveTick c =>
    rw [tickSection] at h
    obtain ⟨sent, hsent, heq⟩ := Option.map_eq_some_iff.mp h
    cases heq
    rw [slaveTick_countP hsent]
    exact slaveTick_settle mp env s c.userInput 0

/-- **A step of the threads keeps one buffer for each game state it sends.** -/
theorem clientBuffers_step (hs : (client mp).step m e = some (m', out)) :
    settle 0 ((clientCalls mp m e).flatMap sbufferUses) =
      some (Multiset.replicate (out.countP isGameStatePacket) .tryExecuteTick) := by
  cases e with
  | receive env data =>
    simp only [client, clientStep] at hs
    split_ifs at hs
    obtain ⟨r, -, heq⟩ := Option.map_eq_some_iff.mp hs
    cases heq
    rfl
  | netSection env =>
    obtain ⟨r, -, heq⟩ := Option.map_eq_some_iff.mp hs
    cases heq
    rfl
  | call θ c =>
    simp only [client, clientStep] at hs
    split_ifs at hs
    cases hs
    unfold startTick
    split <;> rfl
  | tickSection env θ =>
    obtain ⟨⟨s', pc', out'⟩, hsection, heq⟩ := Option.map_eq_some_iff.mp hs
    cases heq
    exact tickSection_settle hsection

/-- **The threads keep one buffer for each game state they send.** -/
theorem clientBuffers_run {tr : List (Step ClientState ClientEvent ClientOutput)}
    (hr : Run (client mp) m tr m') :
    settle 0 (tr.flatMap fun x => (clientCalls mp x.pre x.event).flatMap sbufferUses) =
      some (Multiset.replicate ((outputs tr).countP isGameStatePacket) .tryExecuteTick) :=
  settle_count _ _ Step.out isGameStatePacket tr fun _ hx => clientBuffers_step (hr.mem hx).1

end MasterRelay.Client
