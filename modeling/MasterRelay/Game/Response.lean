import MasterRelay.Client.Positions
import MasterRelay.Game.Delivery
import MasterRelay.Game.Progress
import MasterRelay.Protocol.Sizes

/-!
# What is typed can reach every screen

Safety says that nothing wrong is shown. This is the other half: from every state the closed system
gets to, what a slave types has a way to every screen. The slave calls `try_execute_tick`, its
packet arrives, the master is handed it, the master calls `try_execute_tick`, its packet arrives,
and every connected client has a packet under way that shows it. Nothing has to be waited for, and
nothing else that is under way is in the way.

Each event has a lemma that gives the packet the next one needs: `slave_types`, `server_relays`,
`master_hears`, `master_moves`, `server_broadcasts`, `screen_shows`.

* **`keypress_shown`**: the events in a row.
-/

namespace MasterRelay.Game

open MasterRelay.Client
open MasterRelay.Lib.MsgPack
open MasterRelay.Lib.Runs
open MasterRelay.Protocol
open MasterRelay.Server

variable {P : Type} [DecidableEq P] {mp : Msgpack} {w : Closed P}

omit [DecidableEq P] in
/-- The same registry and connections. -/
def SameSeats (w w' : Closed P) : Prop :=
  w'.net.table = w.net.table ∧ w'.net.connected = w.net.connected

/-! ## The events -/

/-- What a connected client sends is under way. -/
theorem mem_launchFrom_sent {p : P} {out : List ClientOutput} {ch : ChannelId} {d : Bytes}
    (hconn : w.net.connected p = true) (hd : d ∈ out.filterMap (leaves ch)) :
    d ∈ launchFrom w p out p ch := by
  rw [launchFrom, if_pos hconn, Function.update_self]
  exact List.mem_append_right _ hd

omit [DecidableEq P] in
/-- **A slave types.** -/
theorem slave_tick (hmp : mp.Lawful) {s : Shared} {ui : UserInfo} (hui : s.myUserInfo = some ui)
    (hslave : ui.isMaster = false) (c : TickCall) :
    tryExecuteTick mp .ideal s c =
      some (s, [.sent (.send () .streamPuppetInputs
        (inputPacket mp ⟨ui.id, c.userInput.x, c.userInput.y⟩) false false),
        .returned (.ok ())]) := by
  have halloc : ClientEnv.ideal.net.Allocates := ideal_allocates
  have hsize := inputPacket_size hmp ⟨ui.id, c.userInput.x, c.userInput.y⟩
  have hpack :
      packed ClientEnv.ideal.net (ifbTryPackPlayerInput mp ⟨ui.id, c.userInput.x, c.userInput.y⟩) =
        _ := packed_of_allocates halloc (emits_playerInput _)
  have haccepts : ClientEnv.ideal.net.Accepts () .streamPuppetInputs
      (inputPacket mp ⟨ui.id, c.userInput.x, c.userInput.y⟩).length :=
    ideal_accepts () _ (by omega)
  have htry := trySend_of_accepts false false (t := .playerInput) rfl halloc haccepts
  have hpeer : ClientEnv.ideal.clientPeer = some () := rfl
  simp only [tryExecuteTick, hui, hslave, handleCmdSlaveTick, hpack, hpeer, htry,
    Bool.false_eq_true, if_false]
  rfl

theorem slave_types (hmp : mp.Lawful) {q : P} {ui : UserInfo} (hconn : w.net.connected q = true)
    (hui : (w.net.client q).myUserInfo = some ui) (hslave : ui.isMaster = false) (c : TickCall) :
    ∃ w' out, (closed mp).step w (.tick q .ideal c) = some (w', out) ∧ w'.net = w.net ∧
      inputPacket mp ⟨ui.id, c.userInput.x, c.userInput.y⟩ ∈ w'.sent q .streamPuppetInputs := by
  simp only [closed, closedStep, networkStep, slave_tick hmp hui hslave c, Option.map_some]
  refine ⟨_, _, rfl, ?_, mem_launchFrom_sent hconn ?_⟩
  · rw [Function.update_eq_self]
  · exact List.mem_cons_self

/-- **The server sends it on.** -/
theorem server_relays (hmp : mp.Lawful) {q p : P} {pi : PlayerInput}
    (hq : w.net.connected q = true) (hp : w.net.connected p = true)
    (hmaster : tryGetMasterClient w.net.table = .ok masterSlot)
    (hpeer : (w.net.table masterSlot).peer = some p)
    (hd : inputPacket mp pi ∈ w.sent q .streamPuppetInputs) :
    ∃ i w' out, (closed mp).step w (.arrive q .streamPuppetInputs i .ideal) = some (w', out) ∧
      SameSeats w w' ∧ w'.net.client = w.net.client ∧
      inputPacket mp pi ∈ w'.net.flight p .streamPuppetInputs := by
  obtain ⟨i, hi⟩ := List.getElem?_of_mem hd
  have hserver : onReceive mp .ideal w.net.table q (inputPacket mp pi) = some _ :=
    onReceive_playerInput ideal_allocates q (parse_inputPacket hmp pi) hmaster hpeer rfl
  have hguard : ¬ (w.net.connected q = false ∨
      ChannelId.streamPuppetInputs = .critical ∧ i ≠ 0) := by simp [hq]
  refine ⟨i, ?_⟩
  simp only [closed, closedStep, if_neg hguard, hi, serverStep, hserver, Option.map_some]
  refine ⟨_, _, rfl, ⟨rfl, rfl⟩, rfl, ?_⟩
  show _ ∈ launchAll w.net.connected _ w.net.flight p .streamPuppetInputs
  rw [launchAll, if_pos hp]
  exact List.mem_append_right _ (by simp [arrives_send])

/-- **The master hears of it.** -/
theorem master_hears (hmp : mp.Lawful) {p : P} {um : UserInfo} {gs : GameState}
    {inputs : Fin othersCount → PlayerInput} {k : Fin othersCount} {v : UserInput}
    (hclient : w.net.client p = ⟨some um, some gs, some inputs⟩) (hmaster : um.isMaster = true)
    (hd : inputPacket mp ⟨UInt32.ofNat (slaveSlot k), v.x, v.y⟩ ∈
      w.net.flight p .streamPuppetInputs) :
    ∃ i w' out, (closed mp).step w (.deliver p .streamPuppetInputs i .ideal) = some (w', out) ∧
      SameSeats w w' ∧ w'.net.client p = ⟨some um, some gs, some (storeInput inputs k v)⟩ := by
  obtain ⟨i, hi⟩ := List.getElem?_of_mem hd
  have hunpack := unpack_playerInputBytes hmp ClientEnv.ideal.net.reader
    ⟨UInt32.ofNat (slaveSlot k), v.x, v.y⟩ []
  rw [List.append_nil] at hunpack
  have hreceive := handleReceive_input hmaster (some gs) inputs (parse_inputPacket hmp _) hunpack
    (slaveIndex_slot.mpr rfl)
  refine ⟨i, ?_⟩
  simp only [closed, closedStep, networkStep, hi, hclient, hreceive, Option.map_some, reduceCtorEq,
    false_and, if_false]
  refine ⟨_, _, rfl, ⟨rfl, rfl⟩, ?_⟩
  simp only [Function.update_self]
  rfl

omit [DecidableEq P] in
theorem ideal_sendGameState (hmp : mp.Lawful) (gs : GameState) :
    sendGameState mp .ideal gs =
      [.sent (.send () .stream (statePacket mp gs) false false), .returned (.ok ())] := by
  have halloc : ClientEnv.ideal.net.Allocates := ideal_allocates
  have hsize := frame_gameState_size hmp gs
  have hpack : packed ClientEnv.ideal.net (ifbTryPackGameState mp gs) = _ :=
    packed_of_allocates halloc (emits_gameState gs)
  have haccepts : ClientEnv.ideal.net.Accepts () .stream
      (frame .gameStateUpd (some (gameStateBytes mp gs))).length := ideal_accepts () _ (by omega)
  have htry := trySend_of_accepts false false (t := .gameStateUpd) rfl halloc haccepts
  have hpeer : ClientEnv.ideal.clientPeer = some () := rfl
  simp only [sendGameState, hpack, hpeer, htry]
  rfl

/-- **The master moves everybody.** -/
theorem master_moves (hmp : mp.Lawful) {p : P} {um : UserInfo} {gs : GameState}
    {inputs : Fin othersCount → PlayerInput} (hconn : w.net.connected p = true)
    (hclient : w.net.client p = ⟨some um, some gs, some inputs⟩) (hmaster : um.isMaster = true)
    (c : TickCall) :
    ∃ w' out, (closed mp).step w (.tick p .ideal c) = some (w', out) ∧ SameSeats w w' ∧
      statePacket mp (othersInputs inputs (ownInput c gs)) ∈ w'.sent p .stream := by
  have htick : tryExecuteTick mp .ideal ⟨some um, some gs, some inputs⟩ c = some _ :=
    tryExecuteTick_master hmaster gs inputs
  rw [ideal_sendGameState hmp] at htick
  simp only [closed, closedStep, networkStep, hclient, htick, Option.map_some]
  exact ⟨_, _, rfl, ⟨rfl, rfl⟩, mem_launchFrom_sent hconn List.mem_cons_self⟩

/-- **The server broadcasts the world.** -/
theorem server_broadcasts (hmp : mp.Lawful) {p : P} {gs : GameState}
    (hconn : w.net.connected p = true) (hd : statePacket mp gs ∈ w.sent p .stream) :
    ∃ i w' out, (closed mp).step w (.arrive p .stream i .ideal) = some (w', out) ∧
      SameSeats w w' ∧ ∀ z, w.net.connected z = true →
        statePacket mp gs ∈ w'.net.flight z .stream := by
  obtain ⟨i, hi⟩ := List.getElem?_of_mem hd
  have hserver : serverStep mp w.net.table (.receive .ideal p (statePacket mp gs)) = some _ :=
    step_gameStateBytes hmp ideal_allocates rfl w.net.table p gs
  have hguard : ¬ (w.net.connected p = false ∨ ChannelId.stream = .critical ∧ i ≠ 0) := by
    simp [hconn]
  refine ⟨i, ?_⟩
  simp only [closed, closedStep, if_neg hguard, hi, hserver, Option.map_some]
  refine ⟨_, _, rfl, ⟨rfl, rfl⟩, fun z hz => ?_⟩
  show _ ∈ launchAll w.net.connected _ w.net.flight z .stream
  rw [launchAll, if_pos hz]
  exact List.mem_append_right _ List.mem_cons_self

omit [DecidableEq P] in
/-- A client prints the state of a packet, and nothing in it changes. -/
theorem prints_state (hmp : mp.Lawful) (s : Shared) (gs : GameState) :
    printGameState mp .ideal s (statePacket mp gs) =
        some (handleOnGameStateUpdatedFromServer s gs) ∧
      handleReceive mp .ideal s (statePacket mp gs) = some s := by
  have hparse : ifbPtclTryParseMessageByType (statePacket mp gs) = _ :=
    parse_gameStateBytes hmp gs
  have hunpack : ifbTryUnpackGameState mp ClientEnv.ideal.net.reader
      (some (gameStateBytes mp gs)) = .ok gs := unpack_gameStateBytes_nil hmp _ _ gs
  constructor
  · simp only [printGameState, hparse, hunpack]
  · have hignored : received mp ClientEnv.ideal.net.reader (statePacket mp gs) = .ignored := by
      simp only [received, hparse]
    rcases handleReceive_ignored (s := s) hignored with h | ⟨-, payload, hparse', hfault⟩
    · exact h
    · rw [hparse] at hparse'
      cases hparse'
      exact absurd (by simp [hunpack, NoFault]) hfault

/-- **A screen shows it.** -/
theorem screen_shows (hmp : mp.Lawful) {z : P} {gs : GameState}
    (hd : statePacket mp gs ∈ w.net.flight z .stream) :
    ∃ i w' s, (closed mp).step w (.deliver z .stream i .ideal) = some (w', [.printed z s]) ∧
      s.gameState = gs := by
  obtain ⟨i, hi⟩ := List.getElem?_of_mem hd
  obtain ⟨hprint, hreceive⟩ := prints_state hmp (w.net.client z) gs
  refine ⟨i, ?_⟩
  simp only [closed, closedStep, networkStep, hi, hreceive, hprint, Option.map_some, reduceCtorEq,
    false_and, if_false, Option.bind_some, Option.toList_some]
  exact ⟨_, _, rfl, rfl⟩

/-! ## In a row -/

omit [DecidableEq P] in
/-- The master the server knows is the connected client that takes itself for it. -/
theorem informed_master {r : ServerRoster P} (h : Informed mp w.net r) {p : P} {um : UserInfo}
    (hconn : w.net.connected p = true) (hum : (w.net.client p).myUserInfo = some um)
    (hmaster : um.isMaster = true) :
    tryGetMasterClient w.net.table = .ok masterSlot ∧
      (w.net.table masterSlot).peer = some p := by
  obtain ⟨-, hseat⟩ := seatedAs_master (h.info p um hconn hum) hmaster
  refine ⟨?_, ((sim_seat h.sim).mp hseat).2.1⟩
  rw [tryGetMasterClient_ok h.sim.proper, ← h.sim.same, r.leader_eq_some]
  exact masterAt_iff.mpr ⟨p, hseat⟩

/-- **What is typed can reach every screen.** In every state of the closed system (where memory has
been there so far, and a new connection belongs to a client that has just started) in which `q` is
connected and plays slave `k`, and `p` is connected and is the master, with a world: whatever is
typed at `q`, and whatever at `p`, five events in a row, each one handled, lead to a state in which
every connected client has a packet under way that shows it, once handed over, a world in which the
slave has moved by what was typed at `q` and the master by what was typed at `p`. -/
theorem keypress_shown (hmp : mp.Lawful) {tr : List (ClosedMove P)}
    (hr : Run (closed mp) .init tr w) (hprov : ∀ x ∈ tr, Provided x.event) {q p : P}
    {k : Fin othersCount} (hq : w.net.connected q = true) (hp : w.net.connected p = true)
    (hslave : (w.net.client q).myUserInfo = some ⟨UInt32.ofNat (slaveSlot k), false⟩)
    {um : UserInfo} (hum : (w.net.client p).myUserInfo = some um) (hmaster : um.isMaster = true)
    {gs : GameState} (hgs : (w.net.client p).currentGameState = some gs) (cq cp : TickCall) :
    ∃ i j n tu w', Run (closed mp) w tu w' ∧
      tu.map Step.event = [.tick q .ideal cq, .arrive q .streamPuppetInputs i .ideal,
        .deliver p .streamPuppetInputs j .ideal, .tick p .ideal cp, .arrive p .stream n .ideal] ∧
      ∀ z, w.net.connected z = true → ∃ m w'' s,
        (closed mp).step w' (.deliver z .stream m .ideal) = some (w'', [.printed z s]) ∧
        (s.gameState.pos k.succ).x = (gs.pos k.succ).x + cq.userInput.x ∧
        (s.gameState.pos k.succ).y = (gs.pos k.succ).y + cq.userInput.y ∧
        (s.gameState.pos 0).x = (gs.pos 0).x + cp.userInput.x ∧
        (s.gameState.pos 0).y = (gs.pos 0).y + cp.userInput.y := by
  obtain ⟨r, hh⟩ := honest_run hmp hr fun x hx => readsBuffers_of_provided (hprov x hx)
  obtain ⟨hget, hpeer⟩ := informed_master hh.informed hp hum hmaster
  have hany : (w.net.client p).myUserInfo.any UserInfo.isMaster = true := by
    rw [hum]
    exact hmaster
  obtain ⟨inputs, hin⟩ := Option.ne_none_iff_exists'.mp (ready_run hr hprov p hany)
  have hclient : w.net.client p = ⟨some um, some gs, some inputs⟩ := by
    rw [← hum, ← hgs, ← hin]
  obtain ⟨w₁, o₁, hs₁, hnet₁, hd₁⟩ := slave_types hmp hq hslave rfl cq
  obtain ⟨i, w₂, o₂, hs₂, hseats₂, hclient₂, hd₂⟩ := server_relays hmp (hnet₁ ▸ hq) (hnet₁ ▸ hp)
    (hnet₁ ▸ hget) (hnet₁ ▸ hpeer) hd₁
  rw [SameSeats, hnet₁] at hseats₂
  rw [hnet₁] at hclient₂
  obtain ⟨j, w₃, o₃, hs₃, hseats₃, hclient₃⟩ :=
    master_hears hmp (hclient₂ ▸ hclient) hmaster hd₂
  have hp₃ : w₃.net.connected p = true := by rw [hseats₃.2, hseats₂.2, hp]
  obtain ⟨w₄, o₄, hs₄, hseats₄, hd₄⟩ := master_moves hmp hp₃ hclient₃ hmaster cp
  obtain ⟨n, w₅, o₅, hs₅, hseats₅, hd₅⟩ := server_broadcasts hmp (hseats₄.2 ▸ hp₃) hd₄
  have hrun := Run.cons hs₁ (Run.cons hs₂ (Run.cons hs₃ (Run.cons hs₄ (Run.single hs₅))))
  refine ⟨i, j, n, _, w₅, hrun, rfl, fun z hz => ?_⟩
  have hz₄ : w₄.net.connected z = true := by rw [hseats₄.2, hseats₃.2, hseats₂.2, hz]
  obtain ⟨m, w₆, s, hs₆, hstate⟩ := screen_shows hmp (hd₅ z hz₄)
  obtain ⟨hslavex, hslavey⟩ := tick_pos cp (storeInput inputs k cq.userInput) gs k.succ
  obtain ⟨hmasterx, hmastery⟩ := tick_pos cp (storeInput inputs k cq.userInput) gs 0
  have hstored : addends (storeInput inputs k cq.userInput) cp k.succ = cq.userInput := by
    simp only [addends, Fin.cases_succ, storeInput, Function.update_self]
  rw [hstored] at hslavex hslavey
  rw [← hstate] at hslavex hslavey hmasterx hmastery
  exact ⟨m, w₆, s, hs₆, hslavex, hslavey, hmasterx, hmastery⟩

/-- The slave of the session can move on. -/
theorem keypress_shown_session : ∃ tr, ∃ w : Closed Nat, Run (closed reference) .init tr w ∧
    ∃ tu w', Run (closed reference) w tu w' ∧ ∃ m w'' s,
      (closed reference).step w' (.deliver 2 .stream m .ideal) = some (w'', [.printed 2 s]) ∧
      (s.gameState.pos 1).x = 1 + -1 := by
  obtain ⟨tr, w, hr, hev, hQ⟩ := run_of_exec (closed reference) .init session
    (fun _ w => w.net.connected 1 && w.net.connected 2 &&
      decide ((w.net.client 2).myUserInfo = some ⟨1, false⟩) &&
      decide ((w.net.client 1).myUserInfo = some ⟨0, true⟩) &&
      decide ((w.net.client 1).currentGameState = some
        ⟨0, ⟨true, 0, -1⟩, ⟨true, 1, 0⟩, .zero, .zero⟩)) (by decide +kernel)
  simp only [Bool.and_eq_true, decide_eq_true_eq] at hQ
  obtain ⟨⟨⟨⟨hp, hq⟩, hslave⟩, hmaster⟩, hgs⟩ := hQ
  obtain ⟨i, j, n, tu, w', hr', -, hshown⟩ := keypress_shown reference_lawful hr
    (session_provided hev) (k := 0) hq hp hslave hmaster rfl hgs ⟨0, ⟨-1, 0⟩⟩ ⟨0, ⟨0, 0⟩⟩
  obtain ⟨m, w'', s, hs, hx, -⟩ := hshown 2 hq
  exact ⟨tr, w, hr, tu, w', hr', m, w'', s, hs, hx⟩

end MasterRelay.Game
