import MasterRelay.Game.Closed
import MasterRelay.Server.Relay

/-!
# Who is obeyed

In the open system the server broadcasts any peer's states, and the master stores an input under
whatever id the packet names. In the closed system the client makes up for it: a state is sent by a
client that takes itself for the master, an input by a slave under its own id, and what clients take
themselves for is true (`Game/Agreement.lean`).

* `made_receive`: what the server does with a packet a client makes.
* `honest_step`, `honest_run`: every packet under way, and every input a master holds, comes from a
  player that was in the right slot when it was sent (`Honest`).
* **`master_obeyed`**: the server broadcasts the states of the active master, and a client prints
  nothing else.
* **`slave_heard`**: what a master holds as the input of slave `k` is what a slave in its slot has
  typed.
-/

namespace MasterRelay.Game

open MasterRelay.Client
open MasterRelay.Lib.MsgPack
open MasterRelay.Lib.Runs
open MasterRelay.Protocol
open MasterRelay.Server

variable {P : Type}

/-- `p` plays in slot `i`, as the master or as a slave. -/
def Plays (t : Table P) (i : Slot) (p : P) (isMaster : Bool) : Prop :=
  isPlayerExistsAndConnected (t i) = true ∧ (t i).peer = some p ∧ (t i).isMaster = isMaster

/-- `p` disconnects. -/
def Quits (p : P) (x : ClosedMove P) : Prop := x.event = .disconnect p

/-- The client of the active master sends the packet of a state. -/
def SendsState (p : P) (d : Bytes) (x : ClosedMove P) : Prop :=
  Plays x.pre.net.table masterSlot p true ∧
    ∃ env c o, x.event = .tick p env c ∧ .client p o ∈ x.out ∧ leaves .stream o = some d

/-- The client of the slave in slot `i` sends what has been typed. -/
def SendsInput (mp : Msgpack) (p : P) (i : Slot) (input : UserInput) (x : ClosedMove P) : Prop :=
  Plays x.pre.net.table i p false ∧
    ∃ env c o, x.event = .tick p env c ∧ c.userInput = input ∧ .client p o ∈ x.out ∧
      leaves .streamPuppetInputs o = some (inputPacket mp ⟨UInt32.ofNat i, input.x, input.y⟩)

/-- The decoders read the buffers they get. -/
def ReadsBuffers (x : ClosedMove P) : Prop :=
  (∀ p ch i env, x.event = .arrive p ch i env → ∃ past stale, env.reader = .buffer past stale) ∧
    ∀ p ch i env, x.event = .deliver p ch i env →
      ∃ past stale, env.net.reader = .buffer past stale

/-- **What may be under way from `p` to the server**, after the steps `tr`: requests; states, from
the master; inputs, from a slave under its id. -/
def Genuine (mp : Msgpack) (tr : List (ClosedMove P)) (s : Seats activePlayersSize P) (p : P) :
    ChannelId → Bytes → Prop
  | .critical, d => d = frame .reqUserInfo none
  | .stream, d => ∃ gs, d = statePacket mp gs ∧ s masterSlot = some ⟨p, true⟩ ∧
      Since (SendsState p d) (Quits p) tr
  | .streamPuppetInputs, d => ∃ (i : Slot) (input : UserInput),
      d = inputPacket mp ⟨UInt32.ofNat i, input.x, input.y⟩ ∧ s i = some ⟨p, false⟩ ∧
        Since (SendsInput mp p i input) (Quits p) tr
  | .service, _ => False

/-- **What may be under way from the server**: what it tells players, a state of a master, or an
input of a slave. -/
def Forwarded (mp : Msgpack) (tr : List (ClosedMove P)) : ChannelId → Bytes → Prop
  | .critical, d => ∃ ty payload, (ty = .resUserInfo ∨ ty = .slaveConnected) ∧ d = frame ty payload
  | .stream, d => ∃ gs, d = statePacket mp gs ∧ ∃ x ∈ tr, ∃ p, SendsState p d x
  | .streamPuppetInputs, d => ∃ (i : Slot) (input : UserInput),
      d = inputPacket mp ⟨UInt32.ofNat i, input.x, input.y⟩ ∧
        ∃ x ∈ tr, ∃ p, SendsInput mp p i input x
  | .service, _ => False

/-- **What a master may hold as the input of slave `k`**: nothing yet, or what a slave in its slot
has sent. -/
def Held (mp : Msgpack) (tr : List (ClosedMove P)) (k : Fin othersCount) (pi : PlayerInput) :
    Prop :=
  pi.x = 0 ∧ pi.y = 0 ∨ ∃ x ∈ tr, ∃ p, SendsInput mp p (slaveSlot k) ⟨pi.x, pi.y⟩ x

variable {mp : Msgpack} {tr : List (ClosedMove P)} {x : ClosedMove P}
  {s s' : Seats activePlayersSize P} {p : P} {ch : ChannelId} {d : Bytes}

/-- A packet stays genuine as long as its sender keeps its seat. -/
theorem genuine_seats (h : Genuine mp tr s p ch d)
    (hkeep : ∀ i m, s i = some ⟨p, m⟩ → s' i = some ⟨p, m⟩) : Genuine mp tr s' p ch d := by
  cases ch with
  | critical => exact h
  | stream =>
    obtain ⟨gs, hd, hs, hsince⟩ := h
    exact ⟨gs, hd, hkeep _ _ hs, hsince⟩
  | streamPuppetInputs =>
    obtain ⟨i, input, hd, hs, hsince⟩ := h
    exact ⟨i, input, hd, hkeep _ _ hs, hsince⟩
  | service => exact h

theorem genuine_snoc (h : Genuine mp tr s p ch d) (hstay : ¬ Quits p x) :
    Genuine mp (tr ++ [x]) s p ch d := by
  cases ch with
  | critical => exact h
  | stream =>
    obtain ⟨gs, hd, hs, hsince⟩ := h
    exact ⟨gs, hd, hs, since_snoc.mpr (.inr ⟨hsince, hstay⟩)⟩
  | streamPuppetInputs =>
    obtain ⟨i, input, hd, hs, hsince⟩ := h
    exact ⟨i, input, hd, hs, since_snoc.mpr (.inr ⟨hsince, hstay⟩)⟩
  | service => exact h

theorem forwarded_snoc (h : Forwarded mp tr ch d) : Forwarded mp (tr ++ [x]) ch d := by
  cases ch with
  | critical => exact h
  | stream =>
    obtain ⟨gs, hd, y, hy, hsent⟩ := h
    exact ⟨gs, hd, y, List.mem_append_left _ hy, hsent⟩
  | streamPuppetInputs =>
    obtain ⟨i, input, hd, y, hy, hsent⟩ := h
    exact ⟨i, input, hd, y, List.mem_append_left _ hy, hsent⟩
  | service => exact h

theorem held_snoc {k : Fin othersCount} {pi : PlayerInput} (h : Held mp tr k pi) :
    Held mp (tr ++ [x]) k pi := by
  rcases h with hzero | ⟨y, hy, hsent⟩
  · exact .inl hzero
  · exact .inr ⟨y, List.mem_append_left _ hy, hsent⟩

/-- What was sent since is in the trace. -/
theorem since_mem {A B : ClosedMove P → Prop} (h : Since A B tr) : ∃ y ∈ tr, A y := by
  obtain ⟨t₁, y, t₂, rfl, hy, -⟩ := h
  exact ⟨y, List.mem_append_right _ List.mem_cons_self, hy⟩

/-- A genuine packet may be forwarded on its channel, but for a request. -/
theorem forwarded_of_genuine (h : Genuine mp tr s p ch d) (hch : ch ≠ .critical) :
    Forwarded mp tr ch d := by
  cases ch with
  | critical => exact absurd rfl hch
  | stream =>
    obtain ⟨gs, hd, -, hsince⟩ := h
    obtain ⟨y, hy, hsent⟩ := since_mem hsince
    exact ⟨gs, hd, y, hy, p, hsent⟩
  | streamPuppetInputs =>
    obtain ⟨i, input, hd, -, hsince⟩ := h
    obtain ⟨y, hy, hsent⟩ := since_mem hsince
    exact ⟨i, input, hd, y, hy, p, hsent⟩
  | service => exact h

/-! ## The server and the clients at genuine packets -/

/-- What a client makes for each channel. -/
def Made (mp : Msgpack) : ChannelId → Bytes → Prop
  | .critical, d => d = frame .reqUserInfo none
  | .stream, d => ∃ gs, d = statePacket mp gs
  | .streamPuppetInputs, d => ∃ pi, d = inputPacket mp pi
  | .service, _ => False

theorem made_of_genuine (h : Genuine mp tr s p ch d) : Made mp ch d := by
  cases ch with
  | critical => exact h
  | stream =>
    obtain ⟨gs, hd, -⟩ := h
    exact ⟨gs, hd⟩
  | streamPuppetInputs =>
    obtain ⟨i, input, hd, -⟩ := h
    exact ⟨_, hd⟩
  | service => exact h

section Receive

variable [DecidableEq P]

/-- **All the server does with a packet a client makes**: it answers a request, broadcasts a state
as it came, and sends an input on as it came. -/
theorem made_receive (hmp : mp.Lawful) (h : Made mp ch d) {env : Env P}
    (hrd : ∃ past stale, env.reader = .buffer past stale) {t t' : Table P} {os : List (Output P)}
    (hs : (server mp).step t (.receive env p d) = some (t', os)) :
    (ch = .critical ∧ ∀ o ∈ os, ∃ q ty payload, (ty = .resUserInfo ∨ ty = .slaveConnected) ∧
        o = .send q .critical (frame ty payload) true true) ∨
      (ch = .stream ∧ (os = [] ∨ os = [.broadcast .stream d false false])) ∨
      ch = .streamPuppetInputs ∧
        (os = [] ∨ ∃ q, os = [.send q .streamPuppetInputs d false false]) := by
  have hcases := onReceive_cases hs
  cases ch with
  | critical =>
    obtain rfl : d = frame .reqUserInfo none := h
    refine .inl ⟨rfl, fun o ho => ?_⟩
    rcases hcases with ⟨-, hreg⟩ | ⟨hno, -⟩
    · rcases handlePlayerRegister_cases hreg with ⟨-, -, rfl⟩ | ⟨i, m, -, -, -, -, rfl⟩
      · exact absurd ho List.not_mem_nil
      · rcases announce_cases mp env t' p i m with ha | ha | ⟨master, q, -, -, -, ha⟩ <;>
          rw [ha] at ho
        · exact absurd ho List.not_mem_nil
        · exact ⟨_, _, _, .inl rfl, List.mem_singleton.mp ho⟩
        · rcases List.mem_pair.mp ho with rfl | rfl
          · exact ⟨_, _, _, .inl rfl, rfl⟩
          · exact ⟨_, _, _, .inr rfl, rfl⟩
    · exact absurd (isRequest_frame.mpr rfl) hno
  | stream =>
    obtain ⟨gs, rfl⟩ := h
    refine .inr (.inl ⟨rfl, ?_⟩)
    rcases hcases with ⟨hreq, -⟩ | ⟨-, -, hnone | ⟨payload, gs', hd, hgs, hos⟩ |
      ⟨payload, master, q, hd, -⟩⟩
    · cases isRequest_frame.mp hreq
    · exact .inl hnone
    · -- it decodes to the state it was packed from
      obtain ⟨past, stale, hbuffer⟩ := hrd
      have hpayload : payload.getD [] = gameStateBytes mp gs := (List.cons.inj hd).2.symm
      cases payload with
      | none =>
        exact absurd hpayload.symm (gameStateBytes_ne_nil hmp gs)
      | some b =>
        obtain rfl : b = gameStateBytes mp gs := hpayload
        rw [hbuffer, unpack_gameStateBytes_nil hmp past stale gs] at hgs
        cases hgs
        exact .inr hos
    · cases (List.cons.inj hd).1
  | streamPuppetInputs =>
    obtain ⟨pi, rfl⟩ := h
    refine .inr (.inr ⟨rfl, ?_⟩)
    rcases hcases with ⟨hreq, -⟩ | ⟨-, -, hnone | ⟨payload, gs', hd, -⟩ |
      ⟨payload, master, q, -, -, -, hos⟩⟩
    · cases isRequest_frame.mp hreq
    · exact .inl hnone
    · cases (List.cons.inj hd).1
    · exact .inr ⟨q, hos⟩
  | service => exact absurd h id

/-- What it puts under way: what it tells players, or the packet on its own channel. -/
theorem made_arrives (hmp : mp.Lawful) (h : Made mp ch d) {env : Env P}
    (hrd : ∃ past stale, env.reader = .buffer past stale) {t t' : Table P} {os : List (Output P)}
    (hs : (server mp).step t (.receive env p d) = some (t', os)) {q : P} {ch' : ChannelId}
    {d' : Bytes} (hd' : d' ∈ os.filterMap (arrives q ch')) :
    (ch' = .critical ∧ ∃ ty payload, (ty = .resUserInfo ∨ ty = .slaveConnected) ∧
        d' = frame ty payload) ∨ ch' = ch ∧ ch ≠ .critical ∧ d' = d := by
  obtain ⟨o, ho, harr⟩ := List.mem_filterMap.mp hd'
  rcases made_receive hmp h hrd hs with ⟨rfl, hall⟩ | ⟨rfl, rfl | rfl⟩ | ⟨rfl, rfl | ⟨q', rfl⟩⟩
  · obtain ⟨q', ty, payload, hty, rfl⟩ := hall o ho
    simp only [arrives] at harr
    split_ifs at harr with hch
    exact .inl ⟨hch.2.symm, ty, payload, hty, (Option.some.inj harr).symm⟩
  · exact absurd ho List.not_mem_nil
  · obtain rfl := List.mem_singleton.mp ho
    simp only [arrives] at harr
    split_ifs at harr with hch
    exact .inr ⟨hch.symm, by simp, (Option.some.inj harr).symm⟩
  · exact absurd ho List.not_mem_nil
  · obtain rfl := List.mem_singleton.mp ho
    simp only [arrives] at harr
    split_ifs at harr with hch
    exact .inr ⟨hch.2.symm, by simp, (Option.some.inj harr).symm⟩

/-- So what it puts under way may be forwarded. -/
theorem genuine_arrives (hmp : mp.Lawful) (h : Genuine mp tr s p ch d) {env : Env P}
    (hrd : ∃ past stale, env.reader = .buffer past stale) {t t' : Table P} {os : List (Output P)}
    (hs : (server mp).step t (.receive env p d) = some (t', os)) {q : P} {ch' : ChannelId}
    {d' : Bytes} (hd' : d' ∈ os.filterMap (arrives q ch')) : Forwarded mp tr ch' d' := by
  rcases made_arrives hmp (made_of_genuine h) hrd hs hd' with ⟨rfl, htells⟩ | ⟨rfl, hch, rfl⟩
  · exact htells
  · exact forwarded_of_genuine h hch

end Receive

/-- What the server sends on each channel. -/
def Carried (mp : Msgpack) : ChannelId → Bytes → Prop
  | .critical, d => ∃ ty payload, (ty = .resUserInfo ∨ ty = .slaveConnected) ∧ d = frame ty payload
  | .stream, d => ∃ gs, d = statePacket mp gs
  | .streamPuppetInputs, d => ∃ pi, d = inputPacket mp pi
  | .service, _ => False

theorem carried_of_forwarded (h : Forwarded mp tr ch d) : Carried mp ch d := by
  cases ch with
  | critical => exact h
  | stream =>
    obtain ⟨gs, hd, -⟩ := h
    exact ⟨gs, hd⟩
  | streamPuppetInputs =>
    obtain ⟨i, input, hd, -⟩ := h
    exact ⟨_, hd⟩
  | service => exact h

/-- A packet carries one input only. -/
theorem inputPacket_injective (hmp : mp.Lawful) {pi pi' : PlayerInput}
    (h : inputPacket mp pi = inputPacket mp pi') : pi = pi' := by
  have hbytes : playerInputBytes mp pi = playerInputBytes mp pi' := by
    simpa [inputPacket, frame] using h
  have hpi := unpack_playerInputBytes hmp ClientEnv.ideal.net.reader pi []
  rw [hbytes, unpack_playerInputBytes hmp] at hpi
  exact (Except.ok.inj hpi).symm

/-- A packet carries one state only. -/
theorem statePacket_injective (hmp : mp.Lawful) {gs gs' : GameState}
    (h : statePacket mp gs = statePacket mp gs') : gs = gs' := by
  have hbytes : gameStateBytes mp gs = gameStateBytes mp gs' := by
    simpa [statePacket, frame] using h
  have hgs := unpack_gameStateBytes_nil hmp (fun _ => 0) (fun _ => 0) gs
  rw [hbytes, unpack_gameStateBytes_nil hmp] at hgs
  exact (Except.ok.inj hgs).symm

/-- A client takes a packet for an input only where it is one. -/
theorem carried_input (hmp : mp.Lawful) (h : Carried mp ch d) {rd : Reader} {pi : PlayerInput}
    (hrec : received mp rd d = .playerInput pi) :
    ch = .streamPuppetInputs ∧ d = inputPacket mp pi := by
  obtain ⟨payload, hparse, hpi⟩ := received_playerInput hrec
  have hd := (parse_eq_ok hparse).1
  cases ch with
  | critical =>
    obtain ⟨ty, payload', hty, rfl⟩ := h
    have hbyte := (List.cons.inj hd).1
    rcases hty with rfl | rfl <;> cases hbyte
  | stream =>
    obtain ⟨gs, rfl⟩ := h
    cases (List.cons.inj hd).1
  | streamPuppetInputs =>
    obtain ⟨pi', rfl⟩ := h
    rw [parse_inputPacket hmp] at hparse
    obtain rfl : some (playerInputBytes mp pi') = payload := by simpa using hparse
    have hunpack := unpack_playerInputBytes hmp rd pi' []
    rw [List.append_nil] at hunpack
    cases hunpack.symm.trans hpi
    exact ⟨rfl, rfl⟩
  | service => exact absurd h id

/-- What a client prints is the state the packet was packed from. -/
theorem carried_printed (hmp : mp.Lawful) (h : Carried mp ch d) {env : ClientEnv}
    (hrd : ∃ past stale, env.net.reader = .buffer past stale) {c : Shared} {s : Printed}
    (hs : printGameState mp env c d = some s) : ch = .stream ∧ d = statePacket mp s.gameState := by
  unfold printGameState at hs
  split at hs
  · rename_i payload hparse
    have hd := (parse_eq_ok hparse).1
    cases ch with
    | critical =>
      obtain ⟨ty, payload', hty, rfl⟩ := h
      have hbyte := (List.cons.inj hd).1
      rcases hty with rfl | rfl <;> cases hbyte
    | stream =>
      obtain ⟨gs, rfl⟩ := h
      obtain ⟨past, stale, hbuffer⟩ := hrd
      rw [statePacket, parse_gameStateBytes hmp] at hparse
      obtain rfl : some (gameStateBytes mp gs) = payload := by simpa using hparse
      rw [hbuffer, unpack_gameStateBytes_nil hmp past stale gs] at hs
      cases hs
      exact ⟨rfl, rfl⟩
    | streamPuppetInputs =>
      obtain ⟨pi, rfl⟩ := h
      cases (List.cons.inj hd).1
    | service => exact absurd h id
  · cases hs

/-- **All a packet does to the inputs**: it creates them, or replaces one. -/
theorem receive_holds {env : ClientEnv} {c c' : Shared} {inputs : Fin othersCount → PlayerInput}
    (h : handleReceive mp env c d = some c') (hin : c'.lastPlayerInputs = some inputs) :
    c.lastPlayerInputs = some inputs ∨ inputs = newInputs ∨
      ∃ pi k old, received mp env.net.reader d = .playerInput pi ∧ slaveIndex pi.id = some k ∧
        c.lastPlayerInputs = some old ∧
        inputs = Function.update old k { old k with x := pi.x, y := pi.y } := by
  have hchanges := changes_receive h
  cases hrec : received mp env.net.reader d with
  | userInfo ui =>
    rw [hrec] at hchanges
    dsimp only [Changes] at hchanges
    split_ifs at hchanges with hmaster
    · rw [hchanges] at hin
      dsimp only [initialised] at hin
      cases hold : c.lastPlayerInputs with
      | some old =>
        rw [hold] at hin
        exact .inl hin
      | none =>
        rw [hold, Option.none_or] at hin
        split_ifs at hin
        exact .inr (.inl (Option.some.inj hin).symm)
    · rw [hchanges] at hin
      exact .inl hin
  | slaveConnected ui =>
    rw [handleReceive_slaveConnected hrec] at h
    cases h
    exact .inl ((handleOnSlaveConnected_frame ui c).2.symm.trans hin)
  | playerInput pi =>
    rw [hrec] at hchanges
    dsimp only [Changes] at hchanges
    split at hchanges
    · rename_i k hk hmaster
      obtain ⟨old, hold, rfl⟩ := hchanges
      exact .inr (.inr ⟨pi, k, old, rfl, hk, hold, (Option.some.inj hin).symm⟩)
    · exact .inl (hchanges ▸ hin)
  | ignored =>
    rw [hrec] at hchanges
    obtain rfl : c' = c := hchanges
    exact .inl hin

/-- A forwarded packet that is a player input comes from a slave. -/
theorem forwarded_input (hmp : mp.Lawful) (h : Forwarded mp tr ch d) {rd : Reader}
    {pi : PlayerInput} (hrec : received mp rd d = .playerInput pi) :
    ∃ (i : Slot) (input : UserInput), pi = ⟨UInt32.ofNat i, input.x, input.y⟩ ∧
      ∃ x ∈ tr, ∃ p, SendsInput mp p i input x := by
  obtain ⟨rfl, hd⟩ := carried_input hmp (carried_of_forwarded h) hrec
  obtain ⟨i, input, rfl, hsent⟩ := h
  exact ⟨i, input, (inputPacket_injective hmp hd).symm, hsent⟩

/-- **What a forwarded packet leaves a master holding.** -/
theorem forwarded_holds (hmp : mp.Lawful) (hd : Forwarded mp tr ch d) {env : ClientEnv}
    {c c' : Shared} (h : handleReceive mp env c d = some c')
    (hold : ∀ inputs, c.lastPlayerInputs = some inputs → ∀ k, Held mp tr k (inputs k)) :
    ∀ inputs, c'.lastPlayerInputs = some inputs → ∀ k, Held mp tr k (inputs k) := by
  intro inputs hin k
  rcases receive_holds h hin with hsame | rfl | ⟨pi, j, old, hrec, hj, hinputs, rfl⟩
  · exact hold inputs hsame k
  · exact .inl ⟨rfl, rfl⟩
  · obtain ⟨i, input, rfl, hsent⟩ := forwarded_input hmp hd hrec
    obtain rfl := slaveIndex_slot.mp hj
    by_cases hkj : k = j
    · subst hkj
      rw [Function.update_self]
      exact .inr hsent
    · rw [Function.update_of_ne hkj]
      exact hold old hinputs k

/-! ## The invariant -/

/-- **Every packet under way and every input held comes from the right player.** -/
structure Honest (mp : Msgpack) (tr : List (ClosedMove P)) (w : Closed P) (r : ServerRoster P) :
    Prop where
  informed : Informed mp w.net r
  sent : ∀ p ch, ∀ d ∈ w.sent p ch, Genuine mp tr r.seat p ch d
  flight : ∀ p ch, ∀ d ∈ w.net.flight p ch, Forwarded mp tr ch d
  inputs : ∀ p inputs, (w.net.client p).lastPlayerInputs = some inputs →
    ∀ k, Held mp tr k (inputs k)

variable {w w' : Closed P} {r : ServerRoster P} {e : ClosedEvent P} {out : List (ClosedOutput P)}

theorem honest_init : Honest mp [] (Closed.init : Closed P) Roster.empty where
  informed := informed_init
  sent p ch d hd := absurd hd List.not_mem_nil
  flight p ch d hd := absurd hd List.not_mem_nil
  inputs p inputs h := absurd h (by simp [Closed.init, Network.init, freshClient])

variable [DecidableEq P]

/-- What is left to show for a step: its new packets are genuine or forwarded, and so are the inputs
it leaves a master holding. -/
theorem honest_of (hmp : mp.Lawful) (h : Honest mp tr w r)
    (hs : (closed mp).step w e = some (w', out))
    (hsent : ∀ p ch, ∀ d ∈ w'.sent p ch, e ≠ .disconnect p ∧
      (d ∈ w.sent p ch ∨ Genuine mp (tr ++ [⟨w, e, out, w'⟩]) r.seat p ch d))
    (hflight : ∀ p ch, ∀ d ∈ w'.net.flight p ch, d ∈ w.net.flight p ch ∨ Forwarded mp tr ch d)
    (hinputs : ∀ p inputs, (w'.net.client p).lastPlayerInputs = some inputs →
      ∀ k, Held mp tr k (inputs k)) : ∃ r', Honest mp (tr ++ [⟨w, e, out, w'⟩]) w' r' := by
  obtain ⟨r', hinformed, hkeep⟩ := closed_informed hmp h.informed hs
  refine ⟨r', hinformed, fun p ch d hd => ?_, fun p ch d hd => ?_,
    fun p inputs hin k => held_snoc (hinputs p inputs hin k)⟩
  · obtain ⟨hstay, hcases⟩ := hsent p ch d hd
    refine genuine_seats (s := r.seat) ?_ fun i m => hkeep i p m hstay
    rcases hcases with hold | hnew
    · exact genuine_snoc (h.sent p ch d hold) hstay
    · exact hnew
  · refine forwarded_snoc ?_
    rcases hflight p ch d hd with hold | hnew
    · exact h.flight p ch d hold
    · exact hnew

/-- Clearing one peer's channels leaves the others'. -/
theorem mem_cleared {f : P → ChannelId → List Bytes} {p q : P} {ch : ChannelId} {d : Bytes}
    (hd : d ∈ Function.update f p (fun _ => []) q ch) : q ≠ p ∧ d ∈ f q ch := by
  by_cases hqp : q = p
  · subst hqp
    simp at hd
  · rw [Function.update_of_ne hqp] at hd
    exact ⟨hqp, hd⟩

/-- Taking a packet out of one channel leaves the others. -/
theorem mem_removed {f : P → ChannelId → List Bytes} {p q : P} {ch ch' : ChannelId} {i : Nat}
    {d : Bytes} (hd : d ∈ Function.update f p (remove ch i (f p)) q ch') : d ∈ f q ch' := by
  by_cases hqp : q = p
  · subst hqp
    rw [Function.update_self] at hd
    exact mem_remove hd
  · rwa [Function.update_of_ne hqp] at hd

/-- What a client sends goes to the server where it is connected. -/
theorem mem_launchFrom {p q : P} {o : List ClientOutput} {ch : ChannelId} {d : Bytes}
    (hd : d ∈ launchFrom w p o q ch) : d ∈ w.sent q ch ∨
      q = p ∧ w.net.connected p = true ∧ d ∈ o.filterMap (leaves ch) := by
  unfold launchFrom at hd
  split_ifs at hd with hconn
  · by_cases hqp : q = p
    · subst hqp
      rw [Function.update_self] at hd
      exact (List.mem_append.mp hd).imp_right fun hnew => ⟨rfl, hconn, hnew⟩
    · rw [Function.update_of_ne hqp] at hd
      exact .inl hd
  · exact .inl hd

theorem mem_launchAll {connected : P → Bool} {os : List (Output P)}
    {f : P → ChannelId → List Bytes} {q : P} {ch : ChannelId} {d : Bytes}
    (hd : d ∈ launchAll connected os f q ch) :
    d ∈ f q ch ∨ d ∈ os.filterMap (arrives q ch) := by
  dsimp only [launchAll] at hd
  split_ifs at hd
  · exact List.mem_append.mp hd
  · exact .inl hd

theorem honest_connect (hmp : mp.Lawful) (h : Honest mp tr w r) {p : P}
    (hs : (closed mp).step w (.connect p) = some (w', out)) :
    ∃ r', Honest mp (tr ++ [⟨w, .connect p, out, w'⟩]) w' r' := by
  obtain ⟨hnet, hsent, -⟩ := closed_connect hs
  obtain ⟨-, hw⟩ := network_connect hnet
  refine honest_of hmp h hs (fun q ch d hd => ?_) (fun q ch d hd => ?_) fun q inputs hin k => ?_
  · rw [hsent] at hd
    exact ⟨by simp, .inl (mem_cleared hd).2⟩
  · rw [hw] at hd
    exact .inl (mem_cleared hd).2
  · rw [hw] at hin
    by_cases hqp : q = p
    · subst hqp
      simp [freshClient] at hin
    · simp only [Function.update_of_ne hqp] at hin
      exact h.inputs q inputs hin k

theorem honest_request (hmp : mp.Lawful) (h : Honest mp tr w r) {p : P} {env : ClientEnv}
    (hs : (closed mp).step w (.request p env) = some (w', out)) :
    ∃ r', Honest mp (tr ++ [⟨w, .request p env, out, w'⟩]) w' r' := by
  obtain ⟨hnet, hsent, -⟩ := closed_request hs
  refine honest_of hmp h hs (fun q ch d hd => ⟨by simp, ?_⟩) (fun q ch d hd => .inl (hnet ▸ hd))
    fun q inputs hin => h.inputs q inputs (hnet ▸ hin)
  rw [hsent] at hd
  refine (mem_launchFrom hd).imp_right ?_
  rintro ⟨rfl, -, hnew⟩
  rcases request_sends env ch with hnone | ⟨rfl, hone⟩
  · rw [hnone] at hnew
    exact absurd hnew List.not_mem_nil
  · rw [hone] at hnew
    exact List.mem_singleton.mp hnew

theorem honest_arrive (hmp : mp.Lawful) (h : Honest mp tr w r) {p : P} {ch : ChannelId} {i : Nat}
    {env : Env P} (hrd : ∃ past stale, env.reader = .buffer past stale)
    (hs : (closed mp).step w (.arrive p ch i env) = some (w', out)) :
    ∃ r', Honest mp (tr ++ [⟨w, .arrive p ch i env, out, w'⟩]) w' r' := by
  obtain ⟨-, d, t', os, hd, hserver, -, hw, hsent, -⟩ := closed_arrive hs
  have hgenuine := h.sent p ch d (List.mem_of_getElem? hd)
  refine honest_of hmp h hs (fun q ch' d' hd' => ⟨by simp, .inl ?_⟩) (fun q ch' d' hd' => ?_)
    fun q inputs hin => h.inputs q inputs (by rw [hw] at hin; exact hin)
  · rw [hsent] at hd'
    exact mem_removed hd'
  · rw [hw] at hd'
    exact (mem_launchAll hd').imp_right fun hnew => genuine_arrives hmp hgenuine hrd hserver hnew

theorem honest_lose (hmp : mp.Lawful) (h : Honest mp tr w r) {p : P} {ch : ChannelId} {i : Nat}
    (hs : (closed mp).step w (.lose p ch i) = some (w', out)) :
    ∃ r', Honest mp (tr ++ [⟨w, .lose p ch i, out, w'⟩]) w' r' := by
  obtain ⟨hw, -⟩ := closed_lose hs
  refine honest_of hmp h hs (fun q ch' d hd => ⟨by simp, .inl ?_⟩)
    (fun q ch' d hd => .inl (by rw [hw] at hd; exact hd))
    fun q inputs hin => h.inputs q inputs (by rw [hw] at hin; exact hin)
  rw [hw] at hd
  exact mem_removed hd

theorem honest_disconnect (hmp : mp.Lawful) (h : Honest mp tr w r) {p : P}
    (hs : (closed mp).step w (.disconnect p) = some (w', out)) :
    ∃ r', Honest mp (tr ++ [⟨w, .disconnect p, out, w'⟩]) w' r' := by
  obtain ⟨⟨o, hnet⟩, hsent, -⟩ := closed_disconnect hs
  obtain ⟨t', os, -, hw⟩ := network_disconnect hnet
  refine honest_of hmp h hs (fun q ch d hd => ?_) (fun q ch d hd => .inl ?_)
    fun q inputs hin => h.inputs q inputs (by rw [hw] at hin; exact hin)
  · rw [hsent] at hd
    obtain ⟨hqp, hold⟩ := mem_cleared hd
    exact ⟨by simpa using Ne.symm hqp, .inl hold⟩
  · rw [hw] at hd
    exact (mem_cleared hd).2

theorem honest_deliver (hmp : mp.Lawful) (h : Honest mp tr w r) {p : P} {ch : ChannelId} {i : Nat}
    {env : ClientEnv} (hs : (closed mp).step w (.deliver p ch i env) = some (w', out)) :
    ∃ r', Honest mp (tr ++ [⟨w, .deliver p ch i env, out, w'⟩]) w' r' := by
  obtain ⟨⟨o, hnet⟩, hsent, -⟩ := closed_deliver hs
  obtain ⟨-, d, s, hd, hreceive, hw⟩ := network_deliver hnet
  refine honest_of hmp h hs (fun q ch' d' hd' => ⟨by simp, .inl (hsent ▸ hd')⟩)
    (fun q ch' d' hd' => .inl ?_) fun q inputs hin => ?_
  · rw [hw] at hd'
    exact mem_removed hd'
  · rw [hw] at hin
    by_cases hqp : q = p
    · subst hqp
      simp only [Function.update_self] at hin
      exact forwarded_holds hmp (h.flight q ch d (List.mem_of_getElem? hd)) hreceive (h.inputs q)
        inputs hin
    · simp only [Function.update_of_ne hqp] at hin
      exact h.inputs q inputs hin

theorem honest_drop (hmp : mp.Lawful) (h : Honest mp tr w r) {p : P} {ch : ChannelId} {i : Nat}
    (hs : (closed mp).step w (.drop p ch i) = some (w', out)) :
    ∃ r', Honest mp (tr ++ [⟨w, .drop p ch i, out, w'⟩]) w' r' := by
  obtain ⟨⟨o, hnet⟩, hsent, -⟩ := closed_drop hs
  obtain ⟨-, hw⟩ := network_drop hnet
  refine honest_of hmp h hs (fun q ch' d hd => ⟨by simp, .inl (hsent ▸ hd)⟩)
    (fun q ch' d hd => .inl ?_) fun q inputs hin => h.inputs q inputs (by rw [hw] at hin; exact hin)
  rw [hw] at hd
  exact mem_removed hd

omit [DecidableEq P] in
/-- **What a call sends is genuine**: a connected client is who it takes itself for. -/
theorem tick_genuine (h : Honest mp tr w r) {p : P} {env : ClientEnv} {c : TickCall} {s : Shared}
    {o : List ClientOutput} (htick : tryExecuteTick mp env (w.net.client p) c = some (s, o))
    (hconn : w.net.connected p = true) {ch : ChannelId} {d : Bytes}
    (hd : d ∈ o.filterMap (leaves ch)) :
    Genuine mp (tr ++ [⟨w, .tick p env c, o.map (.client p), w'⟩]) r.seat p ch d := by
  obtain ⟨o', ho', hleaves⟩ := List.mem_filterMap.mp hd
  have hmem : ClosedOutput.client p o' ∈ o.map (ClosedOutput.client p) :=
    List.mem_map_of_mem ho'
  rcases tick_sends htick ch with hnone | ⟨rfl, ui, gs, hui, hmaster, hstate⟩ |
    ⟨rfl, ui, hui, hslave, hinput⟩
  · rw [hnone] at hd
    exact absurd hd List.not_mem_nil
  · rw [hstate] at hd
    obtain rfl := List.mem_singleton.mp hd
    obtain ⟨-, hseat⟩ := seatedAs_master (h.informed.info p ui hconn hui) hmaster
    exact ⟨gs, rfl, hseat, since_snoc.mpr (.inl ⟨(sim_seat h.informed.sim).mp hseat, env, c, o',
      rfl, hmem, hleaves⟩)⟩
  · rw [hinput] at hd
    obtain rfl := List.mem_singleton.mp hd
    obtain ⟨i, hseat, hid⟩ := h.informed.info p ui hconn hui
    rw [hslave] at hseat
    rw [hid] at hleaves ⊢
    exact ⟨i, c.userInput, rfl, hseat, since_snoc.mpr (.inl ⟨(sim_seat h.informed.sim).mp hseat,
      env, c, o', rfl, rfl, hmem, hleaves⟩)⟩

theorem honest_tick (hmp : mp.Lawful) (h : Honest mp tr w r) {p : P} {env : ClientEnv}
    {c : TickCall} (hs : (closed mp).step w (.tick p env c) = some (w', out)) :
    ∃ r', Honest mp (tr ++ [⟨w, .tick p env c, out, w'⟩]) w' r' := by
  obtain ⟨o, s, hnet, htick, hsent, rfl⟩ := closed_tick hs
  obtain ⟨s', htick', hw⟩ := network_tick hnet
  cases htick.symm.trans htick'
  refine honest_of hmp h hs (fun q ch d hd => ⟨by simp, ?_⟩)
    (fun q ch d hd => .inl (by rw [hw] at hd; exact hd)) fun q inputs hin => ?_
  · rw [hsent] at hd
    refine (mem_launchFrom hd).imp_right ?_
    rintro ⟨rfl, hconn, hnew⟩
    exact tick_genuine h htick hconn hnew
  · rw [hw] at hin
    by_cases hqp : q = p
    · subst hqp
      simp only [Function.update_self, (tick_role htick).2.1] at hin
      exact h.inputs q inputs hin
    · simp only [Function.update_of_ne hqp] at hin
      exact h.inputs q inputs hin

/-- **Every event keeps it so.** -/
theorem honest_step (hmp : mp.Lawful) (h : Honest mp tr w r)
    (hs : (closed mp).step w e = some (w', out)) (hreads : ReadsBuffers ⟨w, e, out, w'⟩) :
    ∃ r', Honest mp (tr ++ [⟨w, e, out, w'⟩]) w' r' := by
  cases e with
  | connect p => exact honest_connect hmp h hs
  | request p env => exact honest_request hmp h hs
  | arrive p ch i env => exact honest_arrive hmp h (hreads.1 p ch i env rfl) hs
  | lose p ch i => exact honest_lose hmp h hs
  | disconnect p => exact honest_disconnect hmp h hs
  | deliver p ch i env => exact honest_deliver hmp h hs
  | drop p ch i => exact honest_drop hmp h hs
  | tick p env c => exact honest_tick hmp h hs

/-- **Over every run.** -/
theorem honest_run (hmp : mp.Lawful) (hr : Run (closed mp) .init tr w)
    (hreads : ∀ x ∈ tr, ReadsBuffers x) : ∃ r, Honest mp tr w r := by
  refine hr.trace (I := fun tr w => (∀ x ∈ tr, ReadsBuffers x) → ∃ r, Honest mp tr w r) ?_
    (fun _ => ⟨_, honest_init⟩) hreads
  intro tr w e w' out ih hs hreads
  obtain ⟨r, h⟩ := ih fun x hx => hreads x (List.mem_append_left _ hx)
  exact honest_step hmp h hs (hreads _ (List.mem_append_right _ List.mem_cons_self))

/-! ## Whose states are shown -/

omit [DecidableEq P] in
/-- What a client prints of a forwarded packet has been sent by a master. -/
theorem forwarded_printed (hmp : mp.Lawful) {ch : ChannelId} {d : Bytes} (h : Forwarded mp tr ch d)
    {env : ClientEnv} (hrd : ∃ past stale, env.net.reader = .buffer past stale) {c : Shared}
    {s : Printed} (hs : printGameState mp env c d = some s) :
    ch = .stream ∧ d = statePacket mp s.gameState ∧ ∃ y ∈ tr, ∃ p, SendsState p d y := by
  obtain ⟨rfl, hd⟩ := carried_printed hmp (carried_of_forwarded h) hrd hs
  obtain ⟨gs, -, hsent⟩ := h
  exact ⟨rfl, hd, hsent⟩

/-- **Only the active master is obeyed.** In every run of the closed system from the start (where a
new connection belongs to a client that has just started): a game state the server broadcasts is one
the client of the active master sent as the active master, and that master has been connected since;
and a client prints nothing but states a client has sent as the active master. -/
theorem master_obeyed (hmp : mp.Lawful) (hr : Run (closed mp) .init tr w)
    (hreads : ∀ x ∈ tr, ReadsBuffers x) :
    (∀ t₁ x t₂, tr = t₁ ++ x :: t₂ → ∀ ch d reliable forced,
      .server (.broadcast ch d reliable forced) ∈ x.out →
        ∃ p i env gs, x.event = .arrive p .stream i env ∧ d = statePacket mp gs ∧
          Plays x.pre.net.table masterSlot p true ∧ Since (SendsState p d) (Quits p) t₁) ∧
    ∀ t₁ x t₂, tr = t₁ ++ x :: t₂ → ∀ q s, .printed q s ∈ x.out →
      ∃ y ∈ t₁, ∃ p, SendsState p (statePacket mp s.gameState) y := by
  have hstep : ∀ t₁ x t₂, tr = t₁ ++ x :: t₂ →
      (∃ r, Honest mp t₁ x.pre r) ∧ (closed mp).step x.pre x.event = some (x.post, x.out) ∧
        ReadsBuffers x := by
    rintro t₁ x t₂ rfl
    obtain ⟨hr₁, hs, -⟩ := hr.split
    exact ⟨honest_run hmp hr₁ fun y hy => hreads y (List.mem_append_left _ hy), hs,
      hreads x (List.mem_append_right _ List.mem_cons_self)⟩
  constructor
  · intro t₁ x t₂ htr ch d reliable forced ho
    obtain ⟨⟨r, h⟩, hs, hreads⟩ := hstep t₁ x t₂ htr
    obtain ⟨p, ch', i, env, d', t', os, he, hd', hserver, ho⟩ := closed_server_output hs ho
    have hgenuine := h.sent p ch' d' (List.mem_of_getElem? hd')
    rcases made_receive hmp (made_of_genuine hgenuine) (hreads.1 p ch' i env he) hserver with
      ⟨-, hall⟩ | ⟨rfl, rfl | rfl⟩ | ⟨-, rfl | ⟨q, rfl⟩⟩
    · obtain ⟨q, ty, payload, -, heq⟩ := hall _ ho
      cases heq
    · exact absurd ho List.not_mem_nil
    · cases List.mem_singleton.mp ho
      obtain ⟨gs, hd, hseat, hsince⟩ := hgenuine
      exact ⟨p, i, env, gs, he, hd, (sim_seat h.informed.sim).mp hseat, hsince⟩
    · exact absurd ho List.not_mem_nil
    · cases List.mem_singleton.mp ho
  · intro t₁ x t₂ htr q s hprinted
    obtain ⟨⟨r, h⟩, hs, hreads⟩ := hstep t₁ x t₂ htr
    obtain ⟨ch, i, env, d, he, hd, hprint⟩ := closed_printed_output hs hprinted
    obtain ⟨-, rfl, hsent⟩ := forwarded_printed hmp (h.flight q ch d (List.mem_of_getElem? hd))
      (hreads.2 q ch i env he) hprint
    exact hsent

/-- A master and a slave: both register, the slave moves, the master moves, and the slave is shown
the world. -/
def session : List (ClosedEvent Nat) :=
  [.connect 1, .request 1 .ideal, .arrive 1 .critical 0 .ideal, .deliver 1 .critical 0 .ideal,
    .connect 2, .request 2 .ideal, .arrive 2 .critical 0 .ideal, .deliver 2 .critical 0 .ideal,
    .deliver 1 .critical 0 .ideal, .tick 2 .ideal ⟨0, ⟨1, 0⟩⟩,
    .arrive 2 .streamPuppetInputs 0 .ideal, .deliver 1 .streamPuppetInputs 0 .ideal,
    .tick 1 .ideal ⟨0, ⟨0, -1⟩⟩, .arrive 1 .stream 0 .ideal, .deliver 2 .stream 0 .ideal]

/-- Ideal decoders read the buffers they get. -/
theorem session_readsBuffers {tr : List (ClosedMove Nat)} (hev : tr.map Step.event = session) :
    ∀ x ∈ tr, ReadsBuffers x := by
  intro x hx
  have hmem := List.mem_map_of_mem (f := Step.event) hx
  rw [hev] at hmem
  constructor
  · intro p ch i env he
    rw [he] at hmem
    simp only [session, List.mem_cons, ClosedEvent.arrive.injEq, List.not_mem_nil, reduceCtorEq,
      false_or, or_false] at hmem
    rcases hmem with ⟨-, -, -, rfl⟩ | ⟨-, -, -, rfl⟩ | ⟨-, -, -, rfl⟩ | ⟨-, -, -, rfl⟩ <;>
      exact ⟨_, _, rfl⟩
  · intro p ch i env he
    rw [he] at hmem
    simp only [session, List.mem_cons, ClosedEvent.deliver.injEq, List.not_mem_nil, reduceCtorEq,
      false_or, or_false] at hmem
    rcases hmem with ⟨-, -, -, rfl⟩ | ⟨-, -, -, rfl⟩ | ⟨-, -, -, rfl⟩ | ⟨-, -, -, rfl⟩ |
      ⟨-, -, -, rfl⟩ <;> exact ⟨_, _, rfl⟩

/-- What a client has printed. -/
def printedBy (p : P) : ClosedOutput P → Option GameState
  | .server _ => none
  | .client _ _ => none
  | .printed q s => if q = p then some s.gameState else none

theorem mem_printedBy {p : P} {os : List (ClosedOutput P)} {gs : GameState}
    (h : gs ∈ os.filterMap (printedBy p)) :
    ∃ s : Printed, s.gameState = gs ∧ .printed p s ∈ os := by
  obtain ⟨o, ho, hgs⟩ := List.mem_filterMap.mp h
  cases o with
  | server o => cases hgs
  | client q o => cases hgs
  | printed q s =>
    simp only [printedBy] at hgs
    split_ifs at hgs with hq
    exact ⟨s, Option.some.inj hgs, hq ▸ ho⟩

/-- The slave is shown a state in which both have moved; it is the master's. -/
theorem master_obeyed_session : ∃ tr, ∃ w : Closed Nat, Run (closed reference) .init tr w ∧
    ∃ y ∈ tr, ∃ p, SendsState p (statePacket reference
      ⟨0, ⟨true, 0, -1⟩, ⟨true, 1, 0⟩, .zero, .zero⟩) y := by
  obtain ⟨tr, w, hr, hev, hQ⟩ := run_of_exec (closed reference) .init session
    (fun tr _ => tr.any fun x => decide
      (⟨0, ⟨true, 0, -1⟩, ⟨true, 1, 0⟩, .zero, .zero⟩ ∈ x.out.filterMap (printedBy 2)))
    (by decide +kernel)
  obtain ⟨x, hx, hshown⟩ := List.any_eq_true.mp hQ
  obtain ⟨s, hs, hprinted⟩ := mem_printedBy (of_decide_eq_true hshown)
  obtain ⟨t₁, t₂, htr⟩ := List.append_of_mem hx
  obtain ⟨y, hy, p, hsent⟩ := (master_obeyed reference_lawful hr
    (session_readsBuffers hev)).2 t₁ x t₂ htr 2 s hprinted
  exact ⟨tr, w, hr, y, htr ▸ List.mem_append_left _ hy, p, hs ▸ hsent⟩

/-- **Slaves are heard, and nobody else.** In every run of the closed system from the start (where a
new connection belongs to a client that has just started): what a master holds as the input of slave
`k` is zero, or what has been typed to a client that was then connected as the slave in the slot of
slave `k`. -/
theorem slave_heard (hmp : mp.Lawful) (hr : Run (closed mp) .init tr w)
    (hreads : ∀ x ∈ tr, ReadsBuffers x) {p : P} {inputs : Fin othersCount → PlayerInput}
    (hin : (w.net.client p).lastPlayerInputs = some inputs) (k : Fin othersCount) :
    (inputs k).x = 0 ∧ (inputs k).y = 0 ∨
      ∃ x ∈ tr, ∃ q, SendsInput mp q (slaveSlot k) ⟨(inputs k).x, (inputs k).y⟩ x := by
  obtain ⟨r, h⟩ := honest_run hmp hr hreads
  exact h.inputs p inputs hin k

/-- The master holds what the slave has typed. -/
theorem slave_heard_session : ∃ tr, ∃ w : Closed Nat, Run (closed reference) .init tr w ∧
    ∃ x ∈ tr, ∃ q, SendsInput reference q (slaveSlot 0) ⟨1, 0⟩ x := by
  obtain ⟨tr, w, hr, hev, hQ⟩ := run_of_exec (closed reference) .init session
    (fun _ w => decide ((w.net.client 1).lastPlayerInputs.map (· 0) = some ⟨1, 1, 0⟩))
    (by decide +kernel)
  obtain ⟨inputs, hin, hinput⟩ := Option.map_eq_some_iff.mp (of_decide_eq_true hQ)
  rcases slave_heard reference_lawful hr (session_readsBuffers hev) hin 0 with ⟨hx, -⟩ | hsent
  · rw [hinput] at hx
    cases hx
  · rw [hinput] at hsent
    exact ⟨tr, w, hr, hsent⟩

end MasterRelay.Game
