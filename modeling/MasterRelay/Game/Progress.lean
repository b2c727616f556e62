import MasterRelay.Game.Authority
import MasterRelay.Server.Faults

/-!
# No client can stop the game

The server's decoder of game states reads through keys it has not checked (`Protocol/KeyReads.lean`,
`Server/Faults.lean`), and a client faults where it is a master without `LAST_PLAYER_INPUTS`.
Neither happens while the peers run the client and handle each packet, and each call of
`try_execute_tick`, in one go: where memory is there and the decoders read the buffers they are
given (`Provided`), whatever the network lets happen next is handled to its end. Thread by thread a
new master can still be caught without its inputs (`Client/Startup.lean`).

* `Ready`: a master has its inputs.
* `possible_of_step`: what the network does not let happen does not happen.
* **`nothing_faults`**: everything else does.
-/

namespace MasterRelay.Game

open MasterRelay.Client
open MasterRelay.Lib.MsgPack
open MasterRelay.Lib.Runs
open MasterRelay.Protocol
open MasterRelay.Server

variable {P : Type}

/-- **What the network lets happen**: a peer connects once, a packet that is under way arrives, the
critical ones in order, and the others may get lost. -/
def Possible (w : Closed P) : ClosedEvent P → Prop
  | .connect p => w.net.connected p = false
  | .request _ _ => True
  | .arrive p ch i _ =>
    w.net.connected p = true ∧ (ch = .critical → i = 0) ∧ i < (w.sent p ch).length
  | .lose _ ch _ => ch ≠ .critical
  | .disconnect p => w.net.connected p = true
  | .deliver p ch i _ => (ch = .critical → i = 0) ∧ i < (w.net.flight p ch).length
  | .drop _ ch _ => ch ≠ .critical
  | .tick _ _ _ => True

/-- Memory is there for what is not checked, and the decoders read the buffers they get. -/
def Provided : ClosedEvent P → Prop
  | .arrive _ _ _ env => env.Allocates ∧ ∃ past stale, env.reader = .buffer past stale
  | .deliver _ _ _ env => env.Mallocs ∧ env.mallocPlayerInputs = true ∧
      ∃ past stale, env.net.reader = .buffer past stale
  | _ => True

theorem readsBuffers_of_provided {x : ClosedMove P} (h : Provided x.event) : ReadsBuffers x := by
  constructor
  · intro p ch i env he
    rw [he] at h
    exact h.2
  · intro p ch i env he
    rw [he] at h
    exact h.2.2

/-! ## A master has its inputs -/

/-- A master has its inputs. -/
def Ready (s : Shared) : Prop := s.myUserInfo.any UserInfo.isMaster = true →
  s.lastPlayerInputs ≠ none

variable {mp : Msgpack} {s s' : Shared}

theorem ready_fresh : Ready freshClient := fun h => absurd h (by simp [freshClient])

theorem ready_same (h : Ready s) (hinfo : s'.myUserInfo = s.myUserInfo)
    (hinputs : s.lastPlayerInputs ≠ none → s'.lastPlayerInputs ≠ none) : Ready s' :=
  fun hmaster => hinputs (h (hinfo ▸ hmaster))

/-- A packet makes a master only with its inputs. -/
theorem ready_receive {env : ClientEnv} {d : Bytes} (hmalloc : env.mallocPlayerInputs = true)
    (h : Ready s) (hs : handleReceive mp env s d = some s') : Ready s' := by
  have hchanges := changes_receive hs
  cases hrec : received mp env.net.reader d with
  | userInfo ui =>
    rw [hrec] at hchanges
    dsimp only [Changes] at hchanges
    split_ifs at hchanges with hmaster
    · intro _
      rw [hchanges, initialised, hmalloc, if_pos rfl]
      cases s.lastPlayerInputs <;> simp
    · rw [hchanges]
      exact fun hany => absurd hany hmaster
  | slaveConnected ui =>
    rw [handleReceive_slaveConnected hrec] at hs
    cases hs
    obtain ⟨hinfo, hinputs⟩ := handleOnSlaveConnected_frame ui s
    exact ready_same h hinfo fun hne => hinputs ▸ hne
  | playerInput pi =>
    rw [hrec] at hchanges
    dsimp only [Changes] at hchanges
    split at hchanges
    · obtain ⟨inputs, -, rfl⟩ := hchanges
      exact fun _ => by simp
    · exact hchanges ▸ h
  | ignored =>
    rw [hrec] at hchanges
    exact hchanges.symm ▸ h

theorem ready_tick {env : ClientEnv} {c : TickCall} {o : List ClientOutput} (h : Ready s)
    (hs : tryExecuteTick mp env s c = some (s', o)) : Ready s' := by
  rcases tryExecuteTick_cases hs with ⟨rfl, -⟩ | ⟨ui, gs, inputs, -, -, -, -, rfl, -⟩ |
    ⟨ui, sent, -, -, -, rfl, -⟩
  · exact h
  · exact h
  · exact h

/-- A call of a client that is ready returns. -/
theorem tick_returns (h : Ready s) (env : ClientEnv) (c : TickCall) :
    ∃ r, tryExecuteTick mp env s c = some r := by
  unfold tryExecuteTick
  cases hui : s.myUserInfo with
  | none => exact ⟨_, rfl⟩
  | some ui =>
    dsimp only
    split_ifs with hmaster
    · cases hgs : s.currentGameState with
      | none => exact ⟨_, rfl⟩
      | some gs =>
        have hany : s.myUserInfo.any UserInfo.isMaster = true := by
          rw [hui]
          exact hmaster
        obtain ⟨inputs, hin⟩ := Option.ne_none_iff_exists'.mp (h hany)
        rw [hin]
        exact ⟨_, rfl⟩
    · unfold handleCmdSlaveTick
      rw [hui]
      dsimp only
      split
      · exact ⟨_, rfl⟩
      · split <;> exact ⟨_, rfl⟩

variable [DecidableEq P] {w w' : Closed P} {out : List (ClosedOutput P)} {e : ClosedEvent P}
  {tr : List (ClosedMove P)} {r : ServerRoster P}

theorem ready_step (hs : (closed mp).step w e = some (w', out)) (he : Provided e)
    (h : ∀ p, Ready (w.net.client p)) (p : P) : Ready (w'.net.client p) := by
  have hupdate : ∀ {q s}, Ready s → Ready (Function.update w.net.client q s p) := by
    intro q s hready
    by_cases hp : p = q
    · subst hp
      rwa [Function.update_self]
    · rw [Function.update_of_ne hp]
      exact h p
  cases e with
  | connect q =>
    rw [(network_connect (closed_connect hs).1).2]
    exact hupdate ready_fresh
  | request q env =>
    rw [(closed_request hs).1]
    exact h p
  | arrive q ch i env =>
    obtain ⟨-, d, t', os, -, -, -, hnet, -⟩ := closed_arrive hs
    rw [hnet]
    exact h p
  | lose q ch i =>
    obtain ⟨rfl, -⟩ := closed_lose hs
    exact h p
  | disconnect q =>
    obtain ⟨⟨o, hnet⟩, -⟩ := closed_disconnect hs
    obtain ⟨t', os, -, hw⟩ := network_disconnect hnet
    rw [hw]
    exact h p
  | deliver q ch i env =>
    obtain ⟨⟨o, hnet⟩, -⟩ := closed_deliver hs
    obtain ⟨-, d, s, -, hreceive, hw⟩ := network_deliver hnet
    rw [hw]
    exact hupdate (ready_receive he.2.1 (h q) hreceive)
  | drop q ch i =>
    obtain ⟨⟨o, hnet⟩, -⟩ := closed_drop hs
    rw [(network_drop hnet).2]
    exact h p
  | tick q env c =>
    obtain ⟨o, s, hnet, htick, -⟩ := closed_tick hs
    obtain ⟨s', htick', hw⟩ := network_tick hnet
    rw [hw]
    exact hupdate (ready_tick (h q) htick')

/-- **Over every run.** -/
theorem ready_run (hr : Run (closed mp) .init tr w) (hprov : ∀ x ∈ tr, Provided x.event) (p : P) :
    Ready (w.net.client p) :=
  hr.invariantWhere (I := fun w => ∀ p, Ready (w.net.client p)) (P := fun x => Provided x.event)
    (fun _ _ _ _ h he hs => ready_step hs he h) hprov (fun _ => ready_fresh) p

/-! ## What the network lets happen is handled -/

/-- The server handles a genuine packet to its end. -/
theorem genuine_handled (hmp : mp.Lawful) {p : P} {ch : ChannelId} {d : Bytes}
    {s : Seats activePlayersSize P} (h : Genuine mp tr s p ch d) {t : Table P}
    (ht : ∀ i, Proper (t i)) {env : Env P} (henv : env.Allocates)
    (hrd : ∃ past stale, env.reader = .buffer past stale) :
    ∃ r, (server mp).step t (.receive env p d) = some r := by
  cases ch with
  | critical =>
    have hparse : ifbPtclTryParseMessageByType d = .ok (.reqUserInfo, none) := h ▸ rfl
    simp only [server, serverStep, onReceive, hparse]
    exact register_handled henv t p
  | stream =>
    obtain ⟨gs, rfl, -⟩ := h
    obtain ⟨past, stale, hbuffer⟩ := hrd
    exact ⟨_, step_gameStateBytes hmp henv hbuffer t p gs⟩
  | streamPuppetInputs =>
    obtain ⟨i, input, rfl, -⟩ := h
    rw [receive_eq]
    exact playerInput_handled henv ht (parse_inputPacket hmp _) p
  | service => exact absurd h id

/-- A client that is ready handles a packet to its end, but for a game state its decoder faults
on. -/
theorem receive_returns {env : ClientEnv} {d : Bytes} (hready : Ready s) (henv : env.Mallocs)
    (hstate : ∀ payload, ifbPtclTryParseMessageByType d = .ok (.gameStateUpd, payload) →
      NoFault (ifbTryUnpackGameState mp env.net.reader payload)) :
    ∃ s', handleReceive mp env s d = some s' := by
  cases hrec : received mp env.net.reader d with
  | userInfo ui =>
    rw [handleReceive_userInfo hrec, if_pos henv.userInfo, attemptInit_eq, henv.gameState,
      Bool.or_true, if_pos rfl]
    split_ifs <;> exact ⟨_, rfl⟩
  | slaveConnected ui => exact ⟨_, handleReceive_slaveConnected hrec⟩
  | playerInput pi =>
    rw [handleReceive_playerInput hrec]
    split_ifs with hmaster
    · obtain ⟨inputs, hin⟩ := Option.ne_none_iff_exists'.mp (hready hmaster)
      unfold updateGamesStateBySlaveInput
      rw [hin]
      cases slaveIndex pi.id <;> exact ⟨_, rfl⟩
    · exact ⟨s, rfl⟩
  | ignored =>
    rcases handleReceive_ignored (s := s) hrec with hok | ⟨-, payload, hparse, hfault⟩
    · exact ⟨s, hok⟩
    · exact absurd (hstate payload hparse) hfault

omit [DecidableEq P] in
/-- So it does a forwarded one. -/
theorem forwarded_handled (hmp : mp.Lawful) {ch : ChannelId} {d : Bytes} (h : Forwarded mp tr ch d)
    (hready : Ready s) {env : ClientEnv} (henv : env.Mallocs)
    (hrd : ∃ past stale, env.net.reader = .buffer past stale) :
    ∃ s', handleReceive mp env s d = some s' := by
  refine receive_returns hready henv fun payload hparse => ?_
  have hd := (parse_eq_ok hparse).1
  cases ch with
  | critical =>
    obtain ⟨ty, payload', hty, rfl⟩ := h
    have hbyte := (List.cons.inj hd).1
    rcases hty with rfl | rfl <;> cases hbyte
  | stream =>
    obtain ⟨gs, rfl, -⟩ := h
    obtain ⟨past, stale, hbuffer⟩ := hrd
    rw [statePacket, parse_gameStateBytes hmp] at hparse
    obtain rfl : some (gameStateBytes mp gs) = payload := by simpa using hparse
    rw [hbuffer, NoFault, unpack_gameStateBytes_nil hmp past stale gs]
    simp
  | streamPuppetInputs =>
    obtain ⟨i, input, rfl, -⟩ := h
    cases (List.cons.inj hd).1
  | service => exact absurd h id

/-- What happens, the network lets happen. -/
theorem possible_of_step (hs : (closed mp).step w e = some (w', out)) : Possible w e := by
  cases e with
  | connect p => exact (network_connect (closed_connect hs).1).1
  | request p env => trivial
  | arrive p ch i env =>
    obtain ⟨horder, d, t', os, hd, -, hnet, -⟩ := closed_arrive hs
    obtain ⟨hlt, -⟩ := List.getElem?_eq_some_iff.mp hd
    exact ⟨(network_receive hnet).1, horder, hlt⟩
  | lose p ch i =>
    simp only [closed, closedStep] at hs
    split_ifs at hs with hch
    exact hch
  | disconnect p =>
    obtain ⟨⟨o, hnet⟩, -⟩ := closed_disconnect hs
    simp only [network, networkStep] at hnet
    split_ifs at hnet with hconn
    exact hconn
  | deliver p ch i env =>
    obtain ⟨⟨o, hnet⟩, -⟩ := closed_deliver hs
    obtain ⟨horder, d, s, hd, -⟩ := network_deliver hnet
    obtain ⟨hlt, -⟩ := List.getElem?_eq_some_iff.mp hd
    exact ⟨horder, hlt⟩
  | drop p ch i =>
    obtain ⟨⟨o, hnet⟩, -⟩ := closed_drop hs
    exact (network_drop hnet).1
  | tick p env c => trivial

/-- What the network lets happen, is handled. -/
theorem step_of_possible (hmp : mp.Lawful) (hh : Honest mp tr w r)
    (hready : ∀ p, Ready (w.net.client p)) (he : Provided e) (h : Possible w e) :
    ∃ x, (closed mp).step w e = some x := by
  simp only [closed]
  cases e with
  | connect p =>
    simp only [closedStep, networkStep, show w.net.connected p = false from h, Bool.false_eq_true,
      if_false]
    exact ⟨_, rfl⟩
  | request p env => exact ⟨_, rfl⟩
  | arrive p ch i env =>
    obtain ⟨hconn, horder, hlt⟩ := h
    obtain ⟨x, hserver⟩ := genuine_handled hmp
      (hh.sent p ch _ (List.mem_of_getElem? (List.getElem?_eq_getElem hlt)))
      hh.informed.sim.proper he.1 he.2
    have hguard : ¬ (w.net.connected p = false ∨ ch = .critical ∧ i ≠ 0) := by
      rintro (hno | ⟨hch, hi⟩)
      · exact absurd (hno.symm.trans hconn) (by simp)
      · exact hi (horder hch)
    have hstep : serverStep mp w.net.table (.receive env p (w.sent p ch)[i]) = some x := hserver
    simp only [closedStep, if_neg hguard, List.getElem?_eq_getElem hlt, hstep]
    exact ⟨_, rfl⟩
  | lose p ch i => exact ⟨_, if_neg h⟩
  | disconnect p =>
    simp only [closedStep, networkStep, show w.net.connected p = true from h, if_true, serverStep]
    cases tryRemovePlayer w.net.table p <;> exact ⟨_, rfl⟩
  | deliver p ch i env =>
    obtain ⟨horder, hlt⟩ := h
    obtain ⟨hmallocs, -, hrd⟩ := he
    obtain ⟨s', hreceive⟩ := forwarded_handled hmp
      (hh.flight p ch _ (List.mem_of_getElem? (List.getElem?_eq_getElem hlt))) (hready p) hmallocs
      hrd
    have hguard : ¬ (ch = .critical ∧ i ≠ 0) := fun hno => hno.2 (horder hno.1)
    simp only [closedStep, networkStep, if_neg hguard, List.getElem?_eq_getElem hlt, hreceive]
    exact ⟨_, rfl⟩
  | drop p ch i =>
    simp only [closedStep, networkStep, if_neg (show ch ≠ .critical from h)]
    exact ⟨_, rfl⟩
  | tick p env c =>
    obtain ⟨x, htick⟩ : ∃ x, tryExecuteTick mp env (w.net.client p) c = some x :=
      tick_returns (hready p) env c
    simp only [closedStep, networkStep, htick]
    exact ⟨_, rfl⟩

/-- **Nothing faults.** In every run of the closed system from the start (where a new connection
belongs to a client that has just started, and a packet or a tick is handled in one go) in which
memory is there: an event is handled to its end if and only if the network lets it happen. -/
theorem nothing_faults (hmp : mp.Lawful) (hr : Run (closed mp) .init tr w)
    (hprov : ∀ x ∈ tr, Provided x.event) (he : Provided e) :
    (∃ x, (closed mp).step w e = some x) ↔ Possible w e := by
  constructor
  · rintro ⟨⟨w', out⟩, hs⟩
    exact possible_of_step hs
  · obtain ⟨r, hh⟩ := honest_run hmp hr fun x hx => readsBuffers_of_provided (hprov x hx)
    exact step_of_possible hmp hh (ready_run hr hprov) he

/-- The steps of the session are provided for. -/
theorem session_provided {tr : List (ClosedMove Nat)} (hev : tr.map Step.event = session) :
    ∀ x ∈ tr, Provided x.event := by
  intro x hx
  have hmem := List.mem_map_of_mem (f := Step.event) hx
  rw [hev] at hmem
  simp only [session, List.mem_cons, List.not_mem_nil, or_false] at hmem
  rcases hmem with he | he | he | he | he | he | he | he | he | he | he | he | he | he | he <;>
    rw [he]
  all_goals
    first
    | trivial
    | exact ⟨ideal_allocates, _, _, rfl⟩
    | exact ⟨⟨rfl, rfl⟩, rfl, _, _, rfl⟩

/-- The master is shown its own state, which is still under way. -/
theorem nothing_faults_session : ∃ tr, ∃ w : Closed Nat, Run (closed reference) .init tr w ∧
    ∃ x, (closed reference).step w (.deliver 1 .stream 0 .ideal) = some x := by
  obtain ⟨tr, w, hr, hev, hQ⟩ := run_of_exec (closed reference) .init session
    (fun _ w => decide (0 < (w.net.flight 1 .stream).length)) (by decide +kernel)
  have hprov : Provided (.deliver 1 .stream 0 .ideal : ClosedEvent Nat) :=
    ⟨⟨rfl, rfl⟩, rfl, _, _, rfl⟩
  exact ⟨tr, w, hr, (nothing_faults reference_lawful hr (session_provided hev) hprov).mpr
    ⟨nofun, of_decide_eq_true hQ⟩⟩

end MasterRelay.Game
