import MasterRelay.Protocol.KeyReads
import MasterRelay.Server.Relay

/-!
# What stops the server

The loop of `main` has no guard around the decoder: a game state with a key shorter than the longest
field name it is compared with is read past the key. Here such a read counts as a fault that stops
the server (`Strict`); the program itself reads on into what follows the key, as it does over its
own keys `x` and `y`. Read strictly, a game state is the only packet that stops it: where memory is
there, every other one is handled, whoever sends it, in every registry and in any order.

* `serverStep_handles_iff`: one event.
* **`server_handles_iff`**: the sequences of events the server handles to their end, read strictly.
-/

namespace MasterRelay.Server

open MasterRelay.Lib.MsgPack
open MasterRelay.Lib.Runs
open MasterRelay.Protocol

variable {P : Type} {mp : Msgpack} {env : Env P} {t : Table P}

/-- The event brings a game state with a key that is not read in place. -/
def Overruns (mp : Msgpack) (e : Event P) : Prop :=
  ∃ env peer data payload, e = .receive env peer data ∧
    ifbPtclTryParseMessageByType data = .ok (.gameStateUpd, payload) ∧
    safePayload mp payload = false

/-- Memory is there, and a read past a key, or through one that is no string, is a fault. The
program does not stop there; what it does then depends on what it finds. -/
def Strict : Event P → Prop
  | .connect _ => True
  | .receive env _ _ => env.Allocates ∧ ∃ stale, env.reader = .strict stale
  | .disconnect _ => True

theorem overruns_receive {peer : P} {data : Bytes} :
    Overruns mp (.receive env peer data) ↔ ∃ payload,
      ifbPtclTryParseMessageByType data = .ok (.gameStateUpd, payload) ∧
        safePayload mp payload = false := by
  constructor
  · rintro ⟨_, _, _, payload, he, hparse, hunsafe⟩
    cases he
    exact ⟨payload, hparse, hunsafe⟩
  · rintro ⟨payload, hparse, hunsafe⟩
    exact ⟨env, peer, data, payload, rfl, hparse, hunsafe⟩

/-! ## One packet -/

/-- A game state is handled unless its decoder faults. -/
theorem gameState_handled_iff (henv : env.Allocates) {data : Bytes} {payload : Option Bytes}
    [DecidableEq P] (hparse : ifbPtclTryParseMessageByType data = .ok (.gameStateUpd, payload))
    (peer : P) :
    (∃ r, onReceive mp env t peer data = some r) ↔
      NoFault (ifbTryUnpackGameState mp env.reader payload) := by
  cases hgs : ifbTryUnpackGameState mp env.reader payload with
  | ok gs =>
    rw [onReceive_gameState henv t peer hparse hgs]
    exact iff_of_true ⟨_, rfl⟩ (by simp [NoFault])
  | error e =>
    simp only [onReceive, hparse, hgs]
    cases e <;> simp [NoFault]

variable [DecidableEq P]

/-- A request is handled: there is a record, or no place for one. -/
theorem register_handled (henv : env.Allocates) (t : Table P) (peer : P) :
    ∃ r, handlePlayerRegister mp env t peer = some r := by
  unfold handlePlayerRegister
  split_ifs
  · exact ⟨_, rfl⟩
  · unfold tryRegisterPlayer
    rw [henv.mallocPlayer]
    cases firstSlot freeTest t <;> exact ⟨_, rfl⟩

omit [DecidableEq P] in
/-- A relay to a player that is there is handled. -/
theorem relay_handled (henv : env.Allocates) (data : Bytes) (q : P) :
    ifbTryRelayPacket env data (some q) .streamPuppetInputs false false ≠ .error .fault := by
  simp only [ifbTryRelayPacket, enetPacketCreate, henv.packetCreate, if_true]
  split_ifs <;> simp [fail]

/-- A player input is handled: a master that is found has a peer. -/
theorem playerInput_handled (henv : env.Allocates) (ht : ∀ i, Proper (t i)) {data : Bytes}
    {payload : Option Bytes}
    (hparse : ifbPtclTryParseMessageByType data = .ok (.playerInput, payload)) (peer : P) :
    ∃ r, onReceive mp env t peer data = some r := by
  simp only [onReceive, hparse]
  cases hmaster : tryGetMasterClient t with
  | error e => exact ⟨_, rfl⟩
  | ok master =>
    obtain ⟨q, hq⟩ := master_peer ht hmaster
    have hrelay := relay_handled henv data q
    rw [← hq] at hrelay
    dsimp only
    split
    · rename_i hfault
      exact absurd hfault hrelay
    · exact ⟨_, rfl⟩
    · exact ⟨_, rfl⟩

/-- **One event** of a server whose records are proper. -/
theorem serverStep_handles_iff (ht : ∀ i, Proper (t i)) {e : Event P} (he : Strict e) :
    (∃ r, (server mp).step t e = some r) ↔ ¬ Overruns mp e := by
  cases e with
  | connect peer => exact iff_of_true ⟨_, rfl⟩ (by simp [Overruns])
  | disconnect peer =>
    refine iff_of_true ?_ (by simp [Overruns])
    simp only [server, serverStep]
    cases tryRemovePlayer t peer <;> exact ⟨_, rfl⟩
  | receive env peer data =>
    obtain ⟨henv, stale, hstrict⟩ := he
    rw [receive_eq, overruns_receive]
    cases hparse : ifbPtclTryParseMessageByType data with
    | error e =>
      refine iff_of_true ?_ (by simp)
      simp only [onReceive, hparse]
      exact ⟨_, rfl⟩
    | ok r =>
      obtain ⟨ty, payload⟩ := r
      have hother : ty ≠ .gameStateUpd → ¬ ∃ payload', (Except.ok (ty, payload) :
          Except Stop (MessageType × Option Bytes)) = .ok (.gameStateUpd, payload') ∧
            safePayload mp payload' = false := by
        rintro hne ⟨_, heq, -⟩
        cases heq
        exact hne rfl
      cases ty with
      | gameStateUpd =>
        rw [gameState_handled_iff henv hparse, hstrict, unpackGameState_noFault_iff]
        simp
      | reqUserInfo =>
        refine iff_of_true ?_ (hother (by decide))
        simp only [onReceive, hparse]
        exact register_handled henv t peer
      | playerInput =>
        exact iff_of_true (playerInput_handled henv ht hparse peer) (hother (by decide))
      | _ =>
        refine iff_of_true ?_ (hother (by decide))
        simp only [onReceive, hparse]
        exact ⟨_, rfl⟩

/-! ## Whole runs -/

/-- **What the server survives, read strictly.** Where memory is there and every read past a key
stops the server, it handles a sequence of events to its end, from its start, exactly when none of
them brings a game state with a key that is not read in place: the senders, the registry, the order
and every other packet do not matter. -/
theorem server_handles_iff {es : List (Event P)} (hes : ∀ e ∈ es, Strict e) :
    (∃ tr t, Run (server mp) initTable tr t ∧ tr.map Step.event = es) ↔
      ∀ e ∈ es, ¬ Overruns mp e :=
  Run.handled_iff (I := fun t => ∃ r : ServerRoster P, Sim t r)
    (fun _ _ h he => serverStep_handles_iff h.choose_spec.proper he)
    (fun _ _ _ _ h hs => ⟨_, sim_step h.choose_spec hs⟩) ⟨_, sim_init⟩ hes

/-- `{"tick": 0, "pos_1": {1: true}}`, as a packet of a peer that has not registered. -/
def integerKeyEvent : Event Nat :=
  .receive { Env.ideal with reader := .strict fun _ => 0 } 7
    (frame .gameStateUpd (some integerKeyPayload))

/-- One packet of a stranger stops the strict server. -/
theorem server_handles_iff_stranger :
    ¬ ∃ tr t, Run (server reference) (initTable : Table Nat) tr t ∧
      tr.map Step.event = [.connect 7, integerKeyEvent] := by
  have hstrict : ∀ e ∈ [.connect 7, integerKeyEvent], Strict e := by
    intro e he
    rcases List.mem_pair.mp he with rfl | rfl
    · trivial
    · exact ⟨⟨rfl, fun _ => rfl, fun _ => rfl, fun _ h => absurd h List.not_mem_nil⟩, _, rfl⟩
  rw [server_handles_iff hstrict]
  intro hnone
  refine hnone integerKeyEvent (by simp) (overruns_receive.mpr ⟨some integerKeyPayload, ?_, ?_⟩)
  · exact parse_frame rfl (by decide)
  · decide +kernel

end MasterRelay.Server
