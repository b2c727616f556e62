import MasterRelay.Protocol.Independence
import MasterRelay.Protocol.RoundTrip
import MasterRelay.Server.Leader

/-!
# What the server passes on

A player input goes to the master as it came (`onReceive_playerInput`); a game state is decoded and
packed again (`onReceive_gameState`).

* `gameState_relay`: neither the master's packets nor any other plain one change their meaning on
  the way, and the master's do not change at all.
* `broadcasts_fromPackets`: what is broadcast is a function of the `GAME_STATE_UPD` packets that are
  received, of the allocations, and of the memory the decoder reads beside a packet that is not
  plain. The sender is looked up and printed, but not compared with the master: neither the sender
  nor the registry is in that function.
-/

namespace MasterRelay.Server

open MasterRelay.Lib.MsgPack
open MasterRelay.Lib.Runs
open MasterRelay.Protocol

variable {P : Type} {mp : Msgpack} {env : Env P} {t t' : Table P} {peer : P} {data : Bytes}
  {out : List (Output P)}

theorem handleGameState_of_allocates (henv : env.Allocates) (gs : GameState) :
    handleGameStateUpdatedByMaster mp env gs =
      some [.broadcast .stream (frame .gameStateUpd (some (gameStateBytes mp gs)))
        false false] := by
  unfold handleGameStateUpdatedByMaster
  rw [packed_of_allocates henv (emits_gameState gs)]
  simp only [tryBroadcast_of_allocates (t := .gameStateUpd) rfl henv]

variable [DecidableEq P]

/-- A game state that decodes is broadcast, whoever sent it. -/
theorem onReceive_gameState (henv : env.Allocates) (t : Table P) (peer : P)
    {payload : Option Bytes} {gs : GameState}
    (hparse : ifbPtclTryParseMessageByType data = .ok (.gameStateUpd, payload))
    (hgs : ifbTryUnpackGameState mp env.reader payload = .ok gs) :
    onReceive mp env t peer data = some (t, [.broadcast .stream
      (frame .gameStateUpd (some (gameStateBytes mp gs))) false false]) := by
  simp only [onReceive, hparse, hgs, handleGameState_of_allocates henv, Option.map_some]

/-- A player input goes to the master as it came, and to nobody else. -/
theorem onReceive_playerInput (henv : env.Allocates) (peer : P) {payload : Option Bytes}
    {master : Slot} {p : P}
    (hparse : ifbPtclTryParseMessageByType data = .ok (.playerInput, payload))
    (hmaster : tryGetMasterClient t = .ok master) (hp : (t master).peer = some p)
    (hsent : env.peerSend p .streamPuppetInputs = 0) :
    onReceive mp env t peer data = some (t, [.send p .streamPuppetInputs data false false]) := by
  simp only [onReceive, hparse, hmaster, hp, tryRelay_of_accepts henv hsent]

/-! ## Game states keep their meaning -/

theorem unpack_gameStateBytes_nil (hmp : mp.Lawful) (past : Nat → UInt8) (stale : Object → Int)
    (gs : GameState) :
    ifbTryUnpackGameState mp (.buffer past stale) (some (gameStateBytes mp gs)) = .ok gs := by
  have h := unpack_gameStateBytes hmp past stale gs []
  rwa [List.append_nil] at h

theorem parse_gameStateBytes (hmp : mp.Lawful) (gs : GameState) :
    ifbPtclTryParseMessageByType (frame .gameStateUpd (some (gameStateBytes mp gs))) =
      .ok (.gameStateUpd, some (gameStateBytes mp gs)) :=
  parse_frame rfl (gameStateBytes_ne_nil hmp gs)

/-- The packet of a game state is broadcast as it came. -/
theorem step_gameStateBytes (hmp : mp.Lawful) (henv : env.Allocates) {past : Nat → UInt8}
    {stale : Object → Int} (hrd : env.reader = .buffer past stale) (t : Table P) (peer : P)
    (gs : GameState) :
    (server mp).step t (.receive env peer (frame .gameStateUpd (some (gameStateBytes mp gs)))) =
      some (t, [.broadcast .stream (frame .gameStateUpd (some (gameStateBytes mp gs)))
        false false]) :=
  onReceive_gameState henv t peer (parse_gameStateBytes hmp gs)
    (hrd ▸ unpack_gameStateBytes_nil hmp past stale gs)

variable {Q : Type} {envM : Env Q}

/-- **The relay of game states.** The packet a master builds is accepted with the state it was built
from, and is what the server broadcasts. Whatever plain payload the server accepts, the payload it
broadcasts decodes to the same state, in every memory. -/
theorem gameState_relay (hmp : mp.Lawful) (hM : envM.Allocates)
    (henv : env.Allocates) {past : Nat → UInt8} {stale : Object → Int}
    (hrd : env.reader = .buffer past stale) (t : Table P) (peer : P) :
    (∀ gs, ∃ sbuf, packed envM (ifbTryPackGameState mp gs) = .ok sbuf ∧
      ifbPtclTryParseMessageByType (frame .gameStateUpd (some sbuf)) =
        .ok (.gameStateUpd, some sbuf) ∧
      ifbTryUnpackGameState mp env.reader (some sbuf) = .ok gs ∧
      (server mp).step t (.receive env peer (frame .gameStateUpd (some sbuf))) =
        some (t, [.broadcast .stream (frame .gameStateUpd (some sbuf)) false false])) ∧
    ∀ data payload gs, ifbPtclTryParseMessageByType data = .ok (.gameStateUpd, some payload) →
      ifbTryUnpackGameState mp env.reader (some payload) = .ok gs →
      plainPositions mp payload = true → ∃ sbuf,
        (server mp).step t (.receive env peer data) =
          some (t, [.broadcast .stream (frame .gameStateUpd (some sbuf)) false false]) ∧
        ifbPtclTryParseMessageByType (frame .gameStateUpd (some sbuf)) =
          .ok (.gameStateUpd, some sbuf) ∧
        ∀ past₁ stale₁ past₂ stale₂,
          ifbTryUnpackGameState mp (.buffer past₁ stale₁) (some sbuf) =
            ifbTryUnpackGameState mp (.buffer past₂ stale₂) (some payload) := by
  constructor
  · intro gs
    exact ⟨gameStateBytes mp gs, packed_of_allocates hM (emits_gameState gs),
      parse_gameStateBytes hmp gs, hrd ▸ unpack_gameStateBytes_nil hmp past stale gs,
      step_gameStateBytes hmp henv hrd t peer gs⟩
  · intro data payload gs hparse hgs hplain
    refine ⟨gameStateBytes mp gs, onReceive_gameState henv t peer hparse hgs,
      parse_gameStateBytes hmp gs, ?_⟩
    intro past₁ stale₁ past₂ stale₂
    rw [unpack_gameStateBytes_nil hmp,
      unpackGameState_independent past₂ stale₂ past stale hmp hplain, ← hrd, hgs]

/-- A position with an over-wide integer and a long key. -/
def loosePos : Bytes :=
  [0x83, 0xa9] ++ cStr "is_exists" ++ [0xc3, 0xa2] ++ cStr "xx" ++
    [0xd3, 0xff, 0xff, 0xff, 0xff, 0xff, 0xff, 0xff, 0xfe] ++ [0xa1] ++ cStr "y" ++ [0xcd, 0, 7]

/-- A game state no encoder of the program makes: entries in another order, one too many, trailing
bytes. -/
def loosePayload : Bytes :=
  [0x86, 0xa5] ++ cStr "pos_4" ++ loosePos ++ [0xa5] ++ cStr "pos_1" ++ loosePos ++ [0xa5] ++
    cStr "pos_2" ++ loosePos ++ [0xc0, 0xc0] ++ [0xa5] ++ cStr "pos_3" ++ loosePos ++ [0xa4] ++
    cStr "tick" ++ [0xce, 0, 0, 0, 9] ++ [0xff]

theorem gameState_relay_loose : ∃ sbuf,
    (server reference).step initTable
      (.receive (Env.ideal : Env Nat) 1 (frame .gameStateUpd (some loosePayload))) =
        some (initTable, [.broadcast .stream (frame .gameStateUpd (some sbuf)) false false]) ∧
      ifbTryUnpackGameState reference (Env.ideal : Env Nat).reader (some sbuf) =
        ifbTryUnpackGameState reference (Env.ideal : Env Nat).reader (some loosePayload) := by
  have halloc : (Env.ideal : Env Nat).Allocates := ideal_allocates
  obtain ⟨sbuf, hstep, -, hsame⟩ :=
    (gameState_relay reference_lawful halloc halloc rfl initTable 1).2
      (frame .gameStateUpd (some loosePayload)) loosePayload
      ⟨9, ⟨true, -2, 7⟩, ⟨true, -2, 7⟩, ⟨true, -2, 7⟩, ⟨true, -2, 7⟩⟩ (by decide +kernel)
      (by decide +kernel) (by decide +kernel)
  exact ⟨sbuf, hstep, hsame _ _ _ _⟩

/-! ## What is broadcast -/

section Broadcasts

omit [DecidableEq P]

/-- The packets among the outputs that go to everybody. -/
def broadcasts (out : List (Output P)) : List Bytes :=
  out.filterMap fun
    | .broadcast _ data _ _ => some data
    | .send _ _ _ _ _ => none

/-- The `GAME_STATE_UPD` packet an event brings, with the environment it is handled in. -/
def gameStatePacket : Event P → Option (Env P × Bytes)
  | .receive env _ data =>
    if data.head? = some MessageType.gameStateUpd.toByte then some (env, data) else none
  | _ => none

/-- What the server makes of a `GAME_STATE_UPD` packet. -/
def relayed (mp : Msgpack) (x : Env P × Bytes) : List Bytes :=
  match ifbPtclTryParseMessageByType x.2 with
  | .ok (.gameStateUpd, payload) =>
    match ifbTryUnpackGameState mp x.1.reader payload with
    | .ok gs => ((handleGameStateUpdatedByMaster mp x.1 gs).map broadcasts).getD []
    | .error _ => []
  | _ => []

/-- The position maps of the payload are plain, so the decoder reads nothing beside it. -/
def plainPacket (mp : Msgpack) (data : Bytes) : Bool :=
  match ifbPtclTryParseMessageByType data with
  | .ok (_, some payload) => plainPositions mp payload
  | _ => true

/-- The same packet, with the same allocations, and with the same memory beside it unless it is
plain: the buffers may differ in what follows the packet and in stale union members. -/
structure SameRelay (mp : Msgpack) (x y : Env P × Bytes) : Prop where
  data : x.2 = y.2
  reader : x.1.reader = y.1.reader ∨ plainPacket mp x.2 = true ∧
    (∃ past stale, x.1.reader = .buffer past stale) ∧ ∃ past stale, y.1.reader = .buffer past stale
  grow : x.1.grow = y.1.grow
  malloc : x.1.malloc .gameStateUpd = y.1.malloc .gameStateUpd
  packetCreate : x.1.packetCreate .gameStateUpd = y.1.packetCreate .gameStateUpd

/-- The packet decodes to the same. -/
theorem decoded_congr (hmp : mp.Lawful) {x y : Env P × Bytes} (h : SameRelay mp x y)
    {ty : MessageType} {payload : Option Bytes}
    (hparse : ifbPtclTryParseMessageByType x.2 = .ok (ty, payload)) :
    ifbTryUnpackGameState mp x.1.reader payload = ifbTryUnpackGameState mp y.1.reader payload := by
  rcases h.reader with hsame | ⟨hplain, ⟨past, stale, hx⟩, past', stale', hy⟩
  · rw [hsame]
  · rw [hx, hy]
    cases payload with
    | none => rfl
    | some payload =>
      simp only [plainPacket, hparse] at hplain
      exact unpackGameState_independent past stale past' stale' hmp hplain

/-- Nothing else is looked at. -/
theorem relayed_congr (hmp : mp.Lawful) {x y : Env P × Bytes} (h : SameRelay mp x y) :
    relayed mp x = relayed mp y := by
  have hpack : ∀ gs, handleGameStateUpdatedByMaster mp x.1 gs =
      handleGameStateUpdatedByMaster mp y.1 gs := by
    intro gs
    simp only [handleGameStateUpdatedByMaster, packed, ifbPtclTryBroadcastMsgPacket,
      enetPacketCreate, h.grow, h.malloc, h.packetCreate]
  unfold relayed
  rw [← h.data]
  cases hparse : ifbPtclTryParseMessageByType x.2 with
  | error e => rfl
  | ok r =>
    obtain ⟨ty, payload⟩ := r
    cases ty <;> simp only [decoded_congr hmp h hparse, hpack]

theorem flatMap_relayed_congr (hmp : mp.Lawful) {xs ys : List (Env P × Bytes)}
    (h : List.Forall₂ (SameRelay mp) xs ys) :
    xs.flatMap (relayed mp) = ys.flatMap (relayed mp) := by
  induction h with
  | nil => rfl
  | cons h _ ih => rw [List.flatMap_cons, List.flatMap_cons, relayed_congr hmp h, ih]

theorem announce_broadcasts {i : Slot} {m : Bool} :
    broadcasts (announce mp env t peer i m) = [] := by
  rcases announce_cases mp env t peer i m with h | h | ⟨master, q, -, -, -, h⟩ <;> rw [h] <;> rfl

end Broadcasts

/-- **A step broadcasts what it makes of the game state it receives.** -/
theorem broadcasts_step {e : Event P} (hs : (server mp).step t e = some (t', out)) :
    broadcasts out = ((gameStatePacket e).map (relayed mp)).getD [] := by
  cases e with
  | connect p =>
    cases hs
    rfl
  | disconnect p =>
    obtain ⟨rfl, -⟩ := disconnect_cases hs
    rfl
  | receive env p data =>
    replace hs : onReceive mp env t p data = some (t', out) := hs
    by_cases hty : data.head? = some MessageType.gameStateUpd.toByte
    · -- both sides do the same to the packet
      have hout : gameStatePacket (.receive env p data) = some (env, data) := if_pos hty
      rw [hout, Option.map_some, Option.getD_some, relayed]
      obtain ⟨payload, hparse⟩ : ∃ payload,
          ifbPtclTryParseMessageByType data = .ok (.gameStateUpd, payload) := by
        cases data with
        | nil => exact absurd hty (by simp)
        | cons b r =>
          obtain rfl : b = MessageType.gameStateUpd.toByte := by simpa using hty
          exact ⟨_, rfl⟩
      simp only [onReceive, hparse] at hs
      simp only [hparse]
      split at hs
      · cases hs
      · rename_i e he
        cases hs
        rw [he]
        rfl
      · rename_i gs hgs
        obtain ⟨out', hout', heq⟩ := Option.map_eq_some_iff.mp hs
        cases heq
        rw [hgs]
        simp only [hout', Option.map_some, Option.getD_some]
    · have hnone : gameStatePacket (.receive env p data) = none := if_neg hty
      rw [hnone]
      rcases onReceive_cases hs with ⟨-, hreg⟩ | ⟨-, -, rfl | ⟨payload, gs, rfl, -⟩ |
        ⟨payload, master, q, -, -, -, rfl⟩⟩
      · rcases handlePlayerRegister_cases hreg with ⟨-, -, rfl⟩ | ⟨i, m, -, -, -, -, rfl⟩
        · rfl
        · exact announce_broadcasts
      · rfl
      · exact absurd rfl hty
      · rfl

omit [DecidableEq P] in
/-- The `GAME_STATE_UPD` packets a run receives. -/
def gameStatePackets (tr : List (Step (Table P) (Event P) (Output P))) : List (Env P × Bytes) :=
  tr.filterMap fun x => gameStatePacket x.event

theorem broadcasts_run {tr : List (Step (Table P) (Event P) (Output P))}
    (hr : Run (server mp) t tr t') :
    broadcasts (outputs tr) = (gameStatePackets tr).flatMap (relayed mp) := by
  induction hr with
  | nil => rfl
  | @cons s s₁ s₂ e out tr hs _ ih =>
    have hstep := broadcasts_step hs
    simp only [outputs, broadcasts, gameStatePackets, List.flatMap_cons, List.filterMap_append,
      List.filterMap_cons] at ih hstep ⊢
    rw [ih, hstep]
    cases gameStatePacket e <;> simp

/-- **What is broadcast comes from the packets.** A step broadcasts a game state exactly when it
receives a `GAME_STATE_UPD` packet that decodes (and the allocations succeed), from whatever peer
and in whatever registry; two runs, from any tables, that receive the same such packets with the
same allocations broadcast the same, where what the decoder reads beside a packet that is not plain
is the same too. -/
theorem broadcasts_fromPackets (hmp : mp.Lawful) :
    (∀ (t : Table P) e t' out, (server mp).step t e = some (t', out) → ∀ b ∈ broadcasts out,
      ∃ env peer payload gs, e = .receive env peer (frame .gameStateUpd payload) ∧
        ifbTryUnpackGameState mp env.reader payload = .ok gs ∧
        b = frame .gameStateUpd (some (gameStateBytes mp gs))) ∧
    (∀ (t : Table P) (env : Env P) peer data payload gs, env.Allocates →
      ifbPtclTryParseMessageByType data = .ok (.gameStateUpd, payload) →
      ifbTryUnpackGameState mp env.reader payload = .ok gs →
      (server mp).step t (.receive env peer data) =
        some (t, [.broadcast .stream (frame .gameStateUpd (some (gameStateBytes mp gs)))
          false false])) ∧
    ∀ (s s' t t' : Table P) tr tu, Run (server mp) s tr s' → Run (server mp) t tu t' →
      List.Forall₂ (SameRelay mp) (gameStatePackets tr) (gameStatePackets tu) →
      broadcasts (outputs tr) = broadcasts (outputs tu) := by
  refine ⟨fun t e t' out hs b hb => ?_, fun t env peer data payload gs henv hparse hgs => ?_,
    fun s s' t t' tr tu hs ht hE => ?_⟩
  · have hstep := broadcasts_step hs
    cases e with
    | connect p => exact absurd hb (by simp [hstep, gameStatePacket])
    | disconnect p => exact absurd hb (by simp [hstep, gameStatePacket])
    | receive env p data =>
      rcases onReceive_cases hs with ⟨-, hreg⟩ | ⟨-, -, rfl | ⟨payload, gs, rfl, hgs, rfl⟩ |
        ⟨payload, master, q, -, -, -, rfl⟩⟩
      · rcases handlePlayerRegister_cases hreg with ⟨-, -, rfl⟩ | ⟨i, m, -, -, -, -, rfl⟩
        · exact absurd hb List.not_mem_nil
        · exact absurd hb (by simp [announce_broadcasts])
      · exact absurd hb List.not_mem_nil
      · exact ⟨env, p, payload, gs, rfl, hgs, List.mem_singleton.mp hb⟩
      · exact absurd hb (by simp [broadcasts])
  · exact onReceive_gameState henv t peer hparse hgs
  · rw [broadcasts_run hs, broadcasts_run ht]
    exact flatMap_relayed_congr hmp hE

theorem broadcasts_fromPackets_unregistered :
    (server reference).step initTable (.receive (Env.ideal : Env Nat) 7
      (frame .gameStateUpd (some (gameStateBytes reference .zero)))) =
      some (initTable, [.broadcast .stream
        (frame .gameStateUpd (some (gameStateBytes reference .zero))) false false]) :=
  (broadcasts_fromPackets reference_lawful).2.1 initTable .ideal 7 _ _ .zero ideal_allocates
    (parse_gameStateBytes reference_lawful .zero)
    (unpack_gameStateBytes_nil reference_lawful _ _ .zero)

/-- A slave's game state is broadcast while the master is registered. -/
theorem slave_broadcasts : ∃ t : Table Nat, Reachable (server reference) initTable t ∧
    (∃ master, tryGetMasterClient t = .ok master ∧ (t master).peer = some 1) ∧
    ∃ data, (server reference).step t (.receive .ideal 2 data) =
      some (t, [.broadcast .stream data false false]) := by
  obtain ⟨tr, t, hr, -, hQ⟩ := run_of_exec (server reference) initTable (leaveFirst.take 2)
    (fun _ t => (tryGetMasterClient t).toOption.any fun i => decide ((t i).peer = some 1))
    (by decide +kernel)
  obtain ⟨i, hi, hp⟩ := (Option.any_eq_true _ _).mp hQ
  refine ⟨t, ⟨tr, hr⟩, ⟨i, ?_, of_decide_eq_true hp⟩, _,
    step_gameStateBytes reference_lawful ideal_allocates rfl t 2 .zero⟩
  cases hm : tryGetMasterClient t with
  | error e => rw [hm] at hi; cases hi
  | ok j => rw [hm] at hi; cases hi; rfl

end MasterRelay.Server
