import MasterRelay.Client.Atomic
import MasterRelay.Protocol.Coordinates
import MasterRelay.Protocol.Explained

/-!
# What a received packet may change

`handle_net_events_loop` hands a packet to one of three decoders and then touches at most one of
three globals. `received` is what a packet is to the client: a decoded message, or nothing (it is
empty, its type is unknown or none of a client's, or its decoder refuses it).

* `handleReceive_userInfo`, `handleReceive_slaveConnected`, `handleReceive_playerInput`,
  `handleReceive_ignored`: the handling of each, as an equation.
* `gameState_noFault_strings`: the decoder of a game state is defined where the keys of its
  positions are strings.
* **`dispatch_frame`**: it returns, and what it changes.
-/

namespace MasterRelay.Client

open MasterRelay.Lib.MsgPack
open MasterRelay.Lib.Runs
open MasterRelay.Protocol

/-- What a packet is to the client. -/
inductive Received where
  | userInfo (ui : UserInfo)
  | slaveConnected (ui : UserInfo)
  | playerInput (pi : PlayerInput)
  | ignored
  deriving DecidableEq, Repr

/-- The message a packet carries; a game state is only printed, and what a decoder refuses is
ignored. -/
def received (mp : Msgpack) (rd : Reader) (data : Bytes) : Received :=
  match ifbPtclTryParseMessageByType data with
  | .ok (.resUserInfo, payload) =>
    match ifbFunTryUnpackUserInfo mp rd payload with
    | .ok ui => .userInfo ui
    | .error _ => .ignored
  | .ok (.slaveConnected, payload) =>
    match ifbFunTryUnpackUserInfo mp rd payload with
    | .ok ui => .slaveConnected ui
    | .error _ => .ignored
  | .ok (.playerInput, payload) =>
    match ifbTryUnpackPlayerInput mp rd payload with
    | .ok pi => .playerInput pi
    | .error _ => .ignored
  | _ => .ignored

/-- The allocations that are not checked succeed. -/
structure ClientEnv.Mallocs (env : ClientEnv) : Prop where
  userInfo : env.mallocUserInfo = true
  gameState : env.mallocGameState = true

/-- The keys of every position of a payload are strings. -/
def StringKeyed (mp : Msgpack) (payload : Option Bytes) : Prop :=
  ∀ kv ∈ rootEntries mp payload, isPosKey kv.1 = true →
    ∀ es, kv.2 = .map es → ∀ e ∈ es, ∃ k, e.1 = .str k

variable {mp : Msgpack} {env : ClientEnv} {s s' : Shared} {data : Bytes}

/-! ## The decoder of a game state -/

/-- The program compares every string. -/
theorem comparable_str (past : Nat → UInt8) (stale : Object → Int) (k : Slice) :
    (Reader.buffer past stale).Comparable (.str k) := ⟨rfl, rfl, rfl⟩

theorem playerPos_noFault_strings (past : Nat → UInt8) (stale : Object → Int) (out : PlayerPos)
    {v : Object} (h : ∀ es, v = .map es → ∀ e ∈ es, ∃ k, e.1 = .str k) :
    NoFault (ifbTryUnpackPlayerPos mp (.buffer past stale) out v) := by
  cases v with
  | map es =>
    have hcomparable : ∀ e ∈ es, (Reader.buffer past stale).Comparable e.1 := by
      intro e he
      obtain ⟨k, hk⟩ := h es rfl e he
      rw [hk]
      exact comparable_str past stale k
    rw [(unpackPlayerPos_selection mp _ out es).1 hcomparable, playerPosSelection]
    split
    · exact fail_noFault _
    · exact fail_noFault _
    · exact fail_noFault _
    · simp [NoFault]
  | _ => exact fail_noFault _

/-- **Where its keys are strings a game state is decoded without a fault.** -/
theorem gameState_noFault_strings (past : Nat → UInt8) (stale : Object → Int)
    {payload : Option Bytes} (h : StringKeyed mp payload) :
    NoFault (ifbTryUnpackGameState mp (.buffer past stale) payload) := by
  cases payload with
  | none => exact fail_noFault _
  | some buf =>
    rw [ifbTryUnpackGameState]
    split
    · exact fail_noFault _
    · exact fail_noFault _
    · exact fail_noFault _
    · rename_i kvs hroot
      have hkeys := h
      unfold StringKeyed at hkeys
      rw [rootEntries_map (some buf) hroot] at hkeys
      refine bind_ne_error (foldlM_ne_error (fun st kv hkv => ?_) _) gameStateResult_noFault
      obtain ⟨k, v⟩ := kv
      rcases rootKey_cases k with ⟨s, i, rfl, hi⟩ | ⟨hk, -⟩
      · rw [gameStateEntry_pos mp _ hi]
        exact map_ne_error _
          (playerPos_noFault_strings past stale _ (hkeys _ hkv (isPosKey_of_posName hi)))
      · obtain ⟨st', hst⟩ := gameStateEntry_notPos mp (.buffer past stale) st v hk
        rw [hst]
        simp
    · exact fail_noFault _

/-! ## What a packet is -/

theorem received_userInfo {rd : Reader} {ui : UserInfo} (h : received mp rd data = .userInfo ui) :
    ∃ payload, ifbPtclTryParseMessageByType data = .ok (.resUserInfo, payload) ∧
      ifbFunTryUnpackUserInfo mp rd payload = .ok ui := by
  unfold received at h
  split at h
  · rename_i payload hparse
    split at h
    · rename_i ui' hui
      cases h
      exact ⟨payload, hparse, hui⟩
    · cases h
  · split at h <;> cases h
  · split at h <;> cases h
  · cases h

theorem received_slaveConnected {rd : Reader} {ui : UserInfo}
    (h : received mp rd data = .slaveConnected ui) :
    ∃ payload, ifbPtclTryParseMessageByType data = .ok (.slaveConnected, payload) ∧
      ifbFunTryUnpackUserInfo mp rd payload = .ok ui := by
  unfold received at h
  split at h
  · split at h <;> cases h
  · rename_i payload hparse
    split at h
    · rename_i ui' hui
      cases h
      exact ⟨payload, hparse, hui⟩
    · cases h
  · split at h <;> cases h
  · cases h

theorem received_playerInput {rd : Reader} {pi : PlayerInput}
    (h : received mp rd data = .playerInput pi) :
    ∃ payload, ifbPtclTryParseMessageByType data = .ok (.playerInput, payload) ∧
      ifbTryUnpackPlayerInput mp rd payload = .ok pi := by
  unfold received at h
  split at h
  · split at h <;> cases h
  · split at h <;> cases h
  · rename_i payload hparse
    split at h
    · rename_i pi' hpi
      cases h
      exact ⟨payload, hparse, hpi⟩
    · cases h
  · cases h

/-- The packet is empty, its type byte is unknown, or the decoder its type selects refuses its
payload. -/
def Refused (mp : Msgpack) (rd : Reader) (data : Bytes) : Prop :=
  data = [] ∨ (∃ b payload, data = b :: payload ∧ typeOfByte b = none) ∨
    ∃ t payload, ifbPtclTryParseMessageByType data = .ok (t, payload) ∧
      ((t = .resUserInfo ∨ t = .slaveConnected) ∧
          (∃ e, ifbFunTryUnpackUserInfo mp rd payload = .error e) ∨
        t = .gameStateUpd ∧ (∃ e, ifbTryUnpackGameState mp rd payload = .error e) ∨
        t = .playerInput ∧ ∃ e, ifbTryUnpackPlayerInput mp rd payload = .error e)

/-- What is refused is ignored. -/
theorem received_refused {rd : Reader} (h : Refused mp rd data) :
    received mp rd data = .ignored := by
  rcases h with rfl | ⟨b, payload, rfl, hb⟩ | ⟨t, payload, hparse, h⟩
  · rfl
  · simp only [received, ifbPtclTryParseMessageByType, hb, fail]
  · rcases h with ⟨rfl | rfl, e, hui⟩ | ⟨rfl, -⟩ | ⟨rfl, e, hpi⟩
    · simp only [received, hparse, hui]
    · simp only [received, hparse, hui]
    · simp only [received, hparse]
    · simp only [received, hparse, hpi]

/-! ## What each does -/

/-- The inputs of a new master. -/
def newInputs : Fin othersCount → PlayerInput := fun i => ⟨UInt32.ofNat (i + 1), 0, 0⟩

/-- The globals after `attempt_init_current_game_state_by_master`: what was there stays. -/
def initialised (env : ClientEnv) (s : Shared) : Shared :=
  ⟨s.myUserInfo, some (s.currentGameState.getD .zero),
    s.lastPlayerInputs.or (if env.mallocPlayerInputs then some newInputs else none)⟩

theorem attemptInit_eq (env : ClientEnv) (s : Shared) :
    attemptInitCurrentGameStateByMaster env s =
      if s.currentGameState.isSome || env.mallocGameState then some (initialised env s)
      else none := by
  obtain ⟨ui, cgs, lpi⟩ := s
  cases cgs with
  | some gs =>
    cases lpi with
    | some inputs => rfl
    | none =>
      simp only [attemptInitCurrentGameStateByMaster, netSection, initialised]
      cases env.mallocPlayerInputs <;> rfl
  | none =>
    simp only [attemptInitCurrentGameStateByMaster, netSection, initialised]
    cases env.mallocGameState with
    | false => rfl
    | true =>
      cases lpi with
      | some inputs => rfl
      | none => cases env.mallocPlayerInputs <;> rfl

theorem handleReceive_userInfo {ui : UserInfo}
    (h : received mp env.net.reader data = .userInfo ui) :
    handleReceive mp env s data =
      if env.mallocUserInfo then
        if ui.isMaster then attemptInitCurrentGameStateByMaster env { s with myUserInfo := some ui }
        else some { s with myUserInfo := some ui }
      else none := by
  obtain ⟨payload, hparse, hui⟩ := received_userInfo h
  simp only [handleReceive, netReceive, hparse, hui]
  cases env.mallocUserInfo with
  | false => rfl
  | true => cases ui.isMaster <;> rfl

theorem handleReceive_slaveConnected {ui : UserInfo}
    (h : received mp env.net.reader data = .slaveConnected ui) :
    handleReceive mp env s data = some (handleOnSlaveConnected ui s) := by
  obtain ⟨payload, hparse, hui⟩ := received_slaveConnected h
  simp only [handleReceive, netReceive, hparse, hui]

theorem handleReceive_playerInput {pi : PlayerInput}
    (h : received mp env.net.reader data = .playerInput pi) :
    handleReceive mp env s data =
      if s.myUserInfo.any UserInfo.isMaster then updateGamesStateBySlaveInput pi s else some s := by
  obtain ⟨payload, hparse, hpi⟩ := received_playerInput h
  simp only [handleReceive, netReceive, hparse, hpi]
  cases s.myUserInfo.any UserInfo.isMaster with
  | false => rfl
  | true =>
    simp only [if_true]
    cases updateGamesStateBySlaveInput pi s <;> rfl

/-- A decoder that gives no value has refused, where it does not fault. -/
theorem refused_of_noFault {α : Type} {r : Except Stop α} (hno : NoFault r)
    (h : ∀ a, r ≠ .ok a) : ∃ msg, r = .error (.err msg) := by
  cases r with
  | ok a => exact absurd rfl (h a)
  | error e =>
    cases e with
    | err msg => exact ⟨msg, rfl⟩
    | fault => exact absurd rfl hno

/-- A packet that is ignored changes nothing, unless the decoder of a game state faults. -/
theorem handleReceive_ignored (h : received mp env.net.reader data = .ignored) :
    handleReceive mp env s data = some s ∨
      handleReceive mp env s data = none ∧
        ∃ payload, ifbPtclTryParseMessageByType data = .ok (.gameStateUpd, payload) ∧
          ¬ NoFault (ifbTryUnpackGameState mp env.net.reader payload) := by
  unfold received at h
  unfold handleReceive netReceive
  cases hparse : ifbPtclTryParseMessageByType data with
  | error e => exact .inl rfl
  | ok msg =>
    obtain ⟨t, payload⟩ := msg
    rw [hparse] at h
    cases t with
    | none => exact .inl rfl
    | reqUserInfo => exact .inl rfl
    | gameStateUpd =>
      dsimp only
      cases hgs : ifbTryUnpackGameState mp env.net.reader payload with
      | ok gs => exact .inl rfl
      | error e =>
        cases e with
        | err msg => exact .inl rfl
        | fault => exact .inr ⟨rfl, payload, rfl, fun hno => hno hgs⟩
    | resUserInfo =>
      obtain ⟨msg, hui⟩ := refused_of_noFault (unpackUserInfo_noFault mp env.net.reader payload)
        fun ui hui => by simp [hui] at h
      dsimp only
      rw [hui]
      exact .inl rfl
    | slaveConnected =>
      obtain ⟨msg, hui⟩ := refused_of_noFault (unpackUserInfo_noFault mp env.net.reader payload)
        fun ui hui => by simp [hui] at h
      dsimp only
      rw [hui]
      exact .inl rfl
    | playerInput =>
      obtain ⟨msg, hpi⟩ := refused_of_noFault (unpackPlayerInput_noFault mp env.net.reader payload)
        fun pi hpi => by simp [hpi] at h
      dsimp only
      rw [hpi]
      cases s.myUserInfo.any UserInfo.isMaster
      · exact .inl rfl
      · exact .inl rfl

/-- What a decoded message may change of the globals. -/
def Changes (env : ClientEnv) (s s' : Shared) : Received → Prop
  | .userInfo ui => s' = if ui.isMaster then initialised env { s with myUserInfo := some ui }
      else { s with myUserInfo := some ui }
  | .slaveConnected ui =>
    match slaveIndex ui.id, s.currentGameState with
    | some k, some gs => ∃ gs', s' = { s with currentGameState := some gs' } ∧ gs'.tick = gs.tick ∧
        ∀ i, gs'.pos i = if i = k.succ then { gs.pos i with isExists := true } else gs.pos i
    | _, _ => s' = s
  | .playerInput pi =>
    match slaveIndex pi.id, s.myUserInfo.any UserInfo.isMaster with
    | some k, true => ∃ inputs, s.lastPlayerInputs = some inputs ∧ s' = { s with
        lastPlayerInputs :=
          some (Function.update inputs k { inputs k with x := pi.x, y := pi.y }) }
    | _, _ => s' = s
  | .ignored => s' = s

theorem connectSlave_tick (gs : GameState) (k : Fin othersCount) :
    (connectSlave gs k).tick = gs.tick := by
  match k with
  | 0 | 1 | 2 => rfl

theorem changes_slaveConnected (env : ClientEnv) (s : Shared) (ui : UserInfo) :
    Changes env s (handleOnSlaveConnected ui s) (.slaveConnected ui) := by
  dsimp only [Changes, handleOnSlaveConnected]
  cases slaveIndex ui.id with
  | none => cases s.currentGameState <;> rfl
  | some k =>
    cases s.currentGameState with
    | none => rfl
    | some gs => exact ⟨_, rfl, connectSlave_tick gs k, connectSlave_pos gs k⟩

theorem changes_playerInput {pi : PlayerInput}
    (h : (if s.myUserInfo.any UserInfo.isMaster then updateGamesStateBySlaveInput pi s
      else some s) = some s') : Changes env s s' (.playerInput pi) := by
  dsimp only [Changes]
  cases hm : s.myUserInfo.any UserInfo.isMaster with
  | false =>
    rw [hm, if_neg Bool.false_ne_true] at h
    cases h
    cases slaveIndex pi.id <;> rfl
  | true =>
    rw [hm, if_pos rfl] at h
    rcases updateGamesState_cases h with rfl | ⟨k, inputs, hk, hin, rfl⟩
    · -- nothing was replaced, so there is no slave of that id
      unfold updateGamesStateBySlaveInput at h
      cases hk : slaveIndex pi.id with
      | none => rfl
      | some k =>
        rw [hk] at h
        dsimp only at h ⊢
        cases hin : s'.lastPlayerInputs with
        | none =>
          rw [hin] at h
          cases h
        | some inputs =>
          rw [hin] at h
          exact ⟨inputs, rfl, (Option.some.inj h).symm⟩
    · rw [hk]
      exact ⟨inputs, hin, rfl⟩

/-- **What handling a packet changes** is what its message may change. -/
theorem changes_receive (h : handleReceive mp env s data = some s') :
    Changes env s s' (received mp env.net.reader data) := by
  cases hrec : received mp env.net.reader data with
  | userInfo ui =>
    rw [handleReceive_userInfo hrec, attemptInit_eq] at h
    dsimp only [Changes]
    split_ifs at h ⊢
    · exact (Option.some.inj h).symm
    · exact (Option.some.inj h).symm
  | slaveConnected ui =>
    rw [handleReceive_slaveConnected hrec] at h
    cases h
    exact changes_slaveConnected env s ui
  | playerInput pi =>
    rw [handleReceive_playerInput hrec] at h
    exact changes_playerInput h
  | ignored =>
    rcases handleReceive_ignored (s := s) hrec with hok | ⟨hnone, -⟩
    · exact Option.some.inj (h.symm.trans hok)
    · exact absurd (h.symm.trans hnone) (by simp)

/-- **The frame of a received packet.** Handling it returns, where the unchecked allocations succeed
and the keys of a game state's positions are strings, and it changes what the message it carries may
change; an empty packet, an unknown type, a payload its decoder refuses and an id that is no slave's
change nothing. -/
theorem dispatch_frame (mp : Msgpack) (env : ClientEnv) (s : Shared) (data : Bytes)
    (hready : s.myUserInfo.any UserInfo.isMaster = true → s.lastPlayerInputs ≠ none) :
    (∀ past stale, env.net.reader = .buffer past stale → env.Mallocs →
      (∀ payload, ifbPtclTryParseMessageByType data = .ok (.gameStateUpd, payload) →
        StringKeyed mp payload) →
      ∃ s', handleReceive mp env s data = some s') ∧
    ∀ s', handleReceive mp env s data = some s' →
      Changes env s s' (received mp env.net.reader data) ∧
        (Refused mp env.net.reader data → s' = s) := by
  constructor
  · intro past stale hrd hmallocs hstrings
    cases hrec : received mp env.net.reader data with
    | userInfo ui =>
      rw [handleReceive_userInfo hrec, if_pos hmallocs.userInfo, attemptInit_eq,
        hmallocs.gameState, Bool.or_true, if_pos rfl]
      cases ui.isMaster
      · exact ⟨_, rfl⟩
      · exact ⟨_, rfl⟩
    | slaveConnected ui => exact ⟨_, handleReceive_slaveConnected hrec⟩
    | playerInput pi =>
      rw [handleReceive_playerInput hrec]
      split
      · rename_i hmaster
        obtain ⟨inputs, hin⟩ := Option.ne_none_iff_exists'.mp (hready hmaster)
        unfold updateGamesStateBySlaveInput
        cases slaveIndex pi.id with
        | none => exact ⟨s, rfl⟩
        | some k =>
          rw [hin]
          exact ⟨_, rfl⟩
      · exact ⟨s, rfl⟩
    | ignored =>
      rcases handleReceive_ignored (s := s) hrec with hok | ⟨-, payload, hparse, hfault⟩
      · exact ⟨s, hok⟩
      · rw [hrd] at hfault
        exact absurd (gameState_noFault_strings past stale (hstrings payload hparse)) hfault
  · intro s' hs
    have hchanges := changes_receive hs
    refine ⟨hchanges, fun hrefused => ?_⟩
    rw [received_refused hrefused] at hchanges
    exact hchanges

/-- An input for slave 1, to a new master. -/
theorem dispatch_frame_input : ∃ s', handleReceive reference .ideal
      ⟨some ⟨0, true⟩, some .zero, some newInputs⟩ (inputPacket reference ⟨1, -5, 7⟩) = some s' ∧
    s' = ⟨some ⟨0, true⟩, some .zero, some (Function.update newInputs 0 ⟨1, -5, 7⟩)⟩ := by
  obtain ⟨hreturns, hchanges⟩ := dispatch_frame reference .ideal
    ⟨some ⟨0, true⟩, some .zero, some newInputs⟩ (inputPacket reference ⟨1, -5, 7⟩)
    fun _ => by simp
  obtain ⟨s', hs⟩ := hreturns _ _ rfl ⟨rfl, rfl⟩ fun payload hparse => by
    rw [parse_inputPacket reference_lawful] at hparse
    cases hparse
  have hrec : received reference (ClientEnv.ideal).net.reader (inputPacket reference ⟨1, -5, 7⟩) =
      .playerInput ⟨1, -5, 7⟩ := by decide +kernel
  obtain ⟨hframe, -⟩ := hchanges s' hs
  rw [hrec] at hframe
  obtain ⟨inputs, hin, rfl⟩ := hframe
  cases hin
  exact ⟨_, hs, rfl⟩

end MasterRelay.Client
