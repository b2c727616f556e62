import MasterRelay.Client.Sections
import MasterRelay.Lib.Runs
import MasterRelay.Protocol.RoundTrip

/-!
# The threads of a client

The net thread, the main thread and the tick thread over the shared globals, with every section
under a mutex as one atomic step, in any order. The main thread and the tick thread run the same
function, each at its own `TickPc`; the arguments of a call are left open (the main thread passes
its counter and one of the five inputs of the command line, the tick thread its frame and `{0}`).

`netReceive_cases`, `netSection_cases` and `tickSection_cases` say all a section can do, and
`client_cases` all a step can do to `CURRENT_GAME_STATE` and to the copies of it the two threads
hold; the proofs about interleavings use nothing else.
-/

namespace MasterRelay.Client

open MasterRelay.Lib.MsgPack
open MasterRelay.Lib.Runs
open MasterRelay.Protocol

/-- The two threads that call `try_execute_tick`. -/
inductive Thread where
  | main
  | tickLoop
  deriving DecidableEq, Repr

/-- The globals and where each thread stands. -/
structure ClientState where
  shared : Shared
  net : NetPc
  tick : Thread → TickPc

/-- A step of one of the threads. -/
inductive ClientEvent where
  | receive (env : ClientEnv) (data : Bytes)
  | netSection (env : ClientEnv)
  | call (θ : Thread) (c : TickCall)
  | tickSection (env : ClientEnv) (θ : Thread)

/-- Before the threads start. -/
def ClientState.init : ClientState := ⟨⟨none, none, none⟩, .idle, fun _ => .idle⟩

/-- One step. A thread that is inside a function does not start another. -/
def clientStep (mp : Msgpack) (m : ClientState) :
    ClientEvent → Option (ClientState × List ClientOutput)
  | .receive env data =>
    if m.net = .idle then
      (netReceive mp env m.shared data).map fun r => ({ m with shared := r.1, net := r.2 }, [])
    else none
  | .netSection env =>
    (netSection env m.shared m.net).map fun r => ({ m with shared := r.1, net := r.2 }, [])
  | .call θ c =>
    if m.tick θ = .idle then
      some ({ m with tick := Function.update m.tick θ (startTick m.shared c).1 },
        (startTick m.shared c).2)
    else none
  | .tickSection env θ =>
    (tickSection mp env m.shared (m.tick θ)).map fun r =>
      ({ m with shared := r.1, tick := Function.update m.tick θ r.2.1 }, r.2.2)

/-- **The client.** -/
def client (mp : Msgpack) : System ClientState ClientEvent ClientOutput := ⟨clientStep mp⟩

/-- A client that has just become the master. -/
def newMaster : ClientState :=
  ⟨⟨some ⟨0, true⟩, some .zero, some fun i => ⟨UInt32.ofNat (i + 1), 0, 0⟩⟩, .idle, fun _ => .idle⟩

theorem newMaster_reachable : Reachable (client reference) .init newMaster := by
  have hparse : ifbPtclTryParseMessageByType
      (frame .resUserInfo (some (userInfoBytes reference ⟨0, true⟩))) =
        .ok (.resUserInfo, some (userInfoBytes reference ⟨0, true⟩)) :=
    parse_frame rfl (by decide +kernel)
  have hunpack := unpack_userInfoBytes reference_lawful ClientEnv.ideal.net.reader ⟨0, true⟩ []
  rw [List.append_nil] at hunpack
  have hs : (client reference).step .init
      (.receive .ideal (frame .resUserInfo (some (userInfoBytes reference ⟨0, true⟩)))) =
        some (⟨⟨some ⟨0, true⟩, none, none⟩, .initGameState, fun _ => .idle⟩, []) := by
    simp only [client, clientStep, ClientState.init, netReceive, hparse, hunpack]
    rfl
  exact ⟨_, Run.cons hs (Run.cons (e := .netSection .ideal) rfl
    (Run.single (e := .netSection .ideal) rfl))⟩

/-- The copy of `CURRENT_GAME_STATE` a call will write back. -/
def heldCopy : TickPc → Option GameState
  | .collectInputs _ gs => some gs
  | .writeBack _ gs => some gs
  | _ => none

/-- A step leaves the copies alone, or gives some up. -/
def KeepsCopies (m m' : ClientState) : Prop :=
  ∀ θ, heldCopy (m'.tick θ) = heldCopy (m.tick θ) ∨ heldCopy (m'.tick θ) = none

/-- The `SLAVE_CONNECTED` for slave `k` an event delivers. -/
def Connects (mp : Msgpack) (e : ClientEvent) (k : Fin othersCount) : Prop :=
  ∃ env data payload ui, e = .receive env data ∧
    ifbPtclTryParseMessageByType data = .ok (.slaveConnected, payload) ∧
    ifbFunTryUnpackUserInfo mp env.net.reader payload = .ok ui ∧ slaveIndex ui.id = some k

/-- The write-back an event performs: whose call, with which state. -/
def WritesBack (m : ClientState) (e : ClientEvent) (c : TickCall) (gs : GameState) : Prop :=
  ∃ env θ, e = .tickSection env θ ∧ m.tick θ = .writeBack c gs

variable {mp : Msgpack} {m m' : ClientState} {e : ClientEvent} {out : List ClientOutput}

/-- What `handle_on_slave_connected` does to the state. -/
theorem handleOnSlaveConnected_cases (ui : UserInfo) (s : Shared) :
    handleOnSlaveConnected ui s = s ∨ ∃ gs k, s.currentGameState = some gs ∧
      slaveIndex ui.id = some k ∧
      (handleOnSlaveConnected ui s).currentGameState = some (connectSlave gs k) := by
  unfold handleOnSlaveConnected
  split
  · rename_i gs k hgs hk
    exact .inr ⟨gs, k, hgs, hk, rfl⟩
  · exact .inl rfl

theorem handleOnSlaveConnected_frame (ui : UserInfo) (s : Shared) :
    (handleOnSlaveConnected ui s).myUserInfo = s.myUserInfo ∧
      (handleOnSlaveConnected ui s).lastPlayerInputs = s.lastPlayerInputs := by
  unfold handleOnSlaveConnected
  split <;> exact ⟨rfl, rfl⟩

/-- What a player input does: nothing, or it replaces the input of the slave it is for. -/
theorem updateGamesState_cases {pi : PlayerInput} {s s' : Shared}
    (h : updateGamesStateBySlaveInput pi s = some s') :
    s' = s ∨ ∃ k inputs, slaveIndex pi.id = some k ∧ s.lastPlayerInputs = some inputs ∧
      s' = { s with
        lastPlayerInputs :=
          some (Function.update inputs k { inputs k with x := pi.x, y := pi.y }) } := by
  unfold updateGamesStateBySlaveInput at h
  split at h
  · cases h
    exact .inl rfl
  · rename_i k hk
    split at h
    · cases h
    · rename_i inputs hin
      cases h
      exact .inr ⟨k, inputs, hk, hin, rfl⟩

/-- What a master does with a player input. -/
theorem receive_playerInput {env : ClientEnv} {s : Shared} {data : Bytes} {p : Option Bytes}
    {pi : PlayerInput} (hmaster : s.myUserInfo.any UserInfo.isMaster = true)
    (hparse : ifbPtclTryParseMessageByType data = .ok (.playerInput, p))
    (hpi : ifbTryUnpackPlayerInput mp env.net.reader p = .ok pi) :
    netReceive mp env s data =
      (updateGamesStateBySlaveInput pi s).map fun s' => (s', .idle) := by
  simp only [netReceive, hparse, hmaster, if_true, hpi]

/-- **All a received packet can do**: nothing, replace the user info, announce a slave, or replace
the input of one. -/
theorem netReceive_cases {env : ClientEnv} {s s' : Shared} {data : Bytes} {pc : NetPc}
    (h : netReceive mp env s data = some (s', pc)) :
    (s' = s ∧ pc = .idle) ∨
    (∃ payload ui, ifbPtclTryParseMessageByType data = .ok (.resUserInfo, payload) ∧
      ifbFunTryUnpackUserInfo mp env.net.reader payload = .ok ui ∧
      s' = { s with myUserInfo := some ui } ∧ pc = if ui.isMaster then .initGameState else .idle) ∨
    (∃ payload ui, ifbPtclTryParseMessageByType data = .ok (.slaveConnected, payload) ∧
      ifbFunTryUnpackUserInfo mp env.net.reader payload = .ok ui ∧
      s' = handleOnSlaveConnected ui s ∧ pc = .idle) ∨
    ∃ payload pi k inputs, ifbPtclTryParseMessageByType data = .ok (.playerInput, payload) ∧
      s.myUserInfo.any UserInfo.isMaster = true ∧
      ifbTryUnpackPlayerInput mp env.net.reader payload = .ok pi ∧ slaveIndex pi.id = some k ∧
      s.lastPlayerInputs = some inputs ∧
      s' = { s with
        lastPlayerInputs :=
          some (Function.update inputs k { inputs k with x := pi.x, y := pi.y }) } ∧
      pc = .idle := by
  unfold netReceive at h
  split at h
  · cases h
    exact .inl ⟨rfl, rfl⟩
  · rename_i payload hparse
    split at h
    · cases h
    · cases h
      exact .inl ⟨rfl, rfl⟩
    · rename_i ui hui
      split at h
      · cases h
        exact .inr (.inl ⟨payload, ui, hparse, hui, rfl, rfl⟩)
      · cases h
  · split at h
    · cases h
    · cases h
      exact .inl ⟨rfl, rfl⟩
  · rename_i payload hparse
    split at h
    · cases h
    · cases h
      exact .inl ⟨rfl, rfl⟩
    · rename_i ui hui
      cases h
      exact .inr (.inr (.inl ⟨payload, ui, hparse, hui, rfl, rfl⟩))
  · rename_i payload hparse
    split at h
    · rename_i hmaster
      split at h
      · cases h
      · cases h
        exact .inl ⟨rfl, rfl⟩
      · rename_i pi hpi
        obtain ⟨s₁, hs₁, heq⟩ := Option.map_eq_some_iff.mp h
        cases heq
        rcases updateGamesState_cases hs₁ with rfl | ⟨k, inputs, hk, hin, rfl⟩
        · exact .inl ⟨rfl, rfl⟩
        · exact .inr (.inr (.inr ⟨payload, pi, k, inputs, hparse, hmaster, hpi, hk, hin, rfl, rfl⟩))
    · cases h
      exact .inl ⟨rfl, rfl⟩
  · cases h
    exact .inl ⟨rfl, rfl⟩

/-- A received packet leaves the state alone, or sets the flag of the slave it announces. -/
theorem netReceive_state {env : ClientEnv} {s s' : Shared} {data : Bytes} {pc : NetPc}
    (h : netReceive mp env s data = some (s', pc)) :
    s'.currentGameState = s.currentGameState ∨ ∃ gs k, s.currentGameState = some gs ∧
      Connects mp (.receive env data) k ∧ s'.currentGameState = some (connectSlave gs k) := by
  rcases netReceive_cases h with ⟨rfl, -⟩ | ⟨payload, ui, -, -, rfl, -⟩ |
    ⟨payload, ui, hparse, hui, rfl, -⟩ | ⟨payload, pi, k, inputs, -, -, -, -, -, rfl, -⟩
  · exact .inl rfl
  · exact .inl rfl
  · rcases handleOnSlaveConnected_cases ui s with he | ⟨gs, k, hgs, hk, he⟩
    · exact .inl (congrArg Shared.currentGameState he)
    · exact .inr ⟨gs, k, hgs, ⟨env, data, payload, ui, rfl, hparse, hui, hk⟩, he⟩
  · exact .inl rfl

/-- All a section of `attempt_init_current_game_state_by_master` can do: nothing, or create what is
not there. -/
theorem netSection_cases {env : ClientEnv} {s s' : Shared} {p q : NetPc}
    (h : netSection env s p = some (s', q)) :
    s' = s ∨
    (s.currentGameState = none ∧ s' = { s with currentGameState := some .zero }) ∨
    s.lastPlayerInputs = none ∧
      s' = { s with lastPlayerInputs := some fun i => ⟨UInt32.ofNat (i + 1), 0, 0⟩ } := by
  cases p with
  | idle => cases h
  | initGameState =>
    simp only [netSection] at h
    split at h
    · cases h
      exact .inl rfl
    · rename_i hnone
      split_ifs at h
      cases h
      exact .inr (.inl ⟨hnone, rfl⟩)
  | initPlayerInputs =>
    simp only [netSection] at h
    split at h
    · cases h
      exact .inl rfl
    · rename_i hnone
      split_ifs at h
      · cases h
        exact .inr (.inr ⟨hnone, rfl⟩)
      · cases h
        exact .inl rfl

/-- Where a section of `attempt_init_current_game_state_by_master` leads, and what it does to
`LAST_PLAYER_INPUTS`. -/
theorem netSection_inputs {env : ClientEnv} {s s' : Shared} {p q : NetPc}
    (h : netSection env s p = some (s', q)) : s'.myUserInfo = s.myUserInfo ∧
      ((p = .initGameState ∧ q = .initPlayerInputs ∧ s'.lastPlayerInputs = s.lastPlayerInputs) ∨
        p = .initPlayerInputs ∧ q = .idle ∧ (s'.lastPlayerInputs ≠ none ∨
          s.lastPlayerInputs = none ∧ s'.lastPlayerInputs = none ∧
            env.mallocPlayerInputs = false)) := by
  cases p with
  | idle => cases h
  | initGameState =>
    simp only [netSection] at h
    split at h
    · cases h
      exact ⟨rfl, .inl ⟨rfl, rfl, rfl⟩⟩
    · split_ifs at h
      cases h
      exact ⟨rfl, .inl ⟨rfl, rfl, rfl⟩⟩
  | initPlayerInputs =>
    simp only [netSection] at h
    split at h
    · rename_i inputs hin
      cases h
      exact ⟨rfl, .inr ⟨rfl, rfl, .inl (by simp [hin])⟩⟩
    · rename_i hnull
      split_ifs at h with hmalloc
      · cases h
        exact ⟨rfl, .inr ⟨rfl, rfl, .inl (by simp)⟩⟩
      · cases h
        exact ⟨rfl, .inr ⟨rfl, rfl, .inr ⟨hnull, hnull, Bool.eq_false_iff.mpr hmalloc⟩⟩⟩

/-- **All a section of a call can do**: leave the globals alone and hold no copy after it, take a
copy, add the others' inputs to it, or write it back. -/
theorem tickSection_cases {env : ClientEnv} {s s' : Shared} {p q : TickPc}
    (h : tickSection mp env s p = some (s', q, out)) :
    (s' = s ∧ heldCopy q = none ∧ ∀ c gs, p ≠ .writeBack c gs) ∨
    (∃ c gs, p = .copyState c ∧ s.currentGameState = some gs ∧ s' = s ∧
      q = .collectInputs c (ownInput c gs)) ∨
    (∃ c gs inputs, p = .collectInputs c gs ∧ s.lastPlayerInputs = some inputs ∧ s' = s ∧
      q = .writeBack c (othersInputs inputs gs)) ∨
    ∃ c gs old, p = .writeBack c gs ∧ s.currentGameState = some old ∧
      s' = { s with currentGameState := some gs } ∧ q = .sendState := by
  cases p with
  | idle => cases h
  | copyState c =>
    simp only [tickSection] at h
    split at h
    · cases h
      exact .inl ⟨rfl, rfl, by simp⟩
    · rename_i gs hgs
      cases h
      exact .inr (.inl ⟨c, gs, rfl, hgs, rfl, rfl⟩)
  | collectInputs c gs =>
    simp only [tickSection] at h
    split at h
    · cases h
    · rename_i inputs hin
      cases h
      exact .inr (.inr (.inl ⟨c, gs, inputs, rfl, hin, rfl, rfl⟩))
  | writeBack c gs =>
    simp only [tickSection] at h
    split at h
    · cases h
    · rename_i old hold
      cases h
      exact .inr (.inr (.inr ⟨c, gs, old, rfl, hold, rfl, rfl⟩))
  | sendState =>
    simp only [tickSection] at h
    split at h
    · cases h
      exact .inl ⟨rfl, rfl, by simp⟩
    · cases h
      exact .inl ⟨rfl, rfl, by simp⟩
  | slaveTick c =>
    obtain ⟨o, -, heq⟩ := Option.map_eq_some_iff.mp h
    cases heq
    exact .inl ⟨rfl, rfl, by simp⟩

/-- A call starts without a copy. -/
theorem heldCopy_startTick (s : Shared) (c : TickCall) : heldCopy (startTick s c).1 = none := by
  unfold startTick
  split
  · rfl
  · split <;> rfl

/-- A thread that moves to a place without a copy. -/
theorem keepsCopies_update {θ : Thread} {pc : TickPc} (hpc : heldCopy pc = none) (s : Shared)
    (net : NetPc) : KeepsCopies m ⟨s, net, Function.update m.tick θ pc⟩ := by
  intro θ'
  show heldCopy (Function.update m.tick θ pc θ') = _ ∨ heldCopy (Function.update m.tick θ pc θ') = _
  by_cases hθ : θ' = θ
  · rw [hθ, Function.update_self]
    exact .inr hpc
  · rw [Function.update_of_ne hθ]
    exact .inl rfl

/-- **All a step can do to the state and to the copies of it**: leave them alone, create the state,
set a slave's flag, take a copy, add the others' inputs to a copy, or write one back. -/
theorem client_cases (h : (client mp).step m e = some (m', out)) :
    (m'.shared.currentGameState = m.shared.currentGameState ∧ KeepsCopies m m' ∧
      ∀ c gs, ¬ WritesBack m e c gs) ∨
    (m.shared.currentGameState = none ∧ m'.shared.currentGameState = some .zero ∧
      m'.tick = m.tick ∧ ∀ c gs, ¬ WritesBack m e c gs) ∨
    (∃ gs k, m.shared.currentGameState = some gs ∧ Connects mp e k ∧
      m'.shared.currentGameState = some (connectSlave gs k) ∧ m'.tick = m.tick) ∨
    (∃ θ c gs, m.shared.currentGameState = some gs ∧ m'.shared = m.shared ∧
      m'.tick = Function.update m.tick θ (.collectInputs c (ownInput c gs)) ∧
      ∀ c gs, ¬ WritesBack m e c gs) ∨
    (∃ θ c gs inputs, m.tick θ = .collectInputs c gs ∧ m.shared.lastPlayerInputs = some inputs ∧
      m'.shared = m.shared ∧
      m'.tick = Function.update m.tick θ (.writeBack c (othersInputs inputs gs)) ∧
      ∀ c gs, ¬ WritesBack m e c gs) ∨
    ∃ c gs old, WritesBack m e c gs ∧ m.shared.currentGameState = some old ∧
      m'.shared.currentGameState = some gs ∧ KeepsCopies m m' := by
  cases e with
  | receive env data =>
    simp only [client, clientStep] at h
    split_ifs at h
    obtain ⟨⟨s, pc⟩, hr, heq⟩ := Option.map_eq_some_iff.mp h
    cases heq
    rcases netReceive_state hr with hsame | ⟨gs, k, hgs, hk, hset⟩
    · refine .inl ⟨hsame, fun θ => .inl rfl, ?_⟩
      rintro c gs ⟨env', θ, he, -⟩
      cases he
    · exact .inr (.inr (.inl ⟨gs, k, hgs, hk, hset, rfl⟩))
  | netSection env =>
    obtain ⟨⟨s, pc⟩, hr, heq⟩ := Option.map_eq_some_iff.mp h
    cases heq
    have hno : ∀ c gs, ¬ WritesBack m (.netSection env) c gs := by
      rintro c gs ⟨env', θ, he, -⟩
      cases he
    rcases netSection_cases hr with rfl | ⟨hnone, rfl⟩ | ⟨-, rfl⟩
    · exact .inl ⟨rfl, fun θ => .inl rfl, hno⟩
    · exact .inr (.inl ⟨hnone, rfl, rfl, hno⟩)
    · exact .inl ⟨rfl, fun θ => .inl rfl, hno⟩
  | call θ c =>
    simp only [client, clientStep] at h
    split_ifs at h
    cases h
    refine .inl ⟨rfl, keepsCopies_update (heldCopy_startTick _ c) _ _, ?_⟩
    rintro c gs ⟨env', θ', he, -⟩
    cases he
  | tickSection env θ =>
    obtain ⟨⟨s, pc, o⟩, hr, heq⟩ := Option.map_eq_some_iff.mp h
    cases heq
    have hno : (∀ c gs, m.tick θ ≠ .writeBack c gs) →
        ∀ c gs, ¬ WritesBack m (.tickSection env θ) c gs := by
      rintro hne c gs ⟨env', θ', he, hwb⟩
      cases he
      exact hne c gs hwb
    rcases tickSection_cases hr with ⟨rfl, hpc, hne⟩ | ⟨c, gs, hpc, hgs, rfl, rfl⟩ |
      ⟨c, gs, inputs, hpc, hin, rfl, rfl⟩ | ⟨c, gs, old, hpc, hold, rfl, rfl⟩
    · exact .inl ⟨rfl, keepsCopies_update hpc _ _, hno hne⟩
    · exact .inr (.inr (.inr (.inl ⟨θ, c, gs, hgs, rfl, rfl, hno (by simp [hpc])⟩)))
    · exact .inr (.inr (.inr (.inr (.inl ⟨θ, c, gs, inputs, hpc, hin, rfl, rfl,
        hno (by simp [hpc])⟩))))
    · exact .inr (.inr (.inr (.inr (.inr ⟨c, gs, old, ⟨env, θ, rfl, hpc⟩, hold, rfl,
        keepsCopies_update rfl _ _⟩))))

end MasterRelay.Client
