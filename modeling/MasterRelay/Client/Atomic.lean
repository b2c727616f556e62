import MasterRelay.Client.Threads

/-!
# The client, call by call

The same client with whole functions as steps: the handling of one received packet
(`handleReceive`), and one call of `try_execute_tick` (`tryExecuteTick`). Both are what their
sections do when no other thread comes in between (`handleReceive_run`, `tryExecuteTick_run`), so a
run of whole calls is a run of the threads (`atomic_run`).

`handleReceive_cases` and `tryExecuteTick_cases` say all that a call can do.
-/

namespace MasterRelay.Client

open MasterRelay.Lib.MsgPack
open MasterRelay.Lib.Runs
open MasterRelay.Protocol

/-- `attempt_init_current_game_state_by_master`. -/
def attemptInitCurrentGameStateByMaster (env : ClientEnv) (s : Shared) : Option Shared :=
  match netSection env s .initGameState with
  | none => none
  | some r => (netSection env r.1 .initPlayerInputs).map Prod.fst

/-- `handle_net_events_loop`, for a received packet. -/
def handleReceive (mp : Msgpack) (env : ClientEnv) (s : Shared) (data : Bytes) : Option Shared :=
  match netReceive mp env s data with
  | none => none
  | some (s', .idle) => some s'
  | some (s', _) => attemptInitCurrentGameStateByMaster env s'

/-- `try_execute_tick`. -/
def tryExecuteTick (mp : Msgpack) (env : ClientEnv) (s : Shared) (c : TickCall) :
    Option (Shared × List ClientOutput) :=
  match s.myUserInfo with
  | none => some (s, [.returned (.error "MY_USER_INFO is not ready.")])
  | some myUi =>
    if myUi.isMaster then
      match s.currentGameState with
      | none => some (s, [.returned (.error "CURRENT_GAME_STATE is not ready.")])
      | some gameState =>
        match s.lastPlayerInputs with
        | none => none
        | some inputs =>
          let gameState := othersInputs inputs (ownInput c gameState)
          some ({ s with currentGameState := some gameState }, sendGameState mp env gameState)
    else
      (handleCmdSlaveTick mp env s c.userInput).map fun out =>
        (s, out.map .sent ++ [.returned (.ok ())])

/-- A whole call. -/
inductive AtomicEvent where
  | receive (env : ClientEnv) (data : Bytes)
  | tick (env : ClientEnv) (c : TickCall)

/-- One call. -/
def atomicStep (mp : Msgpack) (s : Shared) : AtomicEvent → Option (Shared × List ClientOutput)
  | .receive env data => (handleReceive mp env s data).map fun s' => (s', [])
  | .tick env c => tryExecuteTick mp env s c

/-- **The client, call by call.** -/
def atomicClient (mp : Msgpack) : System Shared AtomicEvent ClientOutput := ⟨atomicStep mp⟩

variable {mp : Msgpack} {s s' : Shared} {out : List ClientOutput}

/-! ## What a call can do -/

/-- What `attempt_init_current_game_state_by_master` does: it creates what is not there. -/
theorem attemptInit_cases {env : ClientEnv}
    (h : attemptInitCurrentGameStateByMaster env s = some s') :
    s'.myUserInfo = s.myUserInfo ∧
      s'.currentGameState = some (s.currentGameState.getD .zero) ∧
      (s.lastPlayerInputs ≠ none → s'.lastPlayerInputs = s.lastPlayerInputs) := by
  unfold attemptInitCurrentGameStateByMaster at h
  split at h
  · cases h
  · rename_i r hr
    obtain ⟨⟨s₂, q⟩, hq, rfl⟩ := Option.map_eq_some_iff.mp h
    have hfirst : r.1.myUserInfo = s.myUserInfo ∧
        r.1.currentGameState = some (s.currentGameState.getD .zero) ∧
        r.1.lastPlayerInputs = s.lastPlayerInputs := by
      simp only [netSection] at hr
      split at hr
      · rename_i gs hgs
        cases hr
        exact ⟨rfl, by rw [hgs]; rfl, rfl⟩
      · rename_i hnone
        split_ifs at hr
        cases hr
        exact ⟨rfl, by rw [hnone]; rfl, rfl⟩
    obtain ⟨hinfo, hstate, hinputs⟩ := hfirst
    rcases netSection_cases hq with rfl | ⟨hnone, -⟩ | ⟨hnone, rfl⟩
    · exact ⟨hinfo, hstate, fun _ => hinputs⟩
    · exact absurd (hstate.symm.trans hnone) (by simp)
    · exact ⟨hinfo, hstate, fun hne => absurd (hinputs.symm.trans hnone) hne⟩

/-- **All the handling of a packet can do**: nothing, replace the user info and, for a master,
create the world, announce a slave, or replace the input of one. -/
theorem handleReceive_cases {env : ClientEnv} {data : Bytes}
    (h : handleReceive mp env s data = some s') :
    s' = s ∨
    (∃ payload ui, ifbPtclTryParseMessageByType data = .ok (.resUserInfo, payload) ∧
      ifbFunTryUnpackUserInfo mp env.net.reader payload = .ok ui ∧
      if ui.isMaster then
        attemptInitCurrentGameStateByMaster env { s with myUserInfo := some ui } = some s'
      else s' = { s with myUserInfo := some ui }) ∨
    (∃ payload ui, ifbPtclTryParseMessageByType data = .ok (.slaveConnected, payload) ∧
      ifbFunTryUnpackUserInfo mp env.net.reader payload = .ok ui ∧
      s' = handleOnSlaveConnected ui s) ∨
    ∃ payload pi k inputs, ifbPtclTryParseMessageByType data = .ok (.playerInput, payload) ∧
      ifbTryUnpackPlayerInput mp env.net.reader payload = .ok pi ∧ slaveIndex pi.id = some k ∧
      s.lastPlayerInputs = some inputs ∧
      s' = { s with
        lastPlayerInputs :=
          some (Function.update inputs k { inputs k with x := pi.x, y := pi.y }) } := by
  unfold handleReceive at h
  split at h
  · cases h
  · rename_i s₁ hr
    cases h
    rcases netReceive_cases hr with ⟨rfl, -⟩ | ⟨payload, ui, hparse, hui, rfl, hpc⟩ |
      ⟨payload, ui, hparse, hui, rfl, -⟩ | ⟨payload, pi, k, inputs, hparse, -, hpi, hk, hin, rfl, -⟩
    · exact .inl rfl
    · refine .inr (.inl ⟨payload, ui, hparse, hui, ?_⟩)
      split_ifs at hpc ⊢
      rfl
    · exact .inr (.inr (.inl ⟨payload, ui, hparse, hui, rfl⟩))
    · exact .inr (.inr (.inr ⟨payload, pi, k, inputs, hparse, hpi, hk, hin, rfl⟩))
  · rename_i s₁ pc hne hr
    rcases netReceive_cases hr with ⟨-, rfl⟩ | ⟨payload, ui, hparse, hui, rfl, hpc⟩ |
      ⟨payload, ui, -, -, -, rfl⟩ | ⟨payload, pi, k, inputs, -, -, -, -, -, -, rfl⟩
    · exact absurd rfl hne
    · refine .inr (.inl ⟨payload, ui, hparse, hui, ?_⟩)
      split_ifs at hpc ⊢
      · exact h
      · exact absurd hpc hne
    · exact absurd rfl hne
    · exact absurd rfl hne

/-- **All a call of `try_execute_tick` can do**: a master that is ready moves the world and sends
it; a slave sends its input; anybody else fails. -/
theorem tryExecuteTick_cases {env : ClientEnv} {c : TickCall}
    (h : tryExecuteTick mp env s c = some (s', out)) :
    (s' = s ∧ ∃ err, out = [.returned (.error err)]) ∨
    (∃ ui gs inputs, s.myUserInfo = some ui ∧ ui.isMaster = true ∧ s.currentGameState = some gs ∧
      s.lastPlayerInputs = some inputs ∧
      s' = { s with currentGameState := some (othersInputs inputs (ownInput c gs)) } ∧
      out = sendGameState mp env (othersInputs inputs (ownInput c gs))) ∨
    ∃ ui sent, s.myUserInfo = some ui ∧ ui.isMaster = false ∧
      handleCmdSlaveTick mp env s c.userInput = some sent ∧ s' = s ∧
      out = sent.map .sent ++ [.returned (.ok ())] := by
  unfold tryExecuteTick at h
  split at h
  · cases h
    exact .inl ⟨rfl, _, rfl⟩
  · rename_i ui hui
    split at h
    · rename_i hmaster
      split at h
      · cases h
        exact .inl ⟨rfl, _, rfl⟩
      · rename_i gs hgs
        split at h
        · cases h
        · rename_i inputs hin
          cases h
          exact .inr (.inl ⟨ui, gs, inputs, hui, hmaster, hgs, hin, rfl, rfl⟩)
    · rename_i hslave
      obtain ⟨sent, hsent, heq⟩ := Option.map_eq_some_iff.mp h
      cases heq
      exact .inr (.inr ⟨ui, sent, hui, Bool.eq_false_iff.mpr hslave, hsent, rfl, rfl⟩)

/-- The call of a master that is ready. -/
theorem tryExecuteTick_master {env : ClientEnv} {c : TickCall} {ui : UserInfo}
    (hmaster : ui.isMaster = true) (gs : GameState) (inputs : Fin othersCount → PlayerInput) :
    tryExecuteTick mp env ⟨some ui, some gs, some inputs⟩ c =
      some (⟨some ui, some (othersInputs inputs (ownInput c gs)), some inputs⟩,
        sendGameState mp env (othersInputs inputs (ownInput c gs))) := by
  simp only [tryExecuteTick, hmaster, if_true]

/-- A player input, to a master that is ready. -/
theorem handleReceive_input {env : ClientEnv} {data : Bytes} {payload : Option Bytes}
    {pi : PlayerInput} {ui : UserInfo} (hmaster : ui.isMaster = true) (gs : Option GameState)
    (inputs : Fin othersCount → PlayerInput)
    (hparse : ifbPtclTryParseMessageByType data = .ok (.playerInput, payload))
    (hpi : ifbTryUnpackPlayerInput mp env.net.reader payload = .ok pi) {k : Fin othersCount}
    (hk : slaveIndex pi.id = some k) :
    handleReceive mp env ⟨some ui, gs, some inputs⟩ data = some ⟨some ui, gs,
      some (Function.update inputs k { inputs k with x := pi.x, y := pi.y })⟩ := by
  have hany : (some ui).any UserInfo.isMaster = true := hmaster
  have hr := receive_playerInput (s := ⟨some ui, gs, some inputs⟩) hany hparse hpi
  rw [updateGamesStateBySlaveInput, hk] at hr
  unfold handleReceive
  rw [hr]
  rfl

/-! ## Calls and sections -/

/-- The steps bring no packet. -/
def NoPacket (tr : List (Step ClientState ClientEvent ClientOutput)) : Prop :=
  ∀ x ∈ tr, ∀ env data, x.event ≠ .receive env data

/-- Between two calls of every thread. -/
def idleClient (s : Shared) : ClientState := ⟨s, .idle, fun _ => .idle⟩

theorem receive_step {env : ClientEnv} {data : Bytes} {pc : NetPc}
    (h : netReceive mp env s data = some (s', pc)) :
    (client mp).step (idleClient s) (.receive env data) =
      some ({ idleClient s' with net := pc }, []) := by
  simp only [client, clientStep, idleClient, if_true, h, Option.map_some]

theorem netSection_step {env : ClientEnv} {pc pc' : NetPc}
    (h : netSection env s pc = some (s', pc')) :
    (client mp).step { idleClient s with net := pc } (.netSection env) =
      some ({ idleClient s' with net := pc' }, []) := by
  simp only [client, clientStep, idleClient, h, Option.map_some]

/-- **A packet is handled section by section**: the first when it comes, the others after it. -/
theorem handleReceive_sections {env : ClientEnv} {data : Bytes}
    (h : handleReceive mp env s data = some s') :
    ∃ s₁ pc tr, netReceive mp env s data = some (s₁, pc) ∧
      Run (client mp) { idleClient s₁ with net := pc } tr (idleClient s') ∧ outputs tr = [] ∧
      NoPacket tr := by
  unfold handleReceive at h
  split at h
  · cases h
  · rename_i s₁ hr
    cases h
    exact ⟨s', .idle, [], hr, Run.nil _, rfl, by simp [NoPacket]⟩
  · rename_i s₁ pc hne hr
    -- only a master goes on, to the first section
    have hpc : pc = .initGameState := by
      cases pc with
      | idle => exact absurd rfl hne
      | initGameState => rfl
      | initPlayerInputs =>
        rcases netReceive_cases hr with ⟨-, hpc⟩ | ⟨payload, ui, -, -, -, hpc⟩ |
          ⟨payload, ui, -, -, -, hpc⟩ | ⟨payload, pi, k, inputs, -, -, -, -, -, -, hpc⟩
        · cases hpc
        · split_ifs at hpc
        · cases hpc
        · cases hpc
    subst hpc
    unfold attemptInitCurrentGameStateByMaster at h
    split at h
    · cases h
    · rename_i r hr₁
      obtain ⟨⟨s₃, q⟩, hq, rfl⟩ := Option.map_eq_some_iff.mp h
      obtain ⟨s₂, pc₂⟩ := r
      obtain ⟨-, ⟨-, rfl, -⟩ | ⟨hpc, -⟩⟩ := netSection_inputs hr₁
      · obtain ⟨-, ⟨hpc, -⟩ | ⟨-, rfl, -⟩⟩ := netSection_inputs hq
        · cases hpc
        · exact ⟨s₁, .initGameState, _, hr, Run.cons (netSection_step hr₁)
            (Run.single (netSection_step hq)), rfl, by simp [NoPacket]⟩
      · cases hpc

theorem handleReceive_run {env : ClientEnv} {data : Bytes}
    (h : handleReceive mp env s data = some s') :
    ∃ tr, Run (client mp) (idleClient s) tr (idleClient s') ∧ outputs tr = [] := by
  obtain ⟨s₁, pc, tr, hr, hrun, hout, -⟩ := handleReceive_sections h
  exact ⟨_, Run.cons (receive_step hr) hrun, hout⟩

/-- A client whose main thread is inside a call. -/
def insideTick (s : Shared) (pc : TickPc) : ClientState :=
  ⟨s, .idle, Function.update (fun _ => .idle) .main pc⟩

theorem insideTick_idle (s : Shared) : insideTick s .idle = idleClient s := by
  unfold insideTick idleClient
  rw [Function.update_eq_self]

theorem call_step (s : Shared) (c : TickCall) :
    (client mp).step (idleClient s) (.call .main c) =
      some (insideTick s (startTick s c).1, (startTick s c).2) := rfl

theorem tickSection_step {env : ClientEnv} {pc pc' : TickPc}
    (h : tickSection mp env s pc = some (s', pc', out)) :
    (client mp).step (insideTick s pc) (.tickSection env .main) =
      some (insideTick s' pc', out) := by
  simp only [client, clientStep, insideTick, Function.update_self, h, Option.map_some,
    Function.update_idem]

/-- **A call is executed section by section.** -/
theorem tryExecuteTick_run {env : ClientEnv} {c : TickCall}
    (h : tryExecuteTick mp env s c = some (s', out)) :
    ∃ tr, Run (client mp) (idleClient s) tr (idleClient s') ∧ outputs tr = out ∧ NoPacket tr := by
  unfold tryExecuteTick at h
  have hcall : (client mp).step (idleClient s) (.call .main c) = _ := call_step s c
  split at h
  · rename_i hui
    cases h
    rw [startTick, hui] at hcall
    simp only [insideTick_idle] at hcall
    exact ⟨_, Run.single hcall, rfl, by simp [NoPacket]⟩
  · rename_i ui hui
    rw [startTick, hui] at hcall
    split at h
    · rename_i hmaster
      simp only [hmaster, if_true] at hcall
      split at h
      · rename_i hgs
        cases h
        have hcopy : (client mp).step (insideTick s (.copyState c)) (.tickSection env .main) = _ :=
          tickSection_step (by rw [tickSection, hgs])
        rw [insideTick_idle] at hcopy
        exact ⟨_, Run.cons hcall (Run.single hcopy), rfl, by simp [NoPacket]⟩
      · rename_i gs hgs
        split at h
        · cases h
        · rename_i inputs hin
          cases h
          have hcopy : (client mp).step (insideTick s (.copyState c))
              (.tickSection env .main) = _ :=
            tickSection_step (by rw [tickSection, hgs])
          have hcollect : (client mp).step (insideTick s (.collectInputs c (ownInput c gs)))
              (.tickSection env .main) = _ :=
            tickSection_step (by rw [tickSection, hin])
          have hwrite : (client mp).step
              (insideTick s (.writeBack c (othersInputs inputs (ownInput c gs))))
              (.tickSection env .main) = _ :=
            tickSection_step (by rw [tickSection, hgs])
          have hsend : (client mp).step
              (insideTick { s with
                currentGameState := some (othersInputs inputs (ownInput c gs)) } .sendState)
              (.tickSection env .main) = _ :=
            tickSection_step rfl
          rw [insideTick_idle] at hsend
          refine ⟨_, Run.cons hcall (Run.cons hcopy (Run.cons hcollect (Run.cons hwrite
            (Run.single hsend)))), ?_, by simp [NoPacket]⟩
          simp [outputs]
    · rename_i hslave
      obtain ⟨sent, hsent, heq⟩ := Option.map_eq_some_iff.mp h
      cases heq
      simp only [hslave, Bool.false_eq_true, if_false] at hcall
      have hsection : (client mp).step (insideTick s (.slaveTick c)) (.tickSection env .main) = _ :=
        tickSection_step (by rw [tickSection, hsent, Option.map_some])
      rw [insideTick_idle] at hsection
      refine ⟨_, Run.cons hcall (Run.single hsection), ?_, by simp [NoPacket]⟩
      simp [outputs]

/-- **A run of whole calls is a run of the threads.** -/
theorem atomic_run {tr : List (Step Shared AtomicEvent ClientOutput)}
    (hr : Run (atomicClient mp) s tr s') :
    ∃ tu, Run (client mp) (idleClient s) tu (idleClient s') ∧ outputs tu = outputs tr := by
  refine hr.expand (f := idleClient) fun s e s' out hs => ?_
  cases e with
  | receive env data =>
    obtain ⟨s₁, hs₁, heq⟩ := Option.map_eq_some_iff.mp hs
    cases heq
    exact handleReceive_run hs₁
  | tick env c =>
    obtain ⟨tu, hrun, hout, -⟩ := tryExecuteTick_run hs
    exact ⟨tu, hrun, hout⟩

end MasterRelay.Client
