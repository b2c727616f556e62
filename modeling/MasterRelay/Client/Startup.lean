import MasterRelay.Client.Threads

/-!
# A master that is not ready

`MY_USER_INFO`, `CURRENT_GAME_STATE` and `LAST_PLAYER_INPUTS` are published one after the other. A
call of `try_execute_tick` looks at the first two only; the net thread, when it handles a player
input, at the first only. `DereferencesNull` says that the step an event would take goes through
`LAST_PLAYER_INPUTS` while it is NULL; such a step does not happen in the model
(`dereferencesNull_faults`).

`Guarded` says of a state that no step does, in terms of where the threads stand (`guarded_iff`).
Two kinds of steps break it, and no other: a call that copies the state before the inputs are there
(`CopiesEarly`), and a `malloc` of the inputs that fails (`InputsMallocFails`).

**`startup_safe_iff`**: a run is safe exactly when it has neither.
-/

namespace MasterRelay.Client

open MasterRelay.Lib.MsgPack
open MasterRelay.Lib.Runs
open MasterRelay.Protocol

/-- The step goes through `LAST_PLAYER_INPUTS` while it is NULL: in the loop of `try_execute_tick`,
or in `update_games_state_by_slave_input`. -/
def DereferencesNull (mp : Msgpack) (m : ClientState) (e : ClientEvent) : Prop :=
  m.shared.lastPlayerInputs = none ∧
    ((∃ env θ c gs, e = .tickSection env θ ∧ m.tick θ = .collectInputs c gs) ∨
      ∃ env data payload pi k, e = .receive env data ∧ m.net = .idle ∧
        m.shared.myUserInfo.any UserInfo.isMaster = true ∧
        ifbPtclTryParseMessageByType data = .ok (.playerInput, payload) ∧
        ifbTryUnpackPlayerInput mp env.net.reader payload = .ok pi ∧ slaveIndex pi.id = some k)

/-- A call copies `*CURRENT_GAME_STATE` while `LAST_PLAYER_INPUTS` is NULL. -/
def CopiesEarly (x : Step ClientState ClientEvent ClientOutput) : Prop :=
  ∃ env θ c gs, x.event = .tickSection env θ ∧ x.pre.tick θ = .copyState c ∧
    x.pre.shared.currentGameState = some gs ∧ x.pre.shared.lastPlayerInputs = none

/-- The `malloc` of `LAST_PLAYER_INPUTS` fails. -/
def InputsMallocFails (x : Step ClientState ClientEvent ClientOutput) : Prop :=
  ∃ env, x.event = .netSection env ∧ x.pre.net = .initPlayerInputs ∧
    x.pre.shared.lastPlayerInputs = none ∧ env.mallocPlayerInputs = false

variable {mp : Msgpack} {m m' : ClientState} {e : ClientEvent} {out : List ClientOutput}

/-- The process faults there. -/
theorem dereferencesNull_faults (h : DereferencesNull mp m e) : (client mp).step m e = none := by
  obtain ⟨hnull, ⟨env, θ, c, gs, rfl, hpc⟩ |
    ⟨env, data, payload, pi, k, rfl, hnet, hmaster, hparse, hpi, hk⟩⟩ := h
  · simp only [client, clientStep, hpc, tickSection, hnull, Option.map_none]
  · simp only [client, clientStep, hnet, if_true, netReceive, hparse, hmaster, hpi,
      updateGamesStateBySlaveInput, hk, hnull, Option.map_none]

/-- **No step can go through a NULL `LAST_PLAYER_INPUTS`**: while it is NULL no call is about to
collect inputs, and the net thread, between two events, is not a master's. -/
def Guarded (m : ClientState) : Prop :=
  m.shared.lastPlayerInputs = none → (∀ θ c gs, m.tick θ ≠ .collectInputs c gs) ∧
    (m.net = .idle → m.shared.myUserInfo.any UserInfo.isMaster = false)

theorem guarded_iff (hmp : mp.Lawful) : Guarded m ↔ ∀ e, ¬ DereferencesNull mp m e := by
  constructor
  · rintro h e ⟨hnull, ⟨env, θ, c, gs, -, hpc⟩ | ⟨env, data, payload, pi, k, -, hnet, hmaster, -⟩⟩
    · exact (h hnull).1 θ c gs hpc
    · exact absurd hmaster (by simp [(h hnull).2 hnet])
  · intro h hnull
    refine ⟨fun θ c gs hpc => h (.tickSection .ideal θ) ⟨hnull, .inl ⟨_, θ, c, gs, rfl, hpc⟩⟩,
      fun hnet => ?_⟩
    rw [← Bool.not_eq_true]
    intro hmaster
    -- the input of slave 1 would be stored
    have hunpack := unpack_playerInputBytes hmp ClientEnv.ideal.net.reader ⟨1, 0, 0⟩ []
    rw [List.append_nil] at hunpack
    exact h (.receive .ideal (inputPacket mp ⟨1, 0, 0⟩)) ⟨hnull, .inr ⟨_, _, _, _, 0, rfl, hnet,
      hmaster, parse_inputPacket hmp _, hunpack, rfl⟩⟩

theorem guarded_init : Guarded .init :=
  fun _ => ⟨fun _ _ _ h => (by cases h), fun _ => rfl⟩

/-- While the net thread creates the world, the client is a master. -/
def InitByMaster (m : ClientState) : Prop :=
  m.net ≠ .idle → m.shared.myUserInfo.any UserInfo.isMaster = true

/-- A thread that moves to a place other than before its loop over the inputs. -/
theorem not_collect_update {tick : Thread → TickPc} {θ : Thread} {pc : TickPc}
    (h : ∀ θ c gs, tick θ ≠ .collectInputs c gs) (hpc : ∀ c gs, pc ≠ .collectInputs c gs)
    (θ' : Thread) (c : TickCall) (gs : GameState) :
    Function.update tick θ pc θ' ≠ .collectInputs c gs := by
  by_cases hθ : θ' = θ
  · rw [hθ, Function.update_self]
    exact hpc c gs
  · rw [Function.update_of_ne hθ]
    exact h θ' c gs

/-- A place without a copy is not before the loop. -/
theorem not_collect_of_heldCopy {pc : TickPc} (h : heldCopy pc = none) (c : TickCall)
    (gs : GameState) : pc ≠ .collectInputs c gs := by
  rintro rfl
  cases h

/-- **A step that is neither keeps the guard.** -/
theorem guarded_step (h : Guarded m) (hs : (client mp).step m e = some (m', out))
    (hcopy : ¬ CopiesEarly ⟨m, e, out, m'⟩) (hmalloc : ¬ InputsMallocFails ⟨m, e, out, m'⟩) :
    Guarded m' := by
  cases e with
  | receive env data =>
    simp only [client, clientStep] at hs
    split_ifs at hs with hnet
    obtain ⟨⟨s, pc⟩, hr, heq⟩ := Option.map_eq_some_iff.mp hs
    cases heq
    rcases netReceive_cases hr with ⟨rfl, rfl⟩ | ⟨payload, ui, -, -, rfl, rfl⟩ |
      ⟨payload, ui, -, -, rfl, rfl⟩ | ⟨payload, pi, k, inputs, -, -, -, -, hin, rfl, rfl⟩
    · exact fun hnull => ⟨(h hnull).1, fun _ => (h hnull).2 hnet⟩
    · refine fun hnull => ⟨(h hnull).1, fun hidle => ?_⟩
      -- a master goes on to create the world
      show ui.isMaster = false
      rw [← Bool.not_eq_true]
      intro hmaster
      simp only [hmaster, if_true] at hidle
      cases hidle
    · obtain ⟨hinfo, hinputs⟩ := handleOnSlaveConnected_frame ui m.shared
      intro hnull
      have hnull' : m.shared.lastPlayerInputs = none := hinputs ▸ hnull
      refine ⟨(h hnull').1, fun _ => ?_⟩
      show (handleOnSlaveConnected ui m.shared).myUserInfo.any UserInfo.isMaster = false
      rw [hinfo]
      exact (h hnull').2 hnet
    · intro hnull
      cases hnull
  | netSection env =>
    obtain ⟨⟨s, pc⟩, hr, heq⟩ := Option.map_eq_some_iff.mp hs
    cases heq
    obtain ⟨-, ⟨-, rfl, hinputs⟩ | ⟨hpc, rfl, hin | ⟨hnull, -, hfail⟩⟩⟩ := netSection_inputs hr
    · intro hnull
      have hnull' : m.shared.lastPlayerInputs = none := hinputs ▸ hnull
      refine ⟨(h hnull').1, fun hidle => ?_⟩
      cases hidle
    · exact fun hnull => absurd hnull hin
    · exact absurd ⟨env, rfl, hpc, hnull, hfail⟩ hmalloc
  | call θ c =>
    simp only [client, clientStep] at hs
    split_ifs at hs
    cases hs
    exact fun hnull => ⟨not_collect_update (h hnull).1
      (not_collect_of_heldCopy (heldCopy_startTick _ c)), (h hnull).2⟩
  | tickSection env θ =>
    obtain ⟨⟨s, pc, o⟩, hr, heq⟩ := Option.map_eq_some_iff.mp hs
    cases heq
    rcases tickSection_cases hr with ⟨rfl, hpc, -⟩ | ⟨c, gs, hpc, hgs, rfl, rfl⟩ |
      ⟨c, gs, inputs, -, hin, rfl, rfl⟩ | ⟨c, gs, old, -, -, rfl, rfl⟩
    · exact fun hnull => ⟨not_collect_update (h hnull).1 (not_collect_of_heldCopy hpc),
        (h hnull).2⟩
    · exact fun hnull => absurd ⟨env, θ, c, gs, rfl, hpc, hgs, hnull⟩ hcopy
    · exact fun hnull => absurd (hin.symm.trans hnull) (by simp)
    · exact fun hnull => ⟨not_collect_update (h hnull).1 (by simp), (h hnull).2⟩

/-- Every step keeps the net thread's place a master's. -/
theorem initByMaster_step (h : InitByMaster m) (hs : (client mp).step m e = some (m', out)) :
    InitByMaster m' := by
  cases e with
  | receive env data =>
    simp only [client, clientStep] at hs
    split_ifs at hs
    obtain ⟨⟨s, pc⟩, hr, heq⟩ := Option.map_eq_some_iff.mp hs
    cases heq
    rcases netReceive_cases hr with ⟨-, rfl⟩ | ⟨payload, ui, -, -, rfl, rfl⟩ |
      ⟨payload, ui, -, -, -, rfl⟩ | ⟨payload, pi, k, inputs, -, -, -, -, -, -, rfl⟩
    · exact fun hne => absurd rfl hne
    · intro hne
      show ui.isMaster = true
      by_contra hslave
      exact hne (if_neg hslave)
    · exact fun hne => absurd rfl hne
    · exact fun hne => absurd rfl hne
  | netSection env =>
    obtain ⟨⟨s, pc⟩, hr, heq⟩ := Option.map_eq_some_iff.mp hs
    cases heq
    obtain ⟨hinfo, ⟨hpc, rfl, -⟩ | ⟨-, rfl, -⟩⟩ := netSection_inputs hr
    · intro _
      show s.myUserInfo.any UserInfo.isMaster = true
      rw [hinfo]
      exact h (by simp [hpc])
    · exact fun hne => absurd rfl hne
  | call θ c =>
    simp only [client, clientStep] at hs
    split_ifs at hs
    cases hs
    exact h
  | tickSection env θ =>
    obtain ⟨⟨s, pc, o⟩, hr, heq⟩ := Option.map_eq_some_iff.mp hs
    cases heq
    rcases tickSection_cases hr with ⟨rfl, -⟩ | ⟨c, gs, -, -, rfl, -⟩ |
      ⟨c, gs, inputs, -, -, rfl, -⟩ | ⟨c, gs, old, -, -, rfl, -⟩ <;> exact h

/-- **A step that copies early breaks the guard.** -/
theorem not_guarded_of_copiesEarly (hs : (client mp).step m e = some (m', out))
    (h : CopiesEarly ⟨m, e, out, m'⟩) : ¬ Guarded m' := by
  obtain ⟨env, θ, c, gs, he, hpc, hgs, hnull⟩ := h
  obtain rfl : e = .tickSection env θ := he
  have hpc' : m.tick θ = .copyState c := hpc
  have hgs' : m.shared.currentGameState = some gs := hgs
  simp only [client, clientStep, hpc', tickSection, hgs', Option.map_some, Option.some.injEq,
    Prod.mk.injEq] at hs
  obtain ⟨rfl, -⟩ := hs
  exact fun hg => (hg hnull).1 θ c (ownInput c gs) (Function.update_self ..)

/-- **So does a `malloc` that fails.** -/
theorem not_guarded_of_mallocFails (hinit : InitByMaster m)
    (hs : (client mp).step m e = some (m', out)) (h : InputsMallocFails ⟨m, e, out, m'⟩) :
    ¬ Guarded m' := by
  obtain ⟨env, he, hpc, hnull, hfail⟩ := h
  obtain rfl : e = .netSection env := he
  have hpc' : m.net = .initPlayerInputs := hpc
  have hnull' : m.shared.lastPlayerInputs = none := hnull
  have hmaster := hinit (by simp [hpc'])
  simp only [client, clientStep, hpc', netSection, hnull', hfail, Bool.false_eq_true, if_false,
    Option.map_some, Option.some.injEq, Prod.mk.injEq] at hs
  obtain ⟨rfl, -⟩ := hs
  exact fun hg => absurd hmaster (by simp [(hg hnull').2 rfl])

/-- **When the inputs are ready.** In a run of the client from its start, no step that any thread
could take from a state of the run goes through `LAST_PLAYER_INPUTS` while it is NULL, if and only
if no step of the run copies the game state while the inputs are NULL, or fails to allocate them. -/
theorem startup_safe_iff (hmp : mp.Lawful) {tr : List (Step ClientState ClientEvent ClientOutput)}
    (hr : Run (client mp) .init tr m) :
    (∀ s ∈ ClientState.init :: states tr, ∀ e, ¬ DereferencesNull mp s e) ↔
      ∀ x ∈ tr, ¬ CopiesEarly x ∧ ¬ InputsMallocFails x := by
  have hguard : (∀ s ∈ ClientState.init :: states tr, ∀ e, ¬ DereferencesNull mp s e) ↔
      ∀ s ∈ ClientState.init :: states tr, Guarded s :=
    forall₂_congr fun _ _ => (guarded_iff hmp).symm
  rw [hguard]
  constructor
  · intro hall x hx
    obtain ⟨hs, t₁, t₂, -, hr₁, -⟩ := hr.mem hx
    have hpost := hall x.post (List.mem_cons_of_mem _ (List.mem_map_of_mem hx))
    have hinit := hr₁.invariantWhere (I := InitByMaster) (P := fun _ => True)
      (fun _ _ _ _ h _ hs => initByMaster_step h hs) (fun _ _ => trivial)
      (fun hne => absurd rfl hne)
    exact ⟨fun h => not_guarded_of_copiesEarly hs h hpost,
      fun h => not_guarded_of_mallocFails hinit hs h hpost⟩
  · intro hall
    exact hr.invariantWhere_states (I := Guarded)
      (P := fun x => ¬ CopiesEarly x ∧ ¬ InputsMallocFails x)
      (fun _ _ _ _ h hP hs => guarded_step h hs hP.1 hP.2) hall guarded_init

/-- The packet that makes a client the master. -/
def masterPacket : Bytes := frame .resUserInfo (some (userInfoBytes reference ⟨0, true⟩))

/-- A client that becomes the master undisturbed. -/
theorem startup_safe_undisturbed : ∃ tr m, Run (client reference) .init tr m ∧
    m.shared.lastPlayerInputs.isSome = true ∧
      ∀ s ∈ ClientState.init :: states tr, ∀ e, ¬ DereferencesNull reference s e := by
  obtain ⟨tr, m, hr, hev, hQ⟩ := run_of_exec (client reference) .init
    [.receive .ideal masterPacket, .netSection .ideal, .netSection .ideal]
    (fun _ m => m.shared.lastPlayerInputs.isSome) (by decide +kernel)
  refine ⟨tr, m, hr, hQ, (startup_safe_iff reference_lawful hr).mpr fun x hx => ?_⟩
  have hmem := List.mem_map_of_mem (f := Step.event) hx
  rw [hev] at hmem
  constructor
  · rintro ⟨env, θ, c, gs, he, -⟩
    rw [he] at hmem
    simp at hmem
  · rintro ⟨env, he, -, -, hfail⟩
    rw [he] at hmem
    simp only [List.mem_cons, ClientEvent.netSection.injEq, List.not_mem_nil, or_false, or_self,
      reduceCtorEq, false_or] at hmem
    rw [hmem] at hfail
    cases hfail

/-- A call that starts between the two sections that create the world. -/
theorem earlyTick_dereferencesNull : ∃ m, Reachable (client reference) .init m ∧
    DereferencesNull reference m (.tickSection .ideal .tickLoop) := by
  obtain ⟨tr, m, hr, -, hQ⟩ := run_of_exec (client reference) .init
    [.receive .ideal masterPacket, .netSection .ideal, .call .tickLoop ⟨0, ⟨0, 0⟩⟩,
      .tickSection .ideal .tickLoop]
    (fun _ m => m.shared.lastPlayerInputs.isNone &&
      decide (m.tick .tickLoop = .collectInputs ⟨0, ⟨0, 0⟩⟩ (ownInput ⟨0, ⟨0, 0⟩⟩ .zero)))
    (by decide +kernel)
  rw [Bool.and_eq_true, Option.isNone_iff_eq_none, decide_eq_true_eq] at hQ
  exact ⟨m, ⟨tr, hr⟩, hQ.1, .inl ⟨_, _, _, _, rfl, hQ.2⟩⟩

end MasterRelay.Client
