import MasterRelay.Client.Threads

/-!
# One slave's share of the client

What the client keeps about slave `k`: its last input, its position, and its position in the copies
the calls of `try_execute_tick` hold. Nothing else in the client flows into it.

* `receive_inputs`: a packet changes the last input of slave `k` only if it is a player input that
  decodes to its id.
* `receive_same`, `thread_same`: two clients that agree on slave `k` (`SameClient`) still do after
  packets that agree on it and after the same step of a thread.
-/

namespace MasterRelay.Client

open MasterRelay.Lib.MsgPack
open MasterRelay.Lib.Runs
open MasterRelay.Protocol

variable {mp : Msgpack} {k : Fin othersCount}

/-- The packet is a player input that decodes to the id of slave `k`. -/
def InputFor (mp : Msgpack) (k : Fin othersCount) (data : Bytes) : Prop :=
  ∃ payload rd pi, ifbPtclTryParseMessageByType data = .ok (.playerInput, payload) ∧
    ifbTryUnpackPlayerInput mp rd payload = .ok pi ∧ pi.id = UInt32.ofNat (k + 1)

/-- A packed input is for the slave whose id it has. -/
theorem inputFor_inputPacket (hmp : mp.Lawful) (pi : PlayerInput) :
    InputFor mp k (inputPacket mp pi) ↔ pi.id = UInt32.ofNat (k + 1) := by
  have hunpack := fun rd => unpack_playerInputBytes hmp rd pi []
  simp only [List.append_nil] at hunpack
  constructor
  · rintro ⟨payload, rd, pi', hparse, hpi, hid⟩
    cases (parse_inputPacket hmp pi).symm.trans hparse
    cases (hunpack rd).symm.trans hpi
    exact hid
  · intro hid
    exact ⟨_, .buffer (fun _ => 0) fun _ => 0, pi, parse_inputPacket hmp pi, hunpack _, hid⟩

/-- The same packet, or two player inputs that are not for slave `k`. -/
def SamePacket (mp : Msgpack) (k : Fin othersCount) (d d' : Bytes) : Prop :=
  d = d' ∨ ∃ p p', d = frame .playerInput p ∧ d' = frame .playerInput p' ∧
    ¬ InputFor mp k d ∧ ¬ InputFor mp k d'

/-- The globals agree on slave `k`, and on the role. -/
structure SameShared (k : Fin othersCount) (s t : Shared) : Prop where
  info : s.myUserInfo = t.myUserInfo
  input : s.lastPlayerInputs.map (· k) = t.lastPlayerInputs.map (· k)
  pos : s.currentGameState.map (·.pos k.succ) = t.currentGameState.map (·.pos k.succ)

/-- Two calls stand at the same place, with copies that agree on slave `k`. -/
inductive SameTick (k : Fin othersCount) : TickPc → TickPc → Prop
  | idle : SameTick k .idle .idle
  | copyState (c : TickCall) : SameTick k (.copyState c) (.copyState c)
  | collectInputs (c : TickCall) {gs gs' : GameState} (h : gs.pos k.succ = gs'.pos k.succ) :
      SameTick k (.collectInputs c gs) (.collectInputs c gs')
  | writeBack (c : TickCall) {gs gs' : GameState} (h : gs.pos k.succ = gs'.pos k.succ) :
      SameTick k (.writeBack c gs) (.writeBack c gs')
  | sendState : SameTick k .sendState .sendState
  | slaveTick (c : TickCall) : SameTick k (.slaveTick c) (.slaveTick c)

/-- Two clients agree on slave `k`. -/
structure SameClient (k : Fin othersCount) (m n : ClientState) : Prop where
  shared : SameShared k m.shared n.shared
  net : m.net = n.net
  tick : ∀ θ, SameTick k (m.tick θ) (n.tick θ)

theorem SameShared.refl (s : Shared) : SameShared k s s := ⟨rfl, rfl, rfl⟩

theorem SameShared.symm {s t : Shared} (h : SameShared k s t) : SameShared k t s :=
  ⟨h.info.symm, h.input.symm, h.pos.symm⟩

theorem SameShared.trans {s t u : Shared} (h : SameShared k s t) (h' : SameShared k t u) :
    SameShared k s u :=
  ⟨h.info.trans h'.info, h.input.trans h'.input, h.pos.trans h'.pos⟩

theorem SameTick.refl : ∀ pc : TickPc, SameTick k pc pc
  | .idle => .idle
  | .copyState c => .copyState c
  | .collectInputs c _ => .collectInputs c rfl
  | .writeBack c _ => .writeBack c rfl
  | .sendState => .sendState
  | .slaveTick c => .slaveTick c

theorem SamePacket.refl (d : Bytes) : SamePacket mp k d d := .inl rfl

/-- Both are NULL, or neither is and their views agree. -/
theorem map_eq_cases {α β : Type} {f : α → β} {a b : Option α} (h : a.map f = b.map f) :
    (a = none ∧ b = none) ∨ ∃ x y, a = some x ∧ b = some y ∧ f x = f y := by
  cases a <;> cases b <;> simp_all

/-! ## Packets -/

variable {env : ClientEnv} {s s' t t' : Shared} {data : Bytes} {pc pc' : NetPc}

/-- A game state is only printed. -/
theorem receive_gameState {payload : Option Bytes}
    (h : netReceive mp env s (frame .gameStateUpd payload) = some (s', pc)) :
    s' = s ∧ pc = .idle := by
  obtain ⟨p, hp⟩ := parse_frame_type (t := .gameStateUpd) rfl payload
  simp only [netReceive, hp] at h
  split at h
  · cases h
  · cases h
    exact ⟨rfl, rfl⟩

/-- **What a packet does to the inputs**: nothing, or it is a player input and replaces the input of
the slave it is for. -/
theorem receive_inputs {inputs : Fin othersCount → PlayerInput}
    (h : netReceive mp env s data = some (s', pc)) (hin : s.lastPlayerInputs = some inputs) :
    s'.lastPlayerInputs = some inputs ∨ ∃ payload pi j,
      ifbPtclTryParseMessageByType data = .ok (.playerInput, payload) ∧
      ifbTryUnpackPlayerInput mp env.net.reader payload = .ok pi ∧ slaveIndex pi.id = some j ∧
      s'.lastPlayerInputs =
        some (Function.update inputs j { inputs j with x := pi.x, y := pi.y }) := by
  rcases netReceive_cases h with ⟨rfl, -⟩ | ⟨payload, ui, -, -, rfl, -⟩ |
    ⟨payload, ui, -, -, rfl, -⟩ | ⟨payload, pi, j, inputs', hparse, -, hpi, hj, hin', rfl, -⟩
  · exact .inl hin
  · exact .inl hin
  · refine .inl ?_
    unfold handleOnSlaveConnected
    split <;> exact hin
  · obtain rfl : inputs = inputs' := Option.some.inj (hin.symm.trans hin')
    exact .inr ⟨payload, pi, j, hparse, hpi, hj, rfl⟩

/-- A player input for another slave leaves slave `k` alone. -/
theorem receive_other {payload : Option Bytes}
    (hd : ¬ InputFor mp k (frame .playerInput payload))
    (h : netReceive mp env s (frame .playerInput payload) = some (s', pc)) :
    SameShared k s s' ∧ pc = .idle := by
  obtain ⟨p, hp⟩ := parse_frame_type (t := .playerInput) rfl payload
  rcases netReceive_cases h with ⟨rfl, rfl⟩ | ⟨p', ui, hp', -⟩ | ⟨p', ui, hp', -⟩ |
    ⟨p', pi, j, inputs, hp', -, hpi, hj, hin, rfl, rfl⟩
  · exact ⟨.refl _, rfl⟩
  · cases hp.symm.trans hp'
  · cases hp.symm.trans hp'
  · have hjk : k ≠ j := by
      rintro rfl
      exact hd ⟨p', env.net.reader, pi, hp', hpi, slaveIndex_eq_some.mp hj⟩
    refine ⟨⟨rfl, ?_, rfl⟩, rfl⟩
    rw [hin, Option.map_some, Option.map_some, Function.update_of_ne hjk]

theorem handleOnSlaveConnected_same (ui : UserInfo) (h : SameShared k s t) :
    SameShared k (handleOnSlaveConnected ui s) (handleOnSlaveConnected ui t) := by
  unfold handleOnSlaveConnected
  rcases map_eq_cases h.pos with ⟨hs, ht⟩ | ⟨gs, gs', hs, ht, hpos⟩
  · rw [hs, ht]
    exact h
  · rw [hs, ht]
    cases hid : slaveIndex ui.id with
    | none => exact h
    | some j =>
      refine ⟨h.info, h.input, ?_⟩
      rw [Option.map_some, Option.map_some, connectSlave_pos, connectSlave_pos]
      by_cases hj : k.succ = j.succ
      · rw [if_pos hj, if_pos hj, hpos]
      · rw [if_neg hj, if_neg hj, hpos]

theorem updateGamesState_same {pi : PlayerInput} (h : SameShared k s t)
    (hs : updateGamesStateBySlaveInput pi s = some s')
    (ht : updateGamesStateBySlaveInput pi t = some t') : SameShared k s' t' := by
  unfold updateGamesStateBySlaveInput at hs ht
  cases hid : slaveIndex pi.id with
  | none =>
    rw [hid] at hs ht
    cases hs
    cases ht
    exact h
  | some j =>
    rw [hid] at hs ht
    rcases map_eq_cases h.input with ⟨hs', -⟩ | ⟨inputs, inputs', hs', ht', hin⟩
    · rw [hs'] at hs
      cases hs
    · rw [hs'] at hs
      rw [ht'] at ht
      cases hs
      cases ht
      refine ⟨h.info, ?_, h.pos⟩
      rw [Option.map_some, Option.map_some]
      by_cases hj : k = j
      · subst hj
        rw [Function.update_self, Function.update_self, hin]
      · rw [Function.update_of_ne hj, Function.update_of_ne hj, hin]

/-- **The same packet** keeps two clients in agreement. -/
theorem receive_same (h : SameShared k s t) (hs : netReceive mp env s data = some (s', pc))
    (ht : netReceive mp env t data = some (t', pc')) : SameShared k s' t' ∧ pc = pc' := by
  have hsame : (s, NetPc.idle) = (s', pc) → (t, NetPc.idle) = (t', pc') →
      SameShared k s' t' ∧ pc = pc' := by
    intro he he'
    cases he
    cases he'
    exact ⟨h, rfl⟩
  cases hparse : ifbPtclTryParseMessageByType data with
  | error e =>
    simp only [netReceive, hparse] at hs ht
    exact hsame (Option.some.inj hs) (Option.some.inj ht)
  | ok r =>
    obtain ⟨ty, payload⟩ := r
    cases ty with
    | resUserInfo =>
      simp only [netReceive, hparse] at hs ht
      rcases hui : ifbFunTryUnpackUserInfo mp env.net.reader payload with (_ | _) | ui <;>
        rw [hui] at hs ht
      · exact hsame (Option.some.inj hs) (Option.some.inj ht)
      · cases hs
      · by_cases hmalloc : env.mallocUserInfo = true
        · simp only [if_pos hmalloc] at hs ht
          cases hs
          cases ht
          exact ⟨⟨rfl, h.input, h.pos⟩, rfl⟩
        · simp only [if_neg hmalloc] at hs
          cases hs
    | gameStateUpd =>
      simp only [netReceive, hparse] at hs ht
      rcases hgs : ifbTryUnpackGameState mp env.net.reader payload with (_ | _) | gs <;>
        rw [hgs] at hs ht
      · exact hsame (Option.some.inj hs) (Option.some.inj ht)
      · cases hs
      · exact hsame (Option.some.inj hs) (Option.some.inj ht)
    | slaveConnected =>
      simp only [netReceive, hparse] at hs ht
      rcases hui : ifbFunTryUnpackUserInfo mp env.net.reader payload with (_ | _) | ui <;>
        rw [hui] at hs ht
      · exact hsame (Option.some.inj hs) (Option.some.inj ht)
      · cases hs
      · cases hs
        cases ht
        exact ⟨handleOnSlaveConnected_same ui h, rfl⟩
    | playerInput =>
      simp only [netReceive, hparse, ← h.info] at hs ht
      by_cases hmaster : s.myUserInfo.any UserInfo.isMaster = true
      · rw [if_pos hmaster] at hs ht
        rcases hpi : ifbTryUnpackPlayerInput mp env.net.reader payload with (_ | _) | pi <;>
          rw [hpi] at hs ht
        · exact hsame (Option.some.inj hs) (Option.some.inj ht)
        · cases hs
        · obtain ⟨s₁, hs₁, heq⟩ := Option.map_eq_some_iff.mp hs
          obtain ⟨t₁, ht₁, heq'⟩ := Option.map_eq_some_iff.mp ht
          cases heq
          cases heq'
          exact ⟨updateGamesState_same h hs₁ ht₁, rfl⟩
      · rw [if_neg hmaster] at hs ht
        exact hsame (Option.some.inj hs) (Option.some.inj ht)
    | none =>
      simp only [netReceive, hparse] at hs ht
      exact hsame (Option.some.inj hs) (Option.some.inj ht)
    | reqUserInfo =>
      simp only [netReceive, hparse] at hs ht
      exact hsame (Option.some.inj hs) (Option.some.inj ht)

/-! ## Steps of the threads -/

/-- Only packets change the inputs. -/
theorem thread_inputs {m m' : ClientState} {e : ClientEvent} {out : List ClientOutput}
    {inputs : Fin othersCount → PlayerInput} (hs : (client mp).step m e = some (m', out))
    (hno : ∀ env data, e ≠ .receive env data) (hin : m.shared.lastPlayerInputs = some inputs) :
    m'.shared.lastPlayerInputs = some inputs := by
  cases e with
  | receive env data => exact absurd rfl (hno env data)
  | netSection env =>
    obtain ⟨⟨s, pc⟩, hr, heq⟩ := Option.map_eq_some_iff.mp hs
    cases heq
    rcases netSection_cases hr with rfl | ⟨-, rfl⟩ | ⟨hnone, -⟩
    · exact hin
    · exact hin
    · exact absurd (hnone.symm.trans hin) (by simp)
  | call θ c =>
    simp only [client, clientStep] at hs
    split_ifs at hs
    cases hs
    exact hin
  | tickSection env θ =>
    obtain ⟨⟨s, pc, o⟩, hr, heq⟩ := Option.map_eq_some_iff.mp hs
    cases heq
    rcases tickSection_cases hr with ⟨rfl, -⟩ | ⟨_, _, -, -, rfl, -⟩ | ⟨_, _, _, -, -, rfl, -⟩ |
      ⟨_, _, _, -, -, rfl, -⟩ <;> exact hin

theorem netSection_same (h : SameShared k s t) {p : NetPc}
    (hs : netSection env s p = some (s', pc)) (ht : netSection env t p = some (t', pc')) :
    SameShared k s' t' ∧ pc = pc' := by
  cases p with
  | idle => cases hs
  | initGameState =>
    simp only [netSection] at hs ht
    rcases map_eq_cases h.pos with ⟨hs', ht'⟩ | ⟨gs, gs', hs', ht', -⟩
    · simp only [hs', ht'] at hs ht
      split_ifs at hs ht
      cases hs
      cases ht
      exact ⟨⟨h.info, h.input, rfl⟩, rfl⟩
    · simp only [hs', ht'] at hs ht
      cases hs
      cases ht
      exact ⟨h, rfl⟩
  | initPlayerInputs =>
    simp only [netSection] at hs ht
    rcases map_eq_cases h.input with ⟨hs', ht'⟩ | ⟨inputs, inputs', hs', ht', -⟩
    · simp only [hs', ht'] at hs ht
      split_ifs at hs ht
      · cases hs
        cases ht
        exact ⟨⟨h.info, rfl, h.pos⟩, rfl⟩
      · cases hs
        cases ht
        exact ⟨h, rfl⟩
    · simp only [hs', ht'] at hs ht
      cases hs
      cases ht
      exact ⟨h, rfl⟩

/-- **The same section of a call** keeps two clients in agreement. -/
theorem tickSection_same (h : SameShared k s t) {p p' q q' : TickPc} (hp : SameTick k p p')
    {out out' : List ClientOutput} (hs : tickSection mp env s p = some (s', q, out))
    (ht : tickSection mp env t p' = some (t', q', out')) :
    SameShared k s' t' ∧ SameTick k q q' := by
  cases hp with
  | idle => cases hs
  | copyState c =>
    simp only [tickSection] at hs ht
    rcases map_eq_cases h.pos with ⟨hs', ht'⟩ | ⟨gs, gs', hs', ht', hpos⟩
    · simp only [hs', ht'] at hs ht
      cases hs
      cases ht
      exact ⟨h, .idle⟩
    · simp only [hs', ht'] at hs ht
      cases hs
      cases ht
      refine ⟨h, .collectInputs c ?_⟩
      rw [(tick_slavePos c (fun _ => .zero) gs k).1, (tick_slavePos c (fun _ => .zero) gs' k).1,
        hpos]
  | collectInputs c hpos =>
    simp only [tickSection] at hs ht
    rcases map_eq_cases h.input with ⟨hs', -⟩ | ⟨inputs, inputs', hs', ht', hin⟩
    · rw [hs'] at hs
      cases hs
    · simp only [hs', ht'] at hs ht
      cases hs
      cases ht
      refine ⟨h, .writeBack c ?_⟩
      rw [(tick_slavePos c inputs _ k).2, (tick_slavePos c inputs' _ k).2, hpos, hin]
  | writeBack c hpos =>
    simp only [tickSection] at hs ht
    rcases map_eq_cases h.pos with ⟨hs', -⟩ | ⟨gs, gs', hs', ht', -⟩
    · rw [hs'] at hs
      cases hs
    · simp only [hs', ht'] at hs ht
      cases hs
      cases ht
      exact ⟨⟨h.info, h.input, congrArg some hpos⟩, .sendState⟩
  | sendState =>
    simp only [tickSection] at hs ht
    rcases map_eq_cases h.pos with ⟨hs', ht'⟩ | ⟨gs, gs', hs', ht', -⟩ <;>
      simp only [hs', ht'] at hs ht <;> cases hs <;> cases ht <;> exact ⟨h, .idle⟩
  | slaveTick c =>
    obtain ⟨o, -, heq⟩ := Option.map_eq_some_iff.mp hs
    obtain ⟨o', -, heq'⟩ := Option.map_eq_some_iff.mp ht
    cases heq
    cases heq'
    exact ⟨h, .idle⟩

/-! ## Steps of the client -/

variable {m m' n n' : ClientState} {out out' : List ClientOutput}

/-- Two calls move on, at places that agree. -/
theorem SameClient.update (h : SameClient k m n) {θ : Thread} {s t : Shared}
    (hst : SameShared k s t) {pc pc' : TickPc} (hpc : SameTick k pc pc') :
    SameClient k { m with shared := s, tick := Function.update m.tick θ pc }
      { n with shared := t, tick := Function.update n.tick θ pc' } := by
  refine ⟨hst, h.net, fun θ' => ?_⟩
  show SameTick k (Function.update m.tick θ pc θ') (Function.update n.tick θ pc' θ')
  by_cases hθ : θ' = θ
  · rw [hθ, Function.update_self, Function.update_self]
    exact hpc
  · rw [Function.update_of_ne hθ, Function.update_of_ne hθ]
    exact h.tick θ'

/-- **Packets that agree on slave `k`** keep two clients in agreement. -/
theorem clientReceive_same {d d' : Bytes} (h : SameClient k m n) (hd : SamePacket mp k d d')
    (hm : (client mp).step m (.receive env d) = some (m', out))
    (hn : (client mp).step n (.receive env d') = some (n', out')) : SameClient k m' n' := by
  simp only [client, clientStep] at hm hn
  split_ifs at hm hn
  obtain ⟨r, hr, heq⟩ := Option.map_eq_some_iff.mp hm
  obtain ⟨r', hr', heq'⟩ := Option.map_eq_some_iff.mp hn
  cases heq
  cases heq'
  rcases hd with rfl | ⟨p, p', rfl, rfl, hp, hp'⟩
  · obtain ⟨hshared, hnet⟩ := receive_same h.shared hr hr'
    exact ⟨hshared, hnet, h.tick⟩
  · obtain ⟨hs, hpc⟩ := receive_other hp hr
    obtain ⟨ht, hpc'⟩ := receive_other hp' hr'
    exact ⟨hs.symm.trans (h.shared.trans ht), hpc.trans hpc'.symm, h.tick⟩

/-- A game state changes nothing. -/
theorem clientReceive_gameState {payload : Option Bytes}
    (hm : (client mp).step m (.receive env (frame .gameStateUpd payload)) = some (m', out)) :
    m' = m := by
  simp only [client, clientStep] at hm
  split_ifs at hm with hnet
  obtain ⟨⟨s, pc⟩, hr, heq⟩ := Option.map_eq_some_iff.mp hm
  cases heq
  obtain ⟨rfl, rfl⟩ := receive_gameState hr
  rw [← hnet]

/-- **The same step of a thread** keeps two clients in agreement. -/
theorem thread_same {e : ClientEvent} (h : SameClient k m n)
    (hm : (client mp).step m e = some (m', out)) (hn : (client mp).step n e = some (n', out')) :
    SameClient k m' n' := by
  cases e with
  | receive env d => exact clientReceive_same h (.refl d) hm hn
  | netSection env =>
    obtain ⟨r, hr, heq⟩ := Option.map_eq_some_iff.mp hm
    obtain ⟨r', hr', heq'⟩ := Option.map_eq_some_iff.mp hn
    cases heq
    cases heq'
    rw [← h.net] at hr'
    obtain ⟨hshared, hnet⟩ := netSection_same h.shared hr hr'
    exact ⟨hshared, hnet, h.tick⟩
  | call θ c =>
    simp only [client, clientStep] at hm hn
    split_ifs at hm hn
    cases hm
    cases hn
    have hstart : startTick m.shared c = startTick n.shared c := by
      unfold startTick
      rw [h.shared.info]
    rw [hstart]
    exact h.update h.shared (.refl _)
  | tickSection env θ =>
    obtain ⟨r, hr, heq⟩ := Option.map_eq_some_iff.mp hm
    obtain ⟨r', hr', heq'⟩ := Option.map_eq_some_iff.mp hn
    cases heq
    cases heq'
    obtain ⟨hshared, htick⟩ := tickSection_same h.shared (h.tick θ) hr hr'
    exact h.update hshared htick

end MasterRelay.Client
