import MasterRelay.Client.Atomic
import MasterRelay.Client.Races

/-!
# Inputs are held

`LAST_PLAYER_INPUTS` has the last input of each slave, and every tick applies what it finds there.
So an input counts once for each tick until the next one for the same slave replaces it: never, when
the next one comes first, and again and again, when it does not come.

* `hold_step`, `hold_run`: a tick moves a slave by the input that is held, an input replaces it.
* **`inputs_held`**: over a run of a new master, where a slave's position is; and where each input
  is followed by one tick before the next, it is the sum of the inputs.
-/

namespace MasterRelay.Client

open MasterRelay.Lib.MsgPack
open MasterRelay.Lib.Runs
open MasterRelay.Protocol

/-- The input for slave `k` that an event delivers. -/
def inputFor (mp : Msgpack) (k : Fin othersCount) : AtomicEvent → Option PlayerInput
  | .receive env data =>
    match ifbPtclTryParseMessageByType data with
    | .ok (.playerInput, payload) =>
      match ifbTryUnpackPlayerInput mp env.net.reader payload with
      | .ok pi => if slaveIndex pi.id = some k then some pi else none
      | .error _ => none
    | _ => none
  | .tick _ _ => none

/-- The event is a call of `try_execute_tick`. -/
def AtomicEvent.isTick : AtomicEvent → Bool
  | .tick _ _ => true
  | .receive _ _ => false

/-- The event is a tick, or delivers an input for one of the slaves. -/
def TickOrInput (mp : Msgpack) (e : AtomicEvent) : Prop :=
  e.isTick = true ∨ ∃ k, (inputFor mp k e).isSome = true

/-- The ticks before the next input for slave `k`. -/
def ticksHeld (mp : Msgpack) (k : Fin othersCount) (es : List AtomicEvent) : Nat :=
  (es.takeWhile fun e => (inputFor mp k e).isNone).countP AtomicEvent.isTick

/-- One coordinate of the inputs for slave `k`, each as often as there are ticks before the next. -/
def heldInputs (mp : Msgpack) (k : Fin othersCount) (axis : PlayerInput → Int32) :
    List AtomicEvent → Int
  | [] => 0
  | e :: es =>
    ((inputFor mp k e).map fun pi => (ticksHeld mp k es : Int) * (axis pi).toInt).getD 0 +
      heldInputs mp k axis es

/-- One coordinate of the inputs for slave `k`, each once. -/
def deliveredInputs (mp : Msgpack) (k : Fin othersCount) (axis : PlayerInput → Int32)
    (es : List AtomicEvent) : Int :=
  ((es.filterMap (inputFor mp k)).map fun pi => (axis pi).toInt).sum

/-- A master whose world has just been created. -/
def freshMaster (ui : UserInfo) : Shared :=
  ⟨some ui, some .zero, some fun i => ⟨UInt32.ofNat (i + 1), 0, 0⟩⟩

variable {mp : Msgpack} {s s' : Shared} {out : List ClientOutput} {k : Fin othersCount}

/-- An event that delivers an input is the receipt of a packet with that input. -/
theorem inputFor_eq_some {e : AtomicEvent} {pi : PlayerInput} (h : inputFor mp k e = some pi) :
    ∃ env data payload, e = .receive env data ∧
      ifbPtclTryParseMessageByType data = .ok (.playerInput, payload) ∧
      ifbTryUnpackPlayerInput mp env.net.reader payload = .ok pi ∧ slaveIndex pi.id = some k := by
  unfold inputFor at h
  split at h
  · rename_i env data
    split at h
    · rename_i payload hparse
      split at h
      · rename_i pi' hpi
        split_ifs at h with hk
        cases h
        exact ⟨env, data, payload, rfl, hparse, hpi, hk⟩
      · cases h
    · cases h
  · cases h

theorem inputFor_receive {env : ClientEnv} {data : Bytes} {payload : Option Bytes}
    {pi : PlayerInput} (hparse : ifbPtclTryParseMessageByType data = .ok (.playerInput, payload))
    (hpi : ifbTryUnpackPlayerInput mp env.net.reader payload = .ok pi) (k : Fin othersCount) :
    inputFor mp k (.receive env data) = if slaveIndex pi.id = some k then some pi else none := by
  simp only [inputFor, hparse, hpi]

/-- `attempt_init_current_game_state_by_master` creates the world and the inputs. -/
theorem attemptInit_fresh {env : ClientEnv} (hstate : env.mallocGameState = true)
    (hinputs : env.mallocPlayerInputs = true) (ui : UserInfo) :
    attemptInitCurrentGameStateByMaster env ⟨some ui, none, none⟩ = some (freshMaster ui) := by
  simp [attemptInitCurrentGameStateByMaster, netSection, hstate, hinputs, freshMaster]

/-! ## Counting -/

theorem ticksHeld_tick (env : ClientEnv) (c : TickCall) (es : List AtomicEvent) :
    ticksHeld mp k (.tick env c :: es) = ticksHeld mp k es + 1 := by
  unfold ticksHeld
  rw [List.takeWhile_cons_of_pos (by rfl), List.countP_cons_of_pos (by rfl)]

theorem ticksHeld_input {e : AtomicEvent} {pi : PlayerInput} (h : inputFor mp k e = some pi)
    (es : List AtomicEvent) : ticksHeld mp k (e :: es) = 0 := by
  unfold ticksHeld
  rw [List.takeWhile_cons_of_neg (by simp [h]), List.countP_nil]

theorem ticksHeld_other {e : AtomicEvent} (h : inputFor mp k e = none) (htick : e.isTick = false)
    (es : List AtomicEvent) : ticksHeld mp k (e :: es) = ticksHeld mp k es := by
  unfold ticksHeld
  rw [List.takeWhile_cons_of_pos (by simp [h]), List.countP_cons_of_neg (by simp [htick])]

/-- **Each input followed by one tick counts once.** -/
theorem heldInputs_eq_delivered (axis : PlayerInput → Int32) {es : List AtomicEvent}
    (h : ∀ es₁ e es₂, es = es₁ ++ e :: es₂ → (inputFor mp k e).isSome = true →
      ticksHeld mp k es₂ = 1) : heldInputs mp k axis es = deliveredInputs mp k axis es := by
  induction es with
  | nil => rfl
  | cons e es ih =>
    have ih' := ih fun es₁ e' es₂ hes =>
      h (e :: es₁) e' es₂ (by rw [hes, List.cons_append])
    unfold deliveredInputs at ih' ⊢
    rw [heldInputs, ih', List.filterMap_cons]
    by_cases hin : inputFor mp k e = none
    · simp [hin]
    · obtain ⟨pi, hpi⟩ := Option.ne_none_iff_exists'.mp hin
      have hone := h [] e es rfl (by simp [hpi])
      simp [hpi, hone]

/-! ## Over a run -/

/-- A coordinate of inputs and of positions. -/
structure Coordinate where
  ofInput : PlayerInput → Int32
  ofPos : PlayerPos → Int32
  ofPos_moved : ∀ p pi, ofPos (moved p pi) = ofPos p + ofInput pi
  ofInput_replaced : ∀ old pi : PlayerInput, ofInput { old with x := pi.x, y := pi.y } = ofInput pi

def Coordinate.x : Coordinate := ⟨PlayerInput.x, PlayerPos.x, fun _ _ => rfl, fun _ _ => rfl⟩

def Coordinate.y : Coordinate := ⟨PlayerInput.y, PlayerPos.y, fun _ _ => rfl, fun _ _ => rfl⟩

/-- **What a tick or an input does to slave `k`**: a tick moves it by the input that is held, an
input for it replaces that one, and any other input leaves both alone. -/
theorem hold_step {ui : UserInfo} (hmaster : ui.isMaster = true) {gs : GameState}
    {inputs : Fin othersCount → PlayerInput} {e : AtomicEvent}
    (hs : (atomicClient mp).step ⟨some ui, some gs, some inputs⟩ e = some (s', out))
    (he : TickOrInput mp e) (k : Fin othersCount) :
    ∃ gs' inputs', s' = ⟨some ui, some gs', some inputs'⟩ ∧
      ((e.isTick = true ∧ inputFor mp k e = none ∧ inputs' = inputs ∧
          gs'.pos k.succ = moved (gs.pos k.succ) (inputs k)) ∨
        (∃ pi, e.isTick = false ∧ inputFor mp k e = some pi ∧ gs' = gs ∧
          inputs' k = { inputs k with x := pi.x, y := pi.y }) ∨
        e.isTick = false ∧ inputFor mp k e = none ∧ gs' = gs ∧ inputs' k = inputs k) := by
  cases e with
  | tick env c =>
    have hcall : tryExecuteTick mp env ⟨some ui, some gs, some inputs⟩ c = some (s', out) := hs
    rw [tryExecuteTick_master hmaster] at hcall
    cases hcall
    obtain ⟨hown, -⟩ := tick_slavePos c inputs gs k
    obtain ⟨-, hmoved⟩ := tick_slavePos c inputs (ownInput c gs) k
    exact ⟨_, inputs, rfl, .inl ⟨rfl, rfl, rfl, hmoved.trans (by rw [hown])⟩⟩
  | receive env data =>
    rcases he with htick | ⟨j, hj⟩
    · cases htick
    · obtain ⟨pi, hpi⟩ := Option.isSome_iff_exists.mp hj
      obtain ⟨env', data', payload, heq, hparse, hunpack, hindex⟩ := inputFor_eq_some hpi
      cases heq
      obtain ⟨s₁, hs₁, heq⟩ := Option.map_eq_some_iff.mp hs
      cases heq
      rw [handleReceive_input hmaster _ inputs hparse hunpack hindex] at hs₁
      cases hs₁
      refine ⟨gs, _, rfl, .inr ?_⟩
      rw [inputFor_receive hparse hunpack, hindex]
      by_cases hjk : j = k
      · subst hjk
        exact .inl ⟨pi, rfl, if_pos rfl, rfl, Function.update_self ..⟩
      · exact .inr ⟨rfl, if_neg fun he => hjk (Option.some.inj he), rfl,
          Function.update_of_ne (Ne.symm hjk) ..⟩

/-- **Sample and hold**: a coordinate of slave `k` moves by the input that is held at first, once
for each tick before the next one, and by each input that comes, once for each tick before the
next. -/
theorem hold_run {ui : UserInfo} (hmaster : ui.isMaster = true) (k : Fin othersCount)
    (axis : Coordinate) {tr : List (Step Shared AtomicEvent ClientOutput)}
    (hr : Run (atomicClient mp) s tr s') (hvalid : ∀ x ∈ tr, TickOrInput mp x.event)
    {gs : GameState} {inputs : Fin othersCount → PlayerInput}
    (hstart : s = ⟨some ui, some gs, some inputs⟩) :
    ∃ gs' inputs', s' = ⟨some ui, some gs', some inputs'⟩ ∧
      axis.ofPos (gs'.pos k.succ) = axis.ofPos (gs.pos k.succ) +
        Int32.ofInt (ticksHeld mp k (tr.map Step.event) * (axis.ofInput (inputs k)).toInt +
          heldInputs mp k axis.ofInput (tr.map Step.event)) := by
  induction hr generalizing gs inputs with
  | nil => exact ⟨gs, inputs, hstart, by simp [ticksHeld, heldInputs]⟩
  | @cons s s₁ s₂ e out tr hs _ ih =>
    subst hstart
    obtain ⟨gs₁, inputs₁, rfl, hcase⟩ := hold_step hmaster hs (hvalid _ List.mem_cons_self) k
    obtain ⟨gs', inputs', hend, hpos⟩ :=
      ih (fun x hx => hvalid x (List.mem_cons_of_mem _ hx)) rfl
    refine ⟨gs', inputs', hend, ?_⟩
    rw [hpos, List.map_cons, heldInputs]
    rcases hcase with ⟨htick, hnone, rfl, hmoved⟩ | ⟨pi, htick, hpi, rfl, hinput⟩ |
      ⟨htick, hnone, rfl, hinput⟩
    · -- the input that is held moves the slave once more
      cases e with
      | receive env data => cases htick
      | tick env c =>
        rw [hnone, hmoved, axis.ofPos_moved, ticksHeld_tick, Int32.add_assoc,
          ← Int32.ofInt_toInt (axis.ofInput (inputs₁ k)), ← Int32.ofInt_add]
        simp only [Int32.ofInt_toInt, Option.map_none, Option.getD_none]
        congr 2
        push_cast
        ring
    · rw [hpi, ticksHeld_input hpi, hinput, axis.ofInput_replaced]
      simp
    · rw [hnone, ticksHeld_other hnone htick, hinput]
      simp

/-- **Where the slaves are after a run of a new master**: each input has counted once for each tick
between it and the next input for the same slave; so where each one is followed by one tick before
the next, each has counted once. -/
theorem inputs_held {ui : UserInfo} (hmaster : ui.isMaster = true) (k : Fin othersCount)
    {tr : List (Step Shared AtomicEvent ClientOutput)}
    (hr : Run (atomicClient mp) (freshMaster ui) tr s')
    (hvalid : ∀ x ∈ tr, TickOrInput mp x.event)
    (hxlo : -2 ^ 31 ≤ heldInputs mp k PlayerInput.x (tr.map Step.event))
    (hxhi : heldInputs mp k PlayerInput.x (tr.map Step.event) < 2 ^ 31)
    (hylo : -2 ^ 31 ≤ heldInputs mp k PlayerInput.y (tr.map Step.event))
    (hyhi : heldInputs mp k PlayerInput.y (tr.map Step.event) < 2 ^ 31) :
    ∃ gs, s'.currentGameState = some gs ∧
      (gs.pos k.succ).x.toInt = heldInputs mp k PlayerInput.x (tr.map Step.event) ∧
      (gs.pos k.succ).y.toInt = heldInputs mp k PlayerInput.y (tr.map Step.event) ∧
      ((∀ es₁ e es₂, tr.map Step.event = es₁ ++ e :: es₂ → (inputFor mp k e).isSome = true →
          ticksHeld mp k es₂ = 1) →
        (gs.pos k.succ).x.toInt = deliveredInputs mp k PlayerInput.x (tr.map Step.event) ∧
        (gs.pos k.succ).y.toInt = deliveredInputs mp k PlayerInput.y (tr.map Step.event)) := by
  obtain ⟨gs, inputs, rfl, hx⟩ := hold_run hmaster k .x hr hvalid rfl
  obtain ⟨gs', inputs', heq, hy⟩ := hold_run hmaster k .y hr hvalid rfl
  cases heq
  -- a new master holds inputs that move nobody, and everybody is at the origin
  have hx₀ : (gs.pos k.succ).x.toInt = heldInputs mp k PlayerInput.x (tr.map Step.event) := by
    have hsum : (gs.pos k.succ).x =
        0 + Int32.ofInt (heldInputs mp k PlayerInput.x (tr.map Step.event)) := by
      simpa [Coordinate.x, GameState.zero_pos, PlayerPos.zero] using hx
    simpa using toInt_add_ofInt hsum (by simpa using hxlo) (by simpa using hxhi)
  have hy₀ : (gs.pos k.succ).y.toInt = heldInputs mp k PlayerInput.y (tr.map Step.event) := by
    have hsum : (gs.pos k.succ).y =
        0 + Int32.ofInt (heldInputs mp k PlayerInput.y (tr.map Step.event)) := by
      simpa [Coordinate.y, GameState.zero_pos, PlayerPos.zero] using hy
    simpa using toInt_add_ofInt hsum (by simpa using hylo) (by simpa using hyhi)
  refine ⟨gs, rfl, hx₀, hy₀, fun hone => ⟨?_, ?_⟩⟩
  · rw [hx₀, heldInputs_eq_delivered _ hone]
  · rw [hy₀, heldInputs_eq_delivered _ hone]

/-- Two ticks between two inputs. -/
def heldTwice : List AtomicEvent :=
  [.receive .ideal (inputPacket reference ⟨1, 1, 0⟩), .tick .ideal ⟨0, ⟨0, 0⟩⟩,
    .tick .ideal ⟨1, ⟨0, 0⟩⟩, .receive .ideal (inputPacket reference ⟨1, 3, -1⟩),
    .tick .ideal ⟨2, ⟨0, 0⟩⟩]

/-- Every event is a tick or an input for slave `k`. -/
def forSlave (k : Fin othersCount) (tr : List (Step Shared AtomicEvent ClientOutput)) : Bool :=
  tr.all fun x => x.event.isTick || (inputFor reference k x.event).isSome

theorem tickOrInput_of_forSlave {tr : List (Step Shared AtomicEvent ClientOutput)}
    (h : forSlave k tr = true) {x : Step Shared AtomicEvent ClientOutput} (hx : x ∈ tr) :
    TickOrInput reference x.event := by
  have hevent := List.all_eq_true.mp h x hx
  rw [Bool.or_eq_true] at hevent
  rcases hevent with htick | hinput
  · exact .inl htick
  · exact .inr ⟨k, hinput⟩

theorem inputs_held_heldTwice : ∃ tr s' gs,
    Run (atomicClient reference) (freshMaster ⟨0, true⟩) tr s' ∧ tr.map Step.event = heldTwice ∧
    s'.currentGameState = some gs ∧
    (gs.pos 1).x.toInt = 5 ∧ (gs.pos 1).y.toInt = -1 := by
  obtain ⟨tr, s', hr, hev, hQ⟩ := run_of_exec (atomicClient reference) (freshMaster ⟨0, true⟩)
    heldTwice (fun tr _ => forSlave 0 tr) (by decide +kernel)
  have hx : heldInputs reference 0 PlayerInput.x (tr.map Step.event) = 5 := by
    rw [hev]
    decide +kernel
  have hy : heldInputs reference 0 PlayerInput.y (tr.map Step.event) = -1 := by
    rw [hev]
    decide +kernel
  obtain ⟨gs, hgs, hposx, hposy, -⟩ := inputs_held rfl 0 hr
    (fun x hx => tickOrInput_of_forSlave hQ hx) (by omega) (by omega) (by omega) (by omega)
  exact ⟨tr, s', gs, hr, hev, hgs, hposx.trans hx, hposy.trans hy⟩

/-- The run ends with a tick, every input is for slave 1, and it has moved by more than their
sum. -/
theorem heldInput_countsTwice : ∃ tr s' gs,
    Run (atomicClient reference) (freshMaster ⟨0, true⟩) tr s' ∧
    (∀ x ∈ tr, TickOrInput reference x.event) ∧
    (∃ x, tr.getLast? = some x ∧ x.event.isTick = true) ∧ s'.currentGameState = some gs ∧
    (gs.pos 1).x.toInt = 5 ∧
    deliveredInputs reference 0 PlayerInput.x (tr.map Step.event) = 4 := by
  obtain ⟨tr, s', hr, hev, hQ⟩ := run_of_exec (atomicClient reference) (freshMaster ⟨0, true⟩)
    heldTwice (fun tr s' => forSlave 0 tr &&
      (tr.getLast?.any fun x : Step Shared AtomicEvent ClientOutput => x.event.isTick) &&
      s'.currentGameState.any fun gs : GameState => decide ((gs.pos 1).x.toInt = 5))
    (by decide +kernel)
  rw [Bool.and_eq_true, Bool.and_eq_true, Option.any_eq_true, Option.any_eq_true] at hQ
  obtain ⟨⟨hall, hlast⟩, gs, hgs, hpos⟩ := hQ
  refine ⟨tr, s', gs, hr, fun x hx => tickOrInput_of_forSlave hall hx, hlast, hgs,
    of_decide_eq_true hpos, ?_⟩
  rw [hev]
  decide +kernel

end MasterRelay.Client
