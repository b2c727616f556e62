import MasterRelay.Client.Role
import MasterRelay.Client.SampleHold

/-!
# Where everybody is

A tick adds to every position what is held for it: the input of the call to `pos_1`, and to the
others what `LAST_PLAYER_INPUTS` has. The `switch` over the ids and the chain of `if`s over the
indices agree on which is whose (`tick_pos`, `inputFor_received`), so a position is a sum over the
ticks, each term the last input accepted before its tick.

* `law_step`: one step under that law; `law_run`: a run.
* **`positions_areSums`**: over the runs of a new master none of whose additions overflows.
* **`noOverflow_iff_sums`**: no addition overflows exactly while these sums stay in `int32_t`.
-/

namespace MasterRelay.Client

open MasterRelay.Lib.LastMatch
open MasterRelay.Lib.MsgPack
open MasterRelay.Lib.Runs
open MasterRelay.Protocol

/-! ## Sums over the ticks of a history -/

/-- The term of an event: what `f` makes of the events before a tick and of its call. -/
def tickTerm (f : List AtomicEvent → TickCall → Int) (past : List AtomicEvent) : AtomicEvent → Int
  | .tick _ c => f past c
  | .receive _ _ => 0

/-- The sum over the ticks of a history that begins with `past`. -/
def overTicks (f : List AtomicEvent → TickCall → Int) : List AtomicEvent → List AtomicEvent → Int
  | _, [] => 0
  | past, e :: es => tickTerm f past e + overTicks f (past ++ [e]) es

/-- The last input accepted for slave `k`, `(0, 0)` before the first. -/
def lastInput (mp : Msgpack) (k : Fin othersCount) (past : List AtomicEvent) : UserInput :=
  ((lastMatch (inputFor mp k) past).map fun pi => ⟨pi.x, pi.y⟩).getD ⟨0, 0⟩

/-- The argument `ticks` of a call. -/
def ticksOf : AtomicEvent → Option UInt32
  | .tick _ c => some c.ticks
  | .receive _ _ => none

/-- The event is a tick, or brings an input for slave `k`. -/
def concerns (mp : Msgpack) (k : Fin othersCount) (e : AtomicEvent) : Bool :=
  e.isTick || (inputFor mp k e).isSome

section Sums

variable (f : List AtomicEvent → TickCall → Int)

theorem overTicks_snoc (past es : List AtomicEvent) (e : AtomicEvent) :
    overTicks f past (es ++ [e]) = overTicks f past es + tickTerm f (past ++ es) e := by
  induction es generalizing past with
  | nil =>
    rw [List.nil_append, List.append_nil]
    simp only [overTicks]
    ring
  | cons e' es ih =>
    rw [List.cons_append, overTicks, ih, overTicks, List.append_assoc, List.singleton_append]
    ring

/-- Events that are no ticks and that `f` does not look at do not count. -/
theorem overTicks_filter {p : AtomicEvent → Bool} (htick : ∀ e, e.isTick = true → p e = true)
    (hf : ∀ past c, f (past.filter p) c = f past c) (past es : List AtomicEvent) :
    overTicks f (past.filter p) (es.filter p) = overTicks f past es := by
  induction es generalizing past with
  | nil => rfl
  | cons e es ih =>
    have ih' := ih (past ++ [e])
    rw [List.filter_append] at ih'
    by_cases hp : p e = true
    · rw [List.filter_cons_of_pos hp, List.filter_nil] at ih'
      rw [List.filter_cons_of_pos hp, overTicks, overTicks, ih']
      congr 1
      cases e with
      | tick env c => exact hf past c
      | receive env data => rfl
    · rw [List.filter_cons_of_neg hp, List.filter_nil, List.append_nil] at ih'
      rw [List.filter_cons_of_neg hp, overTicks, ih']
      cases e with
      | tick env c => exact absurd (htick _ rfl) hp
      | receive env data => exact (Int.zero_add _).symm

/-- Terms of at most one make a sum of at most the number of ticks. -/
theorem overTicks_bound {es : List AtomicEvent}
    (h : ∀ es₁ env c es₂, es = es₁ ++ .tick env c :: es₂ → -1 ≤ f es₁ c ∧ f es₁ c ≤ 1) :
    -(es.countP AtomicEvent.isTick : Int) ≤ overTicks f [] es ∧
      overTicks f [] es ≤ es.countP AtomicEvent.isTick := by
  induction es using List.reverseRecOn with
  | nil => simp [overTicks]
  | append_singleton es e ih =>
    have ih' := ih fun es₁ env c es₂ hes => h es₁ env c (es₂ ++ [e]) (by
      rw [hes, List.append_assoc, List.cons_append])
    rw [overTicks_snoc, List.nil_append, List.countP_append]
    cases e with
    | tick env c =>
      have hterm := h es env c [] rfl
      have hone : [AtomicEvent.tick env c].countP AtomicEvent.isTick = 1 := rfl
      rw [hone, tickTerm]
      omega
    | receive env data =>
      have hnone : [AtomicEvent.receive env data].countP AtomicEvent.isTick = 0 := rfl
      rw [hnone, tickTerm]
      omega

end Sums

theorem lastInput_snoc (mp : Msgpack) (k : Fin othersCount) (past : List AtomicEvent)
    (e : AtomicEvent) : lastInput mp k (past ++ [e]) =
      ((inputFor mp k e).map fun pi => ⟨pi.x, pi.y⟩).getD (lastInput mp k past) := by
  unfold lastInput
  rw [lastMatch_snoc]
  cases inputFor mp k e with
  | none => rfl
  | some pi => rfl

/-- Only the inputs for a slave matter to it. -/
theorem lastInput_filter (mp : Msgpack) (k : Fin othersCount) (past : List AtomicEvent) :
    lastInput mp k (past.filter (concerns mp k)) = lastInput mp k past := by
  unfold lastInput
  rw [lastMatch_filter]
  intro e _ he
  rw [concerns, Bool.or_eq_false_iff] at he
  simpa using he.2
/-! ## One step -/

variable {mp : Msgpack} {s s' : Shared} {out : List ClientOutput} {e : AtomicEvent}

/-- The number is one of `int32_t`. -/
def InInt32 (n : Int) : Prop := -2 ^ 31 ≤ n ∧ n < 2 ^ 31

instance (n : Int) : Decidable (InInt32 n) := inferInstanceAs (Decidable (_ ∧ _))

/-- An addition that does not overflow. -/
theorem toInt_add_of_inInt32 {a b : Int32} (h : InInt32 (a.toInt + b.toInt)) :
    (a + b).toInt = a.toInt + b.toInt :=
  toInt_add_ofInt (by rw [Int32.ofInt_toInt]) h.1 h.2

/-- What a tick adds to the positions: the input of the call, and `LAST_PLAYER_INPUTS`. -/
def addends (inputs : Fin othersCount → PlayerInput) (c : TickCall) :
    Fin (othersCount + 1) → UserInput :=
  Fin.cases c.userInput fun k => ⟨(inputs k).x, (inputs k).y⟩

/-- **A tick adds to each position what is held for it.** -/
theorem tick_pos (c : TickCall) (inputs : Fin othersCount → PlayerInput) (gs : GameState)
    (i : Fin (othersCount + 1)) :
    ((othersInputs inputs (ownInput c gs)).pos i).x = (gs.pos i).x + (addends inputs c i).x ∧
      ((othersInputs inputs (ownInput c gs)).pos i).y = (gs.pos i).y + (addends inputs c i).y := by
  match i with
  | 0 | 1 | 2 | 3 => exact ⟨rfl, rfl⟩

/-- None of the eight additions of a tick overflows. -/
def TickFits (c : TickCall) (inputs : Fin othersCount → PlayerInput) (gs : GameState) : Prop :=
  ∀ i, InInt32 ((gs.pos i).x.toInt + (addends inputs c i).x.toInt) ∧
    InInt32 ((gs.pos i).y.toInt + (addends inputs c i).y.toInt)

instance (c : TickCall) (inputs : Fin othersCount → PlayerInput) (gs : GameState) :
    Decidable (TickFits c inputs gs) :=
  inferInstanceAs (Decidable (∀ _ : Fin (othersCount + 1), _ ∧ _))

/-- No addition of the step overflows. -/
def NoOverflow (x : Step Shared AtomicEvent ClientOutput) : Prop :=
  ∀ env c gs inputs, x.event = .tick env c → x.pre.currentGameState = some gs →
    x.pre.lastPlayerInputs = some inputs → TickFits c inputs gs

/-- The event does not make a slave of the client. -/
def StaysMaster (mp : Msgpack) (e : AtomicEvent) : Prop :=
  ∀ ui, acceptedUserInfo mp e = some ui → ui.isMaster = true

/-- Only a player input brings one. -/
theorem received_of_inputFor {k : Fin othersCount} {env : ClientEnv} {data : Bytes}
    {pi : PlayerInput} (h : inputFor mp k (.receive env data) = some pi) :
    received mp env.net.reader data = .playerInput pi := by
  obtain ⟨env', data', payload, heq, hparse, hpi, -⟩ := inputFor_eq_some h
  cases heq
  simp only [received, hparse, hpi]

theorem inputFor_received {env : ClientEnv} {data : Bytes} {pi : PlayerInput}
    (h : received mp env.net.reader data = .playerInput pi) (k : Fin othersCount) :
    inputFor mp k (.receive env data) = if slaveIndex pi.id = some k then some pi else none := by
  obtain ⟨payload, hparse, hpi⟩ := received_playerInput h
  exact inputFor_receive hparse hpi k

theorem inputFor_none {env : ClientEnv} {data : Bytes}
    (h : ∀ pi, received mp env.net.reader data ≠ .playerInput pi) (k : Fin othersCount) :
    inputFor mp k (.receive env data) = none := by
  cases hin : inputFor mp k (.receive env data) with
  | none => rfl
  | some pi => exact absurd (received_of_inputFor hin) (h pi)

/-- **What a packet does to the world of a master**: an input is held, and nobody moves. -/
theorem receive_master {env : ClientEnv} {data : Bytes} {ui : UserInfo} {gs : GameState}
    {inputs : Fin othersCount → PlayerInput} (hmaster : ui.isMaster = true)
    (hstays : StaysMaster mp (.receive env data))
    (h : handleReceive mp env ⟨some ui, some gs, some inputs⟩ data = some s') :
    ∃ ui' gs' inputs', s' = ⟨some ui', some gs', some inputs'⟩ ∧ ui'.isMaster = true ∧
      gs'.tick = gs.tick ∧
      (∀ i, (gs'.pos i).x = (gs.pos i).x ∧ (gs'.pos i).y = (gs.pos i).y) ∧
      ∀ k, (⟨(inputs' k).x, (inputs' k).y⟩ : UserInput) =
        ((inputFor mp k (.receive env data)).map fun pi => ⟨pi.x, pi.y⟩).getD
          ⟨(inputs k).x, (inputs k).y⟩ := by
  have hsame : ∀ k, inputFor mp k (.receive env data) = none →
      (⟨(inputs k).x, (inputs k).y⟩ : UserInput) =
        ((inputFor mp k (.receive env data)).map fun pi => ⟨pi.x, pi.y⟩).getD
          ⟨(inputs k).x, (inputs k).y⟩ := by
    intro k hk
    rw [hk]
    rfl
  have hchanges := changes_receive h
  cases hrec : received mp env.net.reader data with
  | userInfo ui' =>
    have hmaster' : ui'.isMaster = true := hstays ui' (by simp only [acceptedUserInfo, hrec])
    rw [hrec, Changes, hmaster', if_pos rfl] at hchanges
    exact ⟨ui', gs, inputs, hchanges, hmaster', rfl, fun _ => ⟨rfl, rfl⟩,
      fun k => hsame k (inputFor_none (by simp [hrec]) k)⟩
  | slaveConnected ui' =>
    have hnone := fun k => hsame k (inputFor_none (by simp [hrec]) k)
    rw [hrec, Changes] at hchanges
    cases hk : slaveIndex ui'.id with
    | none =>
      rw [hk] at hchanges
      exact ⟨ui, gs, inputs, hchanges, hmaster, rfl, fun _ => ⟨rfl, rfl⟩, hnone⟩
    | some k =>
      rw [hk] at hchanges
      obtain ⟨gs', hs', htick, hpos⟩ := hchanges
      refine ⟨ui, gs', inputs, hs', hmaster, htick, fun i => ?_, hnone⟩
      rw [hpos i]
      split_ifs
      · exact ⟨rfl, rfl⟩
      · exact ⟨rfl, rfl⟩
  | playerInput pi =>
    have hany : (some ui).any UserInfo.isMaster = true := hmaster
    rw [hrec, Changes, hany] at hchanges
    cases hk : slaveIndex pi.id with
    | none =>
      rw [hk] at hchanges
      refine ⟨ui, gs, inputs, hchanges, hmaster, rfl, fun _ => ⟨rfl, rfl⟩, fun k => hsame k ?_⟩
      rw [inputFor_received hrec, hk, if_neg (by simp)]
    | some j =>
      rw [hk] at hchanges
      obtain ⟨inputs', hin, hs'⟩ := hchanges
      cases hin
      refine ⟨ui, gs, _, hs', hmaster, rfl, fun _ => ⟨rfl, rfl⟩, fun k => ?_⟩
      rw [inputFor_received hrec, hk]
      by_cases hjk : j = k
      · subst hjk
        rw [Function.update_self, if_pos rfl]
        rfl
      · rw [Function.update_of_ne (Ne.symm hjk), if_neg fun he => hjk (Option.some.inj he)]
        rfl
  | ignored =>
    rw [hrec, Changes] at hchanges
    exact ⟨ui, gs, inputs, hchanges, hmaster, rfl, fun _ => ⟨rfl, rfl⟩,
      fun k => hsame k (inputFor_none (by simp [hrec]) k)⟩

/-! ## Over a run -/

/-- What is held for the positions at a tick after `past`. -/
def held (mp : Msgpack) (past : List AtomicEvent) (c : TickCall) :
    Fin (othersCount + 1) → UserInput :=
  Fin.cases c.userInput fun k => lastInput mp k past

/-- **How far position `i` has moved** along an axis: what was held for it, over the ticks. -/
def displacement (mp : Msgpack) (axis : UserInput → Int32) (i : Fin (othersCount + 1))
    (es : List AtomicEvent) : Int :=
  overTicks (fun past c => (axis (held mp past c i)).toInt) [] es

/-- **The law** between the events so far and the world. -/
structure Law (mp : Msgpack) (es : List AtomicEvent) (gs : GameState)
    (inputs : Fin othersCount → PlayerInput) : Prop where
  tick : gs.tick = (lastMatch ticksOf es).getD 0
  x : ∀ i, (gs.pos i).x.toInt = displacement mp UserInput.x i es
  y : ∀ i, (gs.pos i).y.toInt = displacement mp UserInput.y i es
  inputs : ∀ k, (⟨(inputs k).x, (inputs k).y⟩ : UserInput) = lastInput mp k es

/-- The client is a master whose world obeys the law. -/
def Obeys (mp : Msgpack) (es : List AtomicEvent) (s : Shared) : Prop :=
  ∃ ui gs inputs, s = ⟨some ui, some gs, some inputs⟩ ∧ ui.isMaster = true ∧ Law mp es gs inputs

/-- All positions have moved by numbers of `int32_t`. -/
def SumsFit (mp : Msgpack) (es : List AtomicEvent) : Prop :=
  ∀ i, InInt32 (displacement mp UserInput.x i es) ∧ InInt32 (displacement mp UserInput.y i es)

theorem displacement_snoc (axis : UserInput → Int32) (i : Fin (othersCount + 1))
    (es : List AtomicEvent) (e : AtomicEvent) :
    displacement mp axis i (es ++ [e]) = displacement mp axis i es +
      tickTerm (fun past c => (axis (held mp past c i)).toInt) es e :=
  overTicks_snoc _ [] es e

section Held

variable {es : List AtomicEvent} {gs : GameState} {inputs : Fin othersCount → PlayerInput}
  {c : TickCall}

/-- `LAST_PLAYER_INPUTS` has what the law says. -/
theorem addends_eq_held (h : Law mp es gs inputs) (c : TickCall) :
    addends inputs c = held mp es c := by
  funext i
  cases i using Fin.cases with
  | zero => rfl
  | succ k => exact h.inputs k

/-- Under the law a tick does not overflow where the sums with it fit. -/
theorem tickFits_iff_sums (h : Law mp es gs inputs) (env : ClientEnv) (c : TickCall) :
    TickFits c inputs gs ↔ SumsFit mp (es ++ [.tick env c]) := by
  unfold TickFits SumsFit
  refine forall_congr' fun i => ?_
  rw [displacement_snoc, displacement_snoc, h.x i, h.y i, addends_eq_held h]
  rfl

/-- **A tick under the law.** -/
theorem law_tick (h : Law mp es gs inputs) (env : ClientEnv) (hfits : TickFits c inputs gs) :
    Law mp (es ++ [.tick env c]) (othersInputs inputs (ownInput c gs)) inputs := by
  have hmoves := tick_pos c inputs gs
  refine ⟨?_, fun i => ?_, fun i => ?_, fun k => ?_⟩
  · rw [lastMatch_snoc]
    rfl
  · rw [(hmoves i).1, toInt_add_of_inInt32 (hfits i).1, h.x i, addends_eq_held h,
      displacement_snoc]
    rfl
  · rw [(hmoves i).2, toInt_add_of_inInt32 (hfits i).2, h.y i, addends_eq_held h,
      displacement_snoc]
    rfl
  · rw [lastInput_snoc]
    exact h.inputs k

/-- **A packet under the law.** -/
theorem law_receive {env : ClientEnv} {data : Bytes} {gs' : GameState}
    {inputs' : Fin othersCount → PlayerInput} (h : Law mp es gs inputs)
    (htick : gs'.tick = gs.tick)
    (hpos : ∀ i, (gs'.pos i).x = (gs.pos i).x ∧ (gs'.pos i).y = (gs.pos i).y)
    (hinputs : ∀ k, (⟨(inputs' k).x, (inputs' k).y⟩ : UserInput) =
      ((inputFor mp k (.receive env data)).map fun pi => ⟨pi.x, pi.y⟩).getD
        ⟨(inputs k).x, (inputs k).y⟩) : Law mp (es ++ [.receive env data]) gs' inputs' := by
  refine ⟨?_, fun i => ?_, fun i => ?_, fun k => ?_⟩
  · rw [htick, h.tick, lastMatch_snoc]
    rfl
  · rw [(hpos i).1, h.x i, displacement_snoc]
    exact (Int.add_zero _).symm
  · rw [(hpos i).2, h.y i, displacement_snoc]
    exact (Int.add_zero _).symm
  · rw [hinputs k, h.inputs k, lastInput_snoc]

/-- A new world obeys the law. -/
theorem law_fresh {ui : UserInfo} (hmaster : ui.isMaster = true) :
    Obeys mp [] (freshMaster ui) := by
  refine ⟨ui, .zero, _, rfl, hmaster, rfl, fun i => ?_, fun i => ?_, fun k => rfl⟩
  · rw [GameState.zero_pos]
    rfl
  · rw [GameState.zero_pos]
    rfl

/-- **Every step of a master that does not overflow keeps the law.** -/
theorem law_step (h : Obeys mp es s) (hs : (atomicClient mp).step s e = some (s', out))
    (hstays : StaysMaster mp e) (hfits : NoOverflow ⟨s, e, out, s'⟩) : Obeys mp (es ++ [e]) s' := by
  obtain ⟨ui, gs, inputs, rfl, hmaster, hlaw⟩ := h
  cases e with
  | tick env c =>
    have hcall : tryExecuteTick mp env ⟨some ui, some gs, some inputs⟩ c = some (s', out) := hs
    rw [tryExecuteTick_master hmaster] at hcall
    cases hcall
    exact ⟨ui, _, inputs, rfl, hmaster, law_tick hlaw env (hfits env c gs inputs rfl rfl rfl)⟩
  | receive env data =>
    obtain ⟨s₁, hs₁, heq⟩ := Option.map_eq_some_iff.mp hs
    cases heq
    obtain ⟨ui', gs', inputs', rfl, hmaster', htick, hpos, hinputs⟩ :=
      receive_master hmaster hstays hs₁
    exact ⟨ui', gs', inputs', rfl, hmaster', law_receive hlaw htick hpos hinputs⟩

end Held

section Runs

variable {ui : UserInfo} {tr : List (Step Shared AtomicEvent ClientOutput)}

/-- **Every run of a new master keeps the law** while no addition overflows. -/
theorem law_run (hmaster : ui.isMaster = true) (hr : Run (atomicClient mp) (freshMaster ui) tr s)
    (hstays : ∀ x ∈ tr, StaysMaster mp x.event) (hfits : ∀ x ∈ tr, NoOverflow x) :
    Obeys mp (tr.map Step.event) s := by
  refine hr.trace (I := fun t s => (∀ x ∈ t, StaysMaster mp x.event) → (∀ x ∈ t, NoOverflow x) →
    Obeys mp (t.map Step.event) s) ?_ (fun _ _ => law_fresh hmaster) hstays hfits
  intro t s e s' out ih hs hstays hfits
  have hlaw := ih (fun x hx => hstays x (List.mem_append_left _ hx))
    (fun x hx => hfits x (List.mem_append_left _ hx))
  rw [List.map_append, List.map_singleton]
  exact law_step hlaw hs (hstays _ (List.mem_append_right _ List.mem_cons_self))
    (hfits _ (List.mem_append_right _ List.mem_cons_self))

/-- **Where everybody is after a run of a new master** none of whose additions overflows: `pos_1`
has moved by the inputs of all calls, `pos_{k+2}` over all ticks by the last input accepted for
slave `k` before the tick, whatever else has arrived, and `tick` is the argument of the last
call. -/
theorem positions_areSums (hmaster : ui.isMaster = true)
    (hr : Run (atomicClient mp) (freshMaster ui) tr s)
    (hstays : ∀ x ∈ tr, StaysMaster mp x.event) (hfits : ∀ x ∈ tr, NoOverflow x) :
    ∃ gs, s.currentGameState = some gs ∧
      gs.tick = (lastMatch ticksOf (tr.map Step.event)).getD 0 ∧
      gs.pos1.x.toInt = overTicks (fun _ c => c.userInput.x.toInt) [] (tr.map Step.event) ∧
      gs.pos1.y.toInt = overTicks (fun _ c => c.userInput.y.toInt) [] (tr.map Step.event) ∧
      ∀ k : Fin othersCount,
        (gs.pos k.succ).x.toInt =
          overTicks (fun past _ => (lastInput mp k past).x.toInt) [] (tr.map Step.event) ∧
        (gs.pos k.succ).y.toInt =
          overTicks (fun past _ => (lastInput mp k past).y.toInt) [] (tr.map Step.event) ∧
        ∀ axis : UserInput → Int32,
          overTicks (fun past _ => (axis (lastInput mp k past)).toInt) []
              ((tr.map Step.event).filter (concerns mp k)) =
            overTicks (fun past _ => (axis (lastInput mp k past)).toInt) []
              (tr.map Step.event) := by
  obtain ⟨ui', gs, inputs, rfl, -, hlaw⟩ := law_run hmaster hr hstays hfits
  refine ⟨gs, rfl, hlaw.tick, hlaw.x 0, hlaw.y 0, fun k => ⟨hlaw.x k.succ, hlaw.y k.succ, ?_⟩⟩
  intro axis
  refine overTicks_filter _ (fun e he => ?_) (fun past c => ?_) [] _
  · rw [concerns, he, Bool.true_or]
  · rw [lastInput_filter]

/-- `NoOverflow` as a test. -/
def fits (x : Step Shared AtomicEvent ClientOutput) : Bool :=
  match x.event, x.pre.currentGameState, x.pre.lastPlayerInputs with
  | .tick _ c, some gs, some inputs => decide (TickFits c inputs gs)
  | _, _, _ => true

theorem fits_iff {x : Step Shared AtomicEvent ClientOutput} : fits x = true ↔ NoOverflow x := by
  obtain ⟨⟨ui, cgs, lpi⟩, e, out, post⟩ := x
  constructor
  · rintro h env c gs inputs rfl rfl rfl
    exact of_decide_eq_true h
  · intro h
    cases e with
    | receive env data => rfl
    | tick env c =>
      cases cgs with
      | none => rfl
      | some gs =>
        cases lpi with
        | none => rfl
        | some inputs => exact decide_eq_true (h env c gs inputs rfl rfl rfl)

/-- `StaysMaster` as a test. -/
def staysMaster (mp : Msgpack) (e : AtomicEvent) : Bool :=
  (acceptedUserInfo mp e).all UserInfo.isMaster

theorem staysMaster_iff : staysMaster mp e = true ↔ StaysMaster mp e := by
  unfold staysMaster StaysMaster
  rw [Option.all_eq_true]

/-- Two slaves, one of which changes its mind, and an input for nobody. -/
def twoSlaves : List AtomicEvent :=
  [.receive .ideal (inputPacket reference ⟨1, 2, -1⟩), .tick .ideal ⟨5, ⟨1, 0⟩⟩,
    .receive .ideal (inputPacket reference ⟨9, 7, 7⟩), .tick .ideal ⟨6, ⟨0, 1⟩⟩,
    .receive .ideal (inputPacket reference ⟨1, 0, 1⟩),
    .receive .ideal (inputPacket reference ⟨3, -4, 0⟩), .tick .ideal ⟨7, ⟨1, 1⟩⟩]

theorem positions_areSums_twoSlaves : ∃ tr s gs,
    Run (atomicClient reference) (freshMaster ⟨0, true⟩) tr s ∧ tr.map Step.event = twoSlaves ∧
    s.currentGameState = some gs ∧ gs.tick = 7 ∧
    gs.pos1.x.toInt = 2 ∧ (gs.pos 1).x.toInt = 4 ∧ (gs.pos 2).x.toInt = 0 ∧
    (gs.pos 3).x.toInt = -4 := by
  obtain ⟨tr, s, hr, hev, hQ⟩ := run_of_exec (atomicClient reference) (freshMaster ⟨0, true⟩)
    twoSlaves (fun tr _ => tr.all fun x => fits x && staysMaster reference x.event)
    (by decide +kernel)
  have hall : ∀ x ∈ tr, fits x = true ∧ staysMaster reference x.event = true := by
    intro x hx
    simpa using List.all_eq_true.mp hQ x hx
  obtain ⟨gs, hgs, htick, hx, -, hslaves⟩ := positions_areSums rfl hr
    (fun x hx => staysMaster_iff.mp (hall x hx).2) fun x hx => fits_iff.mp (hall x hx).1
  rw [hev] at htick hx hslaves
  refine ⟨tr, s, gs, hr, hev, hgs, htick.trans (by decide +kernel), hx.trans (by decide +kernel),
    (hslaves 0).1.trans (by decide +kernel), (hslaves 1).1.trans (by decide +kernel),
    (hslaves 2).1.trans (by decide +kernel)⟩

/-! ## Overflow -/

/-- Up to every tick all positions have moved by numbers of `int32_t`. -/
def SumsInRange (mp : Msgpack) (es : List AtomicEvent) : Prop :=
  ∀ es₁ e es₂, es = es₁ ++ e :: es₂ → e.isTick = true → SumsFit mp (es₁ ++ [e])

/-- Both components of an input are -1, 0 or 1. -/
def OneStep (v : UserInput) : Prop :=
  (-1 ≤ v.x.toInt ∧ v.x.toInt ≤ 1) ∧ -1 ≤ v.y.toInt ∧ v.y.toInt ≤ 1

instance (v : UserInput) : Decidable (OneStep v) :=
  inferInstanceAs (Decidable ((_ ∧ _) ∧ _ ∧ _))

/-- The call, or the input the event delivers, moves a player by one step at most. -/
def OneStepEvent (mp : Msgpack) (e : AtomicEvent) : Prop :=
  (∀ env c, e = .tick env c → OneStep c.userInput) ∧
    ∀ k pi, inputFor mp k e = some pi → OneStep ⟨pi.x, pi.y⟩

/-- Where all inputs are of one step, so is what is held. -/
theorem oneStep_held {es : List AtomicEvent} {c : TickCall}
    (hes : ∀ e ∈ es, OneStepEvent mp e) (hc : OneStep c.userInput) (i : Fin (othersCount + 1)) :
    OneStep (held mp es c i) := by
  cases i using Fin.cases with
  | zero => exact hc
  | succ k =>
    have hheld : held mp es c k.succ = lastInput mp k es := rfl
    rw [hheld, lastInput]
    cases hlast : lastMatch (inputFor mp k) es with
    | none => exact ⟨⟨by decide, by decide⟩, by decide, by decide⟩
    | some pi =>
      obtain ⟨e, he, hpi⟩ := lastMatch_mem hlast
      exact (hes e he).2 k pi hpi

/-- Fewer ticks than `INT32_MAX + 1` with such inputs move nobody out of range. -/
theorem sumsInRange_oneStep {es : List AtomicEvent} (hes : ∀ e ∈ es, OneStepEvent mp e)
    (hcount : es.countP AtomicEvent.isTick < 2 ^ 31) : SumsInRange mp es := by
  rintro es₁ e es₂ rfl - i
  have hheld : ∀ t₁ env c t₂, es₁ ++ [e] = t₁ ++ .tick env c :: t₂ → OneStep (held mp t₁ c i) := by
    intro t₁ env c t₂ hsplit
    have hall : ∀ e' ∈ t₁ ++ AtomicEvent.tick env c :: t₂, OneStepEvent mp e' := by
      intro e' he'
      rw [← hsplit] at he'
      refine hes e' ?_
      rw [List.append_cons]
      exact List.mem_append_left _ he'
    exact oneStep_held (fun e' he' => hall e' (List.mem_append_left _ he'))
      ((hall _ (List.mem_append_right _ List.mem_cons_self)).1 env c rfl) i
  have hle : (es₁ ++ [e]).countP AtomicEvent.isTick ≤
      (es₁ ++ e :: es₂).countP AtomicEvent.isTick := by
    rw [List.append_cons es₁ e es₂]
    exact (List.sublist_append_left _ _).countP_le
  have hx := overTicks_bound (fun past c => (UserInput.x (held mp past c i)).toInt)
    fun t₁ env c t₂ h => (hheld t₁ env c t₂ h).1
  have hy := overTicks_bound (fun past c => (UserInput.y (held mp past c i)).toInt)
    fun t₁ env c t₂ h => (hheld t₁ env c t₂ h).2
  unfold displacement InInt32
  omega

theorem sumsInRange_mono {es es' : List AtomicEvent} (h : SumsInRange mp (es ++ es')) :
    SumsInRange mp es := by
  rintro es₁ e es₂ rfl htick
  exact h es₁ e (es₂ ++ es') (by rw [List.append_assoc, List.cons_append]) htick

/-- While the sums fit nothing overflows: up to each tick the law holds, and by it the tick fits. -/
theorem noOverflow_of_sums (hmaster : ui.isMaster = true)
    (hr : Run (atomicClient mp) (freshMaster ui) tr s)
    (hstays : ∀ x ∈ tr, StaysMaster mp x.event) (hsums : SumsInRange mp (tr.map Step.event)) :
    (∀ x ∈ tr, NoOverflow x) ∧ Obeys mp (tr.map Step.event) s := by
  refine hr.trace (I := fun t s => (∀ x ∈ t, StaysMaster mp x.event) →
    SumsInRange mp (t.map Step.event) → (∀ x ∈ t, NoOverflow x) ∧ Obeys mp (t.map Step.event) s)
    ?_ (fun _ _ => ⟨fun x hx => absurd hx List.not_mem_nil, law_fresh hmaster⟩) hstays hsums
  intro t s e s' out ih hs hstays hsums
  rw [List.map_append, List.map_singleton] at hsums ⊢
  obtain ⟨hbefore, hlaw⟩ :=
    ih (fun x hx => hstays x (List.mem_append_left _ hx)) (sumsInRange_mono hsums)
  have hfits : NoOverflow ⟨s, e, out, s'⟩ := by
    rintro env c gs inputs rfl hgs hin
    obtain ⟨ui', gs', inputs', rfl, -, hlaw'⟩ := hlaw
    cases hgs
    cases hin
    exact (tickFits_iff_sums hlaw' env c).mpr (hsums _ _ [] rfl rfl)
  refine ⟨fun x hx => ?_, law_step hlaw hs (hstays _ (List.mem_append_right _ List.mem_cons_self))
    hfits⟩
  rcases List.mem_append.mp hx with hold | hnew
  · exact hbefore x hold
  · rw [List.mem_singleton.mp hnew]
    exact hfits

/-- **No addition overflows exactly while the sums fit.** In a run of a new master no addition of a
tick overflows if and only if up to every tick each position has moved by numbers of `int32_t`; so
none does in fewer than 2^31 ticks with inputs of one step. Nothing bounds what a player input
brings. -/
theorem noOverflow_iff_sums (hmaster : ui.isMaster = true)
    (hr : Run (atomicClient mp) (freshMaster ui) tr s)
    (hstays : ∀ x ∈ tr, StaysMaster mp x.event) :
    ((∀ x ∈ tr, NoOverflow x) ↔ SumsInRange mp (tr.map Step.event)) ∧
      ((∀ x ∈ tr, OneStepEvent mp x.event) →
        (tr.map Step.event).countP AtomicEvent.isTick < 2 ^ 31 → ∀ x ∈ tr, NoOverflow x) := by
  have hiff : (∀ x ∈ tr, NoOverflow x) ↔ SumsInRange mp (tr.map Step.event) := by
    constructor
    · intro hfits es₁ e es₂ hes htick
      obtain ⟨t₁, t', rfl, rfl, ht'⟩ := List.map_eq_append_iff.mp hes
      obtain ⟨x, t₂, rfl, rfl, rfl⟩ := List.map_eq_cons_iff.mp ht'
      obtain ⟨hbefore, -, -⟩ := hr.split
      obtain ⟨ui', gs, inputs, hpre, -, hlaw⟩ := law_run hmaster hbefore
        (fun y hy => hstays y (List.mem_append_left _ hy))
        fun y hy => hfits y (List.mem_append_left _ hy)
      have hx := hfits x (List.mem_append_right _ List.mem_cons_self)
      obtain ⟨pre, e, out, post⟩ := x
      cases e with
      | receive env data => cases htick
      | tick env c =>
        subst hpre
        exact (tickFits_iff_sums hlaw env c).mp (hx env c gs inputs rfl rfl rfl)
    · intro hsums
      exact (noOverflow_of_sums hmaster hr hstays hsums).1
  refine ⟨hiff, fun hone hcount => hiff.mpr (sumsInRange_oneStep ?_ hcount)⟩
  intro e he
  obtain ⟨x, hx, rfl⟩ := List.mem_map.mp he
  exact hone x hx

/-- `OneStepEvent` as a test. -/
def oneStepEvent (mp : Msgpack) (e : AtomicEvent) : Bool :=
  match e with
  | .tick _ c => decide (OneStep c.userInput)
  | .receive _ _ => (List.finRange othersCount).all fun k =>
      (inputFor mp k e).all fun pi => decide (OneStep ⟨pi.x, pi.y⟩)

theorem oneStepEvent_sound (h : oneStepEvent mp e = true) : OneStepEvent mp e := by
  cases e with
  | tick env c =>
    refine ⟨fun env' c' he => ?_, fun k pi hpi => absurd hpi (by simp [inputFor])⟩
    cases he
    exact of_decide_eq_true h
  | receive env data =>
    refine ⟨fun env' c' he => absurd he (by simp), fun k pi hpi => ?_⟩
    have hall := List.all_eq_true.mp h k (List.mem_finRange k)
    rw [hpi] at hall
    exact of_decide_eq_true hall

/-- A slave that moves step by step. -/
def oneStepSlave : List AtomicEvent :=
  [.receive .ideal (inputPacket reference ⟨1, 1, -1⟩), .tick .ideal ⟨0, ⟨0, 1⟩⟩,
    .tick .ideal ⟨1, ⟨-1, 0⟩⟩]

theorem noOverflow_iff_sums_oneStepSlave : ∃ tr s,
    Run (atomicClient reference) (freshMaster ⟨0, true⟩) tr s ∧
    tr.map Step.event = oneStepSlave ∧ (∀ x ∈ tr, NoOverflow x) ∧
    SumsInRange reference oneStepSlave := by
  obtain ⟨tr, s, hr, hev, hQ⟩ := run_of_exec (atomicClient reference) (freshMaster ⟨0, true⟩)
    oneStepSlave (fun tr _ => tr.all fun x =>
      oneStepEvent reference x.event && staysMaster reference x.event) (by decide +kernel)
  have hall : ∀ x ∈ tr,
      oneStepEvent reference x.event = true ∧ staysMaster reference x.event = true := by
    intro x hx
    simpa using List.all_eq_true.mp hQ x hx
  obtain ⟨hiff, hfew⟩ :=
    noOverflow_iff_sums rfl hr fun x hx => staysMaster_iff.mp (hall x hx).2
  have hno := hfew (fun x hx => oneStepEvent_sound (hall x hx).1) (by rw [hev]; decide)
  exact ⟨tr, s, hr, hev, hno, hev ▸ hiff.mp hno⟩

/-- A new master, an input far away, and two ticks of a player who stands still. -/
def farAway : List AtomicEvent :=
  [.receive .ideal (frame .resUserInfo (some (userInfoBytes reference ⟨0, true⟩))),
    .receive .ideal (inputPacket reference ⟨1, 2147483647, 0⟩),
    .tick .ideal ⟨0, ⟨0, 0⟩⟩, .tick .ideal ⟨1, ⟨0, 0⟩⟩]

/-- One input, added once more by the second tick, leaves `int32_t`. -/
theorem inputTwice_overflows : ∃ tr s, Run (atomicClient reference) .init tr s ∧
    tr.map Step.event = farAway ∧
    (∀ x ∈ tr, ∀ env c, x.event = .tick env c → OneStep c.userInput) ∧
    ∃ x ∈ tr, ¬ NoOverflow x := by
  obtain ⟨tr, s, hr, hev, hQ⟩ := run_of_exec (atomicClient reference) .init farAway
    (fun tr _ => (tr.all fun x => !x.event.isTick || oneStepEvent reference x.event) &&
      tr.any fun x => !fits x) (by decide +kernel)
  rw [Bool.and_eq_true] at hQ
  obtain ⟨x, hx, hfits⟩ := List.any_eq_true.mp hQ.2
  refine ⟨tr, s, hr, hev, fun y hy env c he => ?_, x, hx, fun hno => ?_⟩
  · have htest := List.all_eq_true.mp hQ.1 y hy
    rw [he] at htest
    have hstep : oneStepEvent reference (.tick env c) = true := htest
    exact (oneStepEvent_sound hstep).1 env c rfl
  · rw [fits_iff.mpr hno] at hfits
    exact absurd hfits (by decide)

end Runs

end MasterRelay.Client
