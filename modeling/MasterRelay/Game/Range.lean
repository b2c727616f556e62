import MasterRelay.Client.Positions
import MasterRelay.Game.Authority

/-!
# The world stays in range

An attacker overflows the additions of `try_execute_tick` with one packet. In the closed system an
input is what has been typed to a slave, and what can be typed moves a player by one step at most
(`x+1`, `x-1`, `y+1`, `y-1` and `tick`; the tick thread moves nobody). So nobody is further from the
origin than the number of ticks of the master.

* `near_step`, `near_run`: the bound over a run (`Near`).
* **`world_inRange`**: below `2 ^ 31` ticks at each peer no addition overflows.
-/

namespace MasterRelay.Game

open MasterRelay.Client
open MasterRelay.Lib.MsgPack
open MasterRelay.Lib.Runs
open MasterRelay.Protocol
open MasterRelay.Server

variable {P : Type}

/-- What is typed moves a player by one step at most. -/
def OneStepTyped (x : ClosedMove P) : Prop :=
  ∀ p env c, x.event = .tick p env c → OneStep c.userInput

/-- Every player of a world is at most `n` steps from the origin along each axis. -/
def Within (n : Nat) (gs : GameState) : Prop :=
  ∀ i, (-(n : Int) ≤ (gs.pos i).x.toInt ∧ (gs.pos i).x.toInt ≤ n) ∧
    -(n : Int) ≤ (gs.pos i).y.toInt ∧ (gs.pos i).y.toInt ≤ n

theorem within_zero (n : Nat) : Within n .zero := by
  intro i
  rw [GameState.zero_pos]
  simp [PlayerPos.zero]

theorem within_congr {n : Nat} {gs gs' : GameState} (h : Within n gs)
    (hsame : ∀ i, (gs'.pos i).x = (gs.pos i).x ∧ (gs'.pos i).y = (gs.pos i).y) : Within n gs' := by
  intro i
  rw [(hsame i).1, (hsame i).2]
  exact h i

theorem oneStep_zero : OneStep ⟨0, 0⟩ := by decide

/-- **A tick with inputs of one step** does not overflow, and moves everybody by one step at
most. -/
theorem within_tick {n : Nat} {gs : GameState} {c : TickCall}
    {inputs : Fin othersCount → PlayerInput} (h : Within n gs) (hn : n + 1 < 2 ^ 31)
    (hinputs : ∀ i, OneStep (addends inputs c i)) :
    TickFits c inputs gs ∧ Within (n + 1) (othersInputs inputs (ownInput c gs)) := by
  have hfits : TickFits c inputs gs := by
    intro i
    have hpos := h i
    have hadd := hinputs i
    unfold OneStep at hadd
    unfold InInt32
    omega
  refine ⟨hfits, fun i => ?_⟩
  have hpos := h i
  have hadd := hinputs i
  unfold OneStep at hadd
  rw [(tick_pos c inputs gs i).1, (tick_pos c inputs gs i).2, toInt_add_of_inInt32 (hfits i).1,
    toInt_add_of_inInt32 (hfits i).2]
  push_cast
  omega

variable {mp : Msgpack}

/-- **What a packet does to the world**: nobody moves, or it is created. -/
theorem receive_world {env : ClientEnv} {s s' : Shared} {d : Bytes} {gs' : GameState}
    (h : handleReceive mp env s d = some s') (hgs' : s'.currentGameState = some gs') :
    gs' = .zero ∨ ∃ gs, s.currentGameState = some gs ∧
      ∀ i, (gs'.pos i).x = (gs.pos i).x ∧ (gs'.pos i).y = (gs.pos i).y := by
  have hsame : s'.currentGameState = s.currentGameState → ∃ gs, s.currentGameState = some gs ∧
      ∀ i, (gs'.pos i).x = (gs.pos i).x ∧ (gs'.pos i).y = (gs.pos i).y := fun he =>
    ⟨gs', he.symm.trans hgs', fun _ => ⟨rfl, rfl⟩⟩
  have hchanges := changes_receive h
  cases hrec : received mp env.net.reader d with
  | userInfo ui =>
    rw [hrec] at hchanges
    dsimp only [Changes] at hchanges
    split_ifs at hchanges
    · rw [hchanges] at hgs'
      dsimp only [initialised] at hgs'
      cases hgs : s.currentGameState with
      | none =>
        rw [hgs] at hgs'
        exact .inl (Option.some.inj hgs').symm
      | some gs =>
        rw [hgs] at hgs'
        cases hgs'
        exact .inr ⟨gs, rfl, fun _ => ⟨rfl, rfl⟩⟩
    · exact .inr (hsame (by rw [hchanges]))
  | slaveConnected ui =>
    rw [hrec] at hchanges
    dsimp only [Changes] at hchanges
    split at hchanges
    · rename_i k gs hk hgs
      obtain ⟨gs₁, hs', -, hpos⟩ := hchanges
      rw [hs'] at hgs'
      cases hgs'
      refine .inr ⟨gs, hgs, fun i => ?_⟩
      rw [hpos i]
      split_ifs
      · exact ⟨rfl, rfl⟩
      · exact ⟨rfl, rfl⟩
    · exact .inr (hsame (by rw [hchanges]))
  | playerInput pi =>
    rw [hrec] at hchanges
    dsimp only [Changes] at hchanges
    split at hchanges
    · obtain ⟨inputs, -, hs'⟩ := hchanges
      exact .inr (hsame (by rw [hs']))
    · exact .inr (hsame (by rw [hchanges]))
  | ignored =>
    rw [hrec] at hchanges
    exact .inr (hsame (congrArg Shared.currentGameState hchanges))

variable [DecidableEq P]

/-- The event is a tick of `p`. -/
def ClosedEvent.isTickOf (p : P) : ClosedEvent P → Bool
  | .connect _ => false
  | .request _ _ => false
  | .arrive _ _ _ _ => false
  | .lose _ _ _ => false
  | .disconnect _ => false
  | .deliver _ _ _ _ => false
  | .drop _ _ _ => false
  | .tick q _ _ => decide (q = p)

/-- How often `p` has ticked. -/
def ticksBy (p : P) (tr : List (ClosedMove P)) : Nat := tr.countP fun x => x.event.isTickOf p

variable {tr : List (ClosedMove P)} {w w' : Closed P} {r : ServerRoster P} {e : ClosedEvent P}
  {out : List (ClosedOutput P)}

theorem ticksBy_snoc (p : P) (x : ClosedMove P) :
    ticksBy p (tr ++ [x]) = ticksBy p tr + if x.event.isTickOf p then 1 else 0 := by
  unfold ticksBy
  rw [List.countP_append, List.countP_singleton]

/-- Nobody is further from the origin than the number of ticks. -/
def Near (tr : List (ClosedMove P)) (w : Closed P) : Prop :=
  ∀ p gs, (w.net.client p).currentGameState = some gs → Within (ticksBy p tr) gs

theorem within_mono {m n : Nat} {gs : GameState} (h : Within m gs) (hmn : m ≤ n) :
    Within n gs := by
  intro i
  have hpos := h i
  omega

theorem near_same (h : Near tr w) (x : ClosedMove P)
    (hclient : ∀ p gs, (w'.net.client p).currentGameState = some gs →
      gs = .zero ∨ ∃ gs₀, (w.net.client p).currentGameState = some gs₀ ∧
        ∀ i, (gs.pos i).x = (gs₀.pos i).x ∧ (gs.pos i).y = (gs₀.pos i).y) :
    Near (tr ++ [x]) w' := by
  intro p gs hgs
  rcases hclient p gs hgs with rfl | ⟨gs₀, hgs₀, hsame⟩
  · exact within_zero _
  · refine within_mono (within_congr (h p gs₀ hgs₀) hsame) ?_
    rw [ticksBy_snoc]
    exact Nat.le_add_right _ _

omit [DecidableEq P] in
/-- What a master holds is of one step. -/
theorem held_oneStep (h : Honest mp tr w r) (htyped : ∀ x ∈ tr, OneStepTyped x) {p : P}
    {inputs : Fin othersCount → PlayerInput}
    (hin : (w.net.client p).lastPlayerInputs = some inputs) {c : TickCall}
    (hc : OneStep c.userInput) (i : Fin (othersCount + 1)) : OneStep (addends inputs c i) := by
  cases i using Fin.cases with
  | zero => exact hc
  | succ k =>
    show OneStep ⟨(inputs k).x, (inputs k).y⟩
    rcases h.inputs p inputs hin k with ⟨hx, hy⟩ | ⟨x, hx, q, -, env, c', o, he, hinput, -⟩
    · rw [hx, hy]
      exact oneStep_zero
    · rw [← hinput]
      exact htyped x hx q env c' he

/-- **A tick under the bound.** -/
theorem near_tick (hh : Honest mp tr w r) (h : Near tr w) (htyped : ∀ x ∈ tr, OneStepTyped x)
    {p : P} {env : ClientEnv} {c : TickCall} (hc : OneStep c.userInput)
    (hcount : ticksBy p tr + 1 < 2 ^ 31)
    (hs : (closed mp).step w (.tick p env c) = some (w', out)) :
    Near (tr ++ [⟨w, .tick p env c, out, w'⟩]) w' := by
  obtain ⟨o, s, hnet, -, -, -⟩ := closed_tick hs
  obtain ⟨s', htick, hw⟩ := network_tick hnet
  have hone : ticksBy p (tr ++ [⟨w, .tick p env c, out, w'⟩]) = ticksBy p tr + 1 := by
    rw [ticksBy_snoc]
    simp [ClosedEvent.isTickOf]
  intro q gs hgs
  rw [hw] at hgs
  by_cases hqp : q = p
  · subst hqp
    simp only [Function.update_self] at hgs
    rw [hone]
    have hkept : (w.net.client q).currentGameState = some gs → Within (ticksBy q tr + 1) gs :=
      fun hold => within_mono (h q gs hold) (Nat.le_succ _)
    rcases tryExecuteTick_cases htick with ⟨rfl, -⟩ | ⟨ui, gs₀, inputs, -, -, hgs₀, hin, rfl, -⟩ |
      ⟨ui, sent, -, -, -, rfl, -⟩
    · exact hkept hgs
    · cases hgs
      exact (within_tick (h q gs₀ hgs₀) hcount (held_oneStep hh htyped hin hc)).2
    · exact hkept hgs
  · simp only [Function.update_of_ne hqp] at hgs
    refine within_mono (h q gs hgs) ?_
    rw [ticksBy_snoc]
    exact Nat.le_add_right _ _

/-- **Every event keeps the bound.** -/
theorem near_step (hh : Honest mp tr w r) (h : Near tr w) (htyped : ∀ x ∈ tr, OneStepTyped x)
    (hs : (closed mp).step w e = some (w', out)) (hlast : OneStepTyped ⟨w, e, out, w'⟩)
    (hcount : ∀ p, ticksBy p (tr ++ [⟨w, e, out, w'⟩]) < 2 ^ 31) :
    Near (tr ++ [⟨w, e, out, w'⟩]) w' := by
  have hsame : ∀ q (gs : GameState), (w.net.client q).currentGameState = some gs →
      gs = .zero ∨ ∃ gs₀, (w.net.client q).currentGameState = some gs₀ ∧
        ∀ i, (gs.pos i).x = (gs₀.pos i).x ∧ (gs.pos i).y = (gs₀.pos i).y := fun q gs hgs =>
    .inr ⟨gs, hgs, fun _ => ⟨rfl, rfl⟩⟩
  cases e with
  | connect p =>
    obtain ⟨hnet, -, -⟩ := closed_connect hs
    obtain ⟨-, hw⟩ := network_connect hnet
    refine near_same h _ fun q gs hgs => ?_
    rw [hw] at hgs
    by_cases hqp : q = p
    · subst hqp
      simp [freshClient] at hgs
    · simp only [Function.update_of_ne hqp] at hgs
      exact hsame q gs hgs
  | request p env =>
    obtain ⟨hnet, -, -⟩ := closed_request hs
    exact near_same h _ (hnet ▸ hsame)
  | arrive p ch i env =>
    obtain ⟨-, d, t', os, -, -, -, hw, -, -⟩ := closed_arrive hs
    exact near_same h _ (by rw [hw]; exact hsame)
  | lose p ch i =>
    obtain ⟨hw, -⟩ := closed_lose hs
    exact near_same h _ (by rw [hw]; exact hsame)
  | disconnect p =>
    obtain ⟨⟨o, hnet⟩, -, -⟩ := closed_disconnect hs
    obtain ⟨t', os, -, hw⟩ := network_disconnect hnet
    exact near_same h _ (by rw [hw]; exact hsame)
  | deliver p ch i env =>
    obtain ⟨⟨o, hnet⟩, -, -⟩ := closed_deliver hs
    obtain ⟨-, d, s, -, hreceive, hw⟩ := network_deliver hnet
    refine near_same h _ fun q gs hgs => ?_
    rw [hw] at hgs
    by_cases hqp : q = p
    · subst hqp
      simp only [Function.update_self] at hgs
      exact receive_world hreceive hgs
    · simp only [Function.update_of_ne hqp] at hgs
      exact hsame q gs hgs
  | drop p ch i =>
    obtain ⟨⟨o, hnet⟩, -, -⟩ := closed_drop hs
    obtain ⟨-, hw⟩ := network_drop hnet
    exact near_same h _ (by rw [hw]; exact hsame)
  | tick p env c =>
    have hp := hcount p
    rw [ticksBy_snoc] at hp
    refine near_tick hh h htyped (hlast p env c rfl) ?_ hs
    simpa [ClosedEvent.isTickOf] using hp

theorem ticksBy_append (p : P) (t₁ t₂ : List (ClosedMove P)) :
    ticksBy p t₁ ≤ ticksBy p (t₁ ++ t₂) := by
  unfold ticksBy
  rw [List.countP_append]
  exact Nat.le_add_right _ _

/-- **Over every run.** -/
theorem near_run (hmp : mp.Lawful) (hr : Run (closed mp) .init tr w)
    (hreads : ∀ x ∈ tr, ReadsBuffers x) (htyped : ∀ x ∈ tr, OneStepTyped x)
    (hcount : ∀ p, ticksBy p tr < 2 ^ 31) : Near tr w := by
  refine (hr.trace (I := fun tr w => Run (closed mp) .init tr w ∧ ((∀ x ∈ tr, ReadsBuffers x) →
    (∀ x ∈ tr, OneStepTyped x) → (∀ p, ticksBy p tr < 2 ^ 31) → Near tr w)) ?_
    ⟨Run.nil _, fun _ _ _ p gs hgs => by simp [Closed.init, Network.init, freshClient] at hgs⟩).2
    hreads htyped hcount
  rintro tr w e w' out ⟨hr, ih⟩ hs
  refine ⟨hr.append (Run.single hs), fun hreads htyped hcount => ?_⟩
  have hreads' : ∀ x ∈ tr, ReadsBuffers x := fun x hx => hreads x (List.mem_append_left _ hx)
  have htyped' : ∀ x ∈ tr, OneStepTyped x := fun x hx => htyped x (List.mem_append_left _ hx)
  obtain ⟨r, hh⟩ := honest_run hmp hr hreads'
  exact near_step hh (ih hreads' htyped' fun p => (ticksBy_append p tr _).trans_lt (hcount p))
    htyped' hs (htyped _ (List.mem_append_right _ List.mem_cons_self)) hcount

/-- **The world stays in range.** In every run of the closed system from the start (where a new
connection belongs to a client that has just started) in which what is typed moves a player by one
step at most and there are fewer than `2 ^ 31` ticks at each peer: no addition of any tick
overflows, and at the end nobody is further from the origin than the ticks at the peer that has the
world. -/
theorem world_inRange (hmp : mp.Lawful) (hr : Run (closed mp) .init tr w)
    (hreads : ∀ x ∈ tr, ReadsBuffers x) (htyped : ∀ x ∈ tr, OneStepTyped x)
    (hcount : ∀ p, ticksBy p tr < 2 ^ 31) :
    (∀ x ∈ tr, ∀ p env c gs inputs, x.event = .tick p env c →
      (x.pre.net.client p).currentGameState = some gs →
      (x.pre.net.client p).lastPlayerInputs = some inputs → TickFits c inputs gs) ∧
    ∀ p gs, (w.net.client p).currentGameState = some gs → Within (ticksBy p tr) gs := by
  refine ⟨fun x hx p env c gs inputs he hgs hin => ?_, near_run hmp hr hreads htyped hcount⟩
  obtain ⟨-, t₁, t₂, rfl, hr₁, -⟩ := hr.mem hx
  have hreads₁ : ∀ y ∈ t₁, ReadsBuffers y := fun y hy => hreads y (List.mem_append_left _ hy)
  have htyped₁ : ∀ y ∈ t₁, OneStepTyped y := fun y hy => htyped y (List.mem_append_left _ hy)
  have hnear := near_run hmp hr₁ hreads₁ htyped₁ fun q =>
    (ticksBy_append q t₁ _).trans_lt (hcount q)
  obtain ⟨r, hh⟩ := honest_run hmp hr₁ hreads₁
  -- the tick itself counts
  have hp : ticksBy p t₁ + 1 < 2 ^ 31 := by
    have hle := ticksBy_append p (t₁ ++ [x]) t₂
    rw [List.append_assoc, List.singleton_append, ticksBy_snoc] at hle
    have hone : x.event.isTickOf p = true := by simp [he, ClosedEvent.isTickOf]
    rw [if_pos hone] at hle
    exact hle.trans_lt (hcount p)
  exact (within_tick (hnear p gs hgs) hp (held_oneStep hh htyped₁ hin (htyped x hx p env c he))).1

/-- The session moves two players by one step. -/
theorem world_inRange_session : ∃ tr, ∃ w : Closed Nat, Run (closed reference) .init tr w ∧
    ∃ gs, (w.net.client 1).currentGameState = some gs ∧ Within (ticksBy 1 tr) gs := by
  obtain ⟨tr, w, hr, hev, hQ⟩ := run_of_exec (closed reference) .init session
    (fun _ w => (w.net.client 1).currentGameState.isSome) (by decide +kernel)
  obtain ⟨gs, hgs⟩ := Option.isSome_iff_exists.mp hQ
  have htyped : ∀ x ∈ tr, OneStepTyped x := by
    intro x hx p env c he
    have hmem := List.mem_map_of_mem (f := Step.event) hx
    rw [hev, he] at hmem
    simp only [session, List.mem_cons, ClosedEvent.tick.injEq, List.not_mem_nil, reduceCtorEq,
      false_or, or_false] at hmem
    rcases hmem with ⟨-, -, rfl⟩ | ⟨-, -, rfl⟩ <;> decide
  have hcount : ∀ p, ticksBy p tr < 2 ^ 31 := by
    intro p
    have hle : ticksBy p tr ≤ (tr.map Step.event).length := by
      rw [List.length_map]
      exact List.countP_le_length
    rw [hev] at hle
    exact hle.trans_lt (by decide)
  exact ⟨tr, w, hr, gs, hgs, (world_inRange reference_lawful hr (session_readsBuffers hev) htyped
    hcount).2 1 gs hgs⟩

end MasterRelay.Game
