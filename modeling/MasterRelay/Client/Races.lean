import MasterRelay.Client.Threads
import Mathlib.Algebra.BigOperators.Group.List.Basic
import Mathlib.Data.List.Infix

/-!
# What a write-back loses

A call of `try_execute_tick` copies `*CURRENT_GAME_STATE` in one section and writes the copy back in
a later one. What another thread writes in between is overwritten.

* `slave_stays`: a slave's flag, once set, stays set in every run in which no `SLAVE_CONNECTED` is
  handled while a call holds a copy without the flag (`Overtaken`). The invariant is that the
  copies have the flags of the state. `overtaken_slave_lost` is a run that loses one.
* `ownInputs_kept_iff`: after each step of a run `pos_1` is where it started plus the inputs of the
  calls that have written back, if and only if every write-back finds `pos_1` as its call copied it
  (no `Stale` step). `stale_input_lost` is a run that loses an input.
-/

namespace MasterRelay.Client

open MasterRelay.Lib.MsgPack
open MasterRelay.Lib.Runs
open MasterRelay.Protocol

variable {mp : Msgpack} {m m' : ClientState}

/-! ## Slaves -/

/-- The flag of slave `k`. -/
def slaveFlag (gs : GameState) (k : Fin othersCount) : Bool := (gs.pos k.succ).isExists

/-- The step handles the `SLAVE_CONNECTED` of a slave while a call holds a copy without its flag. -/
def Overtaken (mp : Msgpack) (x : Step ClientState ClientEvent ClientOutput) : Prop :=
  ∃ k θ gs, Connects mp x.event k ∧ heldCopy (x.pre.tick θ) = some gs ∧ slaveFlag gs k = false

/-- **The invariant**: the copies have the flags of the state. -/
def FlagsAgree (m : ClientState) : Prop :=
  ∀ θ gs, heldCopy (m.tick θ) = some gs →
    ∃ cur, m.shared.currentGameState = some cur ∧ ∀ k, slaveFlag gs k = slaveFlag cur k

theorem slaveFlag_connectSlave (gs : GameState) (j k : Fin othersCount) :
    slaveFlag (connectSlave gs j) k = if k = j then true else slaveFlag gs k := by
  unfold slaveFlag
  rw [connectSlave_pos]
  by_cases h : k = j
  · rw [if_pos (congrArg Fin.succ h), if_pos h]
  · rw [if_neg fun e => h (Fin.succ_injective _ e), if_neg h]

theorem slaveFlag_tick (c : TickCall) (inputs : Fin othersCount → PlayerInput) (gs : GameState)
    (k : Fin othersCount) :
    slaveFlag (ownInput c gs) k = slaveFlag gs k ∧
      slaveFlag (othersInputs inputs gs) k = slaveFlag gs k := by
  obtain ⟨h₁, h₂⟩ := tick_slavePos c inputs gs k
  unfold slaveFlag
  rw [h₁, h₂]
  exact ⟨rfl, rfl⟩

/-- Copies that are kept or given up agree with a state of the same flags. -/
theorem flagsAgree_of_keeps {cur cur' : GameState} (h : FlagsAgree m) (hk : KeepsCopies m m')
    (hcur : m.shared.currentGameState = some cur) (hcur' : m'.shared.currentGameState = some cur')
    (hflags : ∀ k, slaveFlag cur' k = slaveFlag cur k) : FlagsAgree m' := by
  intro θ gs hgs
  rcases hk θ with hsame | hnone
  · obtain ⟨c, hc, hall⟩ := h θ gs (hsame ▸ hgs)
    obtain rfl : c = cur := Option.some.inj (hc.symm.trans hcur)
    exact ⟨cur', hcur', fun k => (hall k).trans (hflags k).symm⟩
  · exact absurd (hgs.symm.trans hnone) (by simp)

/-- A copy replaced by one with the same flags. -/
theorem flagsAgree_update {θ : Thread} {pc : TickPc} {gs cur : GameState} (h : FlagsAgree m)
    (hshared : m'.shared = m.shared) (htick : m'.tick = Function.update m.tick θ pc)
    (hcur : m.shared.currentGameState = some cur) (hpc : heldCopy pc = some gs)
    (hflags : ∀ k, slaveFlag gs k = slaveFlag cur k) : FlagsAgree m' := by
  intro θ' gs' hgs'
  rw [htick] at hgs'
  rw [hshared]
  by_cases hθ : θ' = θ
  · rw [hθ, Function.update_self, hpc] at hgs'
    obtain rfl := Option.some.inj hgs'
    exact ⟨cur, hcur, hflags⟩
  · rw [Function.update_of_ne hθ] at hgs'
    exact h θ' gs' hgs'

/-- **A step that does not overtake keeps the flags, and keeps the copies in agreement.** -/
theorem flags_step {e : ClientEvent} {out : List ClientOutput} (h : FlagsAgree m)
    (hs : (client mp).step m e = some (m', out)) (hok : ¬ Overtaken mp ⟨m, e, out, m'⟩) :
    FlagsAgree m' ∧ ∀ cur, m.shared.currentGameState = some cur →
      ∃ cur', m'.shared.currentGameState = some cur' ∧
        ∀ k, slaveFlag cur k = true → slaveFlag cur' k = true := by
  rcases client_cases hs with ⟨hsame, hk, -⟩ | ⟨hnone, hzero, htick, -⟩ |
    ⟨gs, j, hgs, hconn, hset, htick⟩ | ⟨θ, c, gs, hgs, hshared, htick, -⟩ |
    ⟨θ, c, gs, inputs, hpc, -, hshared, htick, -⟩ | ⟨c, gs, old, ⟨env, θ, he, hpc⟩, hold, hset, hk⟩
  · refine ⟨?_, fun cur hcur => ⟨cur, hsame.trans hcur, fun _ hk => hk⟩⟩
    intro θ gs hgs
    rcases hk θ with hθ | hθ
    · obtain ⟨cur, hcur, hall⟩ := h θ gs (hθ ▸ hgs)
      exact ⟨cur, hsame.trans hcur, hall⟩
    · exact absurd (hgs.symm.trans hθ) (by simp)
  · -- the state is created: there was no copy of it
    refine ⟨?_, fun cur hcur => absurd (hnone.symm.trans hcur) (by simp)⟩
    intro θ gs hgs
    rw [htick] at hgs
    obtain ⟨cur, hcur, -⟩ := h θ gs hgs
    exact absurd (hnone.symm.trans hcur) (by simp)
  · -- a slave connects: whoever holds a copy has its flag already
    refine ⟨?_, fun cur hcur => ⟨_, hset, fun k hk => ?_⟩⟩
    · intro θ copy hcopy
      rw [htick] at hcopy
      obtain ⟨cur, hcur, hall⟩ := h θ copy hcopy
      obtain rfl : cur = gs := Option.some.inj (hcur.symm.trans hgs)
      refine ⟨_, hset, fun k => ?_⟩
      rw [slaveFlag_connectSlave]
      by_cases hkj : k = j
      · rw [if_pos hkj, hkj]
        by_contra hfalse
        exact hok ⟨j, θ, copy, hconn, hcopy, Bool.eq_false_iff.mpr hfalse⟩
      · rw [if_neg hkj]
        exact hall k
    · obtain rfl : cur = gs := Option.some.inj (hcur.symm.trans hgs)
      rw [slaveFlag_connectSlave, hk, ite_self]
  · refine ⟨flagsAgree_update h hshared htick hgs rfl fun k =>
      (slaveFlag_tick c (fun _ => .zero) gs k).1,
      fun cur hcur => ⟨cur, hshared ▸ hcur, fun _ hk => hk⟩⟩
  · obtain ⟨cur, hcur, hall⟩ := h θ gs (by rw [hpc]; rfl)
    refine ⟨flagsAgree_update h hshared htick hcur rfl fun k => ?_,
      fun cur hcur => ⟨cur, hshared ▸ hcur, fun _ hk => hk⟩⟩
    exact (slaveFlag_tick c inputs gs k).2.trans (hall k)
  · -- a copy is written back: it has the flags of what it replaces
    obtain ⟨cur, hcur, hall⟩ := h θ gs (by rw [hpc]; rfl)
    refine ⟨flagsAgree_of_keeps h hk hcur hset hall, fun cur₁ hcur₁ => ⟨gs, hset, fun k hk => ?_⟩⟩
    obtain rfl : cur₁ = cur := Option.some.inj (hcur₁.symm.trans hcur)
    rw [hall, hk]

/-- Slave `k` is in the game. -/
def present (m : ClientState) (k : Fin othersCount) : Bool :=
  m.shared.currentGameState.any fun gs => slaveFlag gs k

theorem present_iff {k : Fin othersCount} :
    present m k = true ↔ ∃ gs, m.shared.currentGameState = some gs ∧ slaveFlag gs k = true := by
  unfold present
  rw [Option.any_eq_true]

/-- **A connected slave stays**, in every run from a state without copies whose steps do not
overtake a call: a flag that is set after some step of the run is set at its end. -/
theorem slave_stays {m₀ : ClientState} {tr : List (Step ClientState ClientEvent ClientOutput)}
    (hr : Run (client mp) m₀ tr m) (h₀ : ∀ θ, heldCopy (m₀.tick θ) = none)
    (hok : ∀ x ∈ tr, ¬ Overtaken mp x) {x : Step ClientState ClientEvent ClientOutput}
    (hx : x ∈ tr) {k : Fin othersCount} (hk : present x.post k = true) : present m k = true := by
  obtain ⟨hs, t₁, t₂, rfl, hr₁, hr₂⟩ := hr.mem hx
  have hagree₀ : FlagsAgree m₀ := fun θ gs hθ => absurd ((h₀ θ).symm.trans hθ) (by simp)
  have hagree₁ : FlagsAgree x.pre :=
    hr₁.invariantWhere (I := FlagsAgree) (P := fun x => ¬ Overtaken mp x)
      (fun _ _ _ _ h hno hs => (flags_step h hs hno).1)
      (fun y hy => hok y (List.mem_append_left _ hy)) hagree₀
  have hagree : FlagsAgree x.post := (flags_step hagree₁ hs (hok x hx)).1
  have hend := hr₂.invariantWhere (P := fun x => ¬ Overtaken mp x)
    (I := fun m => FlagsAgree m ∧
      ∃ gs, m.shared.currentGameState = some gs ∧ slaveFlag gs k = true)
    (fun m e m' out ⟨h, cur, hcur, hflag⟩ hno hs => by
      obtain ⟨h', hkeep⟩ := flags_step h hs hno
      obtain ⟨cur', hcur', hall⟩ := hkeep cur hcur
      exact ⟨h', cur', hcur', hall k hflag⟩)
    (fun y hy => hok y (List.mem_append_right _ (List.mem_cons_of_mem _ hy)))
    ⟨hagree, present_iff.mp hk⟩
  exact present_iff.mpr hend.2

/-- The first slave connects. -/
def slaveConnects : ClientEvent :=
  .receive .ideal (frame .slaveConnected (some (userInfoBytes reference ⟨1, false⟩)))

/-- The next section of a call. -/
def continueTick (θ : Thread) : ClientEvent := .tickSection .ideal θ

/-- No packet arrives while a call holds a copy. -/
def undisturbed (x : Step ClientState ClientEvent ClientOutput) : Bool :=
  match x.event with
  | .receive _ _ =>
    (heldCopy (x.pre.tick .main)).isNone && (heldCopy (x.pre.tick .tickLoop)).isNone
  | _ => true

theorem not_overtaken {x : Step ClientState ClientEvent ClientOutput} (h : undisturbed x = true) :
    ¬ Overtaken mp x := by
  rintro ⟨k, θ, gs, ⟨env, data, payload, ui, he, -⟩, hcopy, -⟩
  unfold undisturbed at h
  rw [he, Bool.and_eq_true, Option.isNone_iff_eq_none, Option.isNone_iff_eq_none] at h
  cases θ with
  | main => exact absurd (h.1.symm.trans hcopy) (by simp)
  | tickLoop => exact absurd (h.2.symm.trans hcopy) (by simp)

theorem slave_stays_wholeCall : ∃ tr m, Run (client reference) newMaster tr m ∧
    tr.map Step.event = slaveConnects :: .call .tickLoop ⟨5, ⟨0, 0⟩⟩ ::
      List.replicate 4 (continueTick .tickLoop) ∧ present m 0 = true := by
  obtain ⟨tr, m, hr, hev, hQ⟩ := run_of_exec (client reference) newMaster
    (slaveConnects :: .call .tickLoop ⟨5, ⟨0, 0⟩⟩ :: List.replicate 4 (continueTick .tickLoop))
    (fun tr _ => tr.all undisturbed && tr.any fun x => present x.post 0) (by decide +kernel)
  rw [Bool.and_eq_true, List.all_eq_true, List.any_eq_true] at hQ
  obtain ⟨hall, x, hx, hpresent⟩ := hQ
  exact ⟨tr, m, hr, hev, slave_stays hr (fun _ => rfl) (fun y hy => not_overtaken (hall y hy))
    hx hpresent⟩

/-- The tick loop copies the state, a slave connects, and the copy is written back. -/
theorem overtaken_slave_lost : ∃ tr m, Reachable (client reference) .init newMaster ∧
    Run (client reference) newMaster tr m ∧ (∃ x ∈ tr, present x.post 0 = true) ∧
    present m 0 = false := by
  obtain ⟨tr, m, hr, -, hQ⟩ := run_of_exec (client reference) newMaster
    [.call .tickLoop ⟨5, ⟨0, 0⟩⟩, continueTick .tickLoop, slaveConnects, continueTick .tickLoop,
      continueTick .tickLoop]
    (fun tr m => tr.any (fun x => present x.post 0) && !present m 0) (by decide +kernel)
  rw [Bool.and_eq_true, List.any_eq_true, Bool.not_eq_true'] at hQ
  exact ⟨tr, m, newMaster_reachable, hr, hQ.1, hQ.2⟩

/-! ## The master's own inputs -/

/-- The step writes back a copy taken of another `pos_1`. -/
def Stale (x : Step ClientState ClientEvent ClientOutput) : Prop :=
  ∃ c gs cur, WritesBack x.pre x.event c gs ∧ x.pre.shared.currentGameState = some cur ∧
    ¬ (gs.pos1.x = cur.pos1.x + c.userInput.x ∧ gs.pos1.y = cur.pos1.y + c.userInput.y)

/-- The input of the call whose write-back a step performs. -/
def writtenInput (x : Step ClientState ClientEvent ClientOutput) : Option UserInput :=
  match x.event with
  | .tickSection _ θ =>
    match x.pre.tick θ with
    | .writeBack c _ => some c.userInput
    | _ => none
  | _ => none

/-- The inputs of the calls that have written back. -/
def writtenInputs (tr : List (Step ClientState ClientEvent ClientOutput)) : List UserInput :=
  tr.filterMap writtenInput

/-- The sum of one coordinate of the inputs that were written back. -/
def written (axis : UserInput → Int32) (tr : List (Step ClientState ClientEvent ClientOutput)) :
    Int :=
  ((writtenInputs tr).map fun u => (axis u).toInt).sum

/-- `pos_1` is where it started plus the inputs that were written back. -/
def KeepsInputs (start : PlayerPos) (tr : List (Step ClientState ClientEvent ClientOutput))
    (m : ClientState) : Prop :=
  ∃ g, m.shared.currentGameState = some g ∧
    g.pos1.x.toInt = start.x.toInt + written UserInput.x tr ∧
    g.pos1.y.toInt = start.y.toInt + written UserInput.y tr

/-- The sums stay in `int32_t`. -/
def InRange (start : PlayerPos) (tr : List (Step ClientState ClientEvent ClientOutput)) : Prop :=
  (-2 ^ 31 ≤ start.x.toInt + written UserInput.x tr ∧
      start.x.toInt + written UserInput.x tr < 2 ^ 31) ∧
    -2 ^ 31 ≤ start.y.toInt + written UserInput.y tr ∧
      start.y.toInt + written UserInput.y tr < 2 ^ 31

theorem writtenInput_of_writesBack {e : ClientEvent} {out : List ClientOutput} {c : TickCall}
    {gs : GameState} (h : WritesBack m e c gs) :
    writtenInput ⟨m, e, out, m'⟩ = some c.userInput := by
  obtain ⟨env, θ, rfl, hpc⟩ := h
  simp only [writtenInput, hpc]

theorem writtenInput_none {e : ClientEvent} {out : List ClientOutput}
    (h : ∀ c gs, ¬ WritesBack m e c gs) : writtenInput ⟨m, e, out, m'⟩ = none := by
  unfold writtenInput
  split
  · rename_i env θ he
    split
    · rename_i c gs hpc
      exact absurd ⟨env, θ, he, hpc⟩ (h c gs)
    · rfl
  · rfl

theorem written_cons (axis : UserInput → Int32) (x : Step ClientState ClientEvent ClientOutput)
    (tr : List (Step ClientState ClientEvent ClientOutput)) :
    written axis (x :: tr) =
      ((writtenInput x).map fun u => (axis u).toInt).getD 0 + written axis tr := by
  unfold written writtenInputs
  rw [List.filterMap_cons]
  cases writtenInput x <;> simp

theorem written_snoc (axis : UserInput → Int32) (x : Step ClientState ClientEvent ClientOutput)
    (tr : List (Step ClientState ClientEvent ClientOutput)) :
    written axis (tr ++ [x]) =
      written axis tr + ((writtenInput x).map fun u => (axis u).toInt).getD 0 := by
  unfold written writtenInputs
  rw [List.filterMap_append, List.map_append, List.sum_append]
  cases hx : writtenInput x <;> simp [hx]

theorem connectSlave_pos1 (gs : GameState) (k : Fin othersCount) :
    (connectSlave gs k).pos1 = gs.pos1 := by
  match k with
  | 0 => rfl
  | 1 => rfl
  | 2 => rfl

/-- **`pos_1` only changes in a write-back.** -/
theorem pos1_step {e : ClientEvent} {out : List ClientOutput} {cur : GameState}
    (hs : (client mp).step m e = some (m', out)) (hcur : m.shared.currentGameState = some cur) :
    ∃ cur', m'.shared.currentGameState = some cur' ∧
      (writtenInput ⟨m, e, out, m'⟩ = none ∧ cur'.pos1 = cur.pos1 ∨
        ∃ c, WritesBack m e c cur') := by
  rcases client_cases hs with ⟨hsame, -, hno⟩ | ⟨hnone, -⟩ | ⟨gs, k, hgs, hconn, hset, -⟩ |
    ⟨θ, c, gs, -, hshared, -, hno⟩ | ⟨θ, c, gs, inputs, -, -, hshared, -, hno⟩ |
    ⟨c, gs, old, hwb, -, hset, -⟩
  · exact ⟨cur, hsame.trans hcur, .inl ⟨writtenInput_none hno, rfl⟩⟩
  · exact absurd (hnone.symm.trans hcur) (by simp)
  · obtain rfl : gs = cur := Option.some.inj (hgs.symm.trans hcur)
    refine ⟨_, hset, .inl ⟨writtenInput_none ?_, connectSlave_pos1 gs k⟩⟩
    obtain ⟨env, data, payload, ui, rfl, -⟩ := hconn
    rintro c gs ⟨env', θ, he, -⟩
    cases he
  · exact ⟨cur, hshared ▸ hcur, .inl ⟨writtenInput_none hno, rfl⟩⟩
  · exact ⟨cur, hshared ▸ hcur, .inl ⟨writtenInput_none hno, rfl⟩⟩
  · exact ⟨gs, hset, .inr ⟨c, hwb⟩⟩

/-- A step that is not stale moves `pos_1` by the input it writes. -/
theorem pos1_step_fresh {e : ClientEvent} {out : List ClientOutput} {cur : GameState}
    (hs : (client mp).step m e = some (m', out)) (hcur : m.shared.currentGameState = some cur)
    (hfresh : ¬ Stale ⟨m, e, out, m'⟩) :
    ∃ cur', m'.shared.currentGameState = some cur' ∧
      cur'.pos1.x = cur.pos1.x +
        Int32.ofInt (((writtenInput ⟨m, e, out, m'⟩).map fun u => u.x.toInt).getD 0) ∧
      cur'.pos1.y = cur.pos1.y +
        Int32.ofInt (((writtenInput ⟨m, e, out, m'⟩).map fun u => u.y.toInt).getD 0) := by
  obtain ⟨cur', hcur', ⟨hnone, hpos⟩ | ⟨c, hwb⟩⟩ := pos1_step hs hcur
  · exact ⟨cur', hcur', by simp [hnone, hpos], by simp [hnone, hpos]⟩
  · have hsame : cur'.pos1.x = cur.pos1.x + c.userInput.x ∧
        cur'.pos1.y = cur.pos1.y + c.userInput.y := by
      by_contra hne
      exact hfresh ⟨c, cur', cur, hwb, hcur, hne⟩
    rw [writtenInput_of_writesBack hwb]
    simpa using ⟨cur', hcur', hsame⟩

/-- **A run without stale write-backs** adds up the inputs, as `int32_t` adds. -/
theorem pos1_run {tr : List (Step ClientState ClientEvent ClientOutput)}
    (hr : Run (client mp) m tr m') (hfresh : ∀ x ∈ tr, ¬ Stale x) {g₀ : GameState}
    (h₀ : m.shared.currentGameState = some g₀) :
    ∃ g, m'.shared.currentGameState = some g ∧
      g.pos1.x = g₀.pos1.x + Int32.ofInt (written UserInput.x tr) ∧
      g.pos1.y = g₀.pos1.y + Int32.ofInt (written UserInput.y tr) := by
  induction hr generalizing g₀ with
  | nil => exact ⟨g₀, h₀, by simp [written, writtenInputs], by simp [written, writtenInputs]⟩
  | cons hs _ ih =>
    obtain ⟨g₁, h₁, hx₁, hy₁⟩ := pos1_step_fresh hs h₀ (hfresh _ List.mem_cons_self)
    obtain ⟨g, hg, hx, hy⟩ := ih (fun x hx => hfresh x (List.mem_cons_of_mem _ hx)) h₁
    refine ⟨g, hg, ?_, ?_⟩
    · rw [hx, hx₁, written_cons, Int32.ofInt_add, Int32.add_assoc]
    · rw [hy, hy₁, written_cons, Int32.ofInt_add, Int32.add_assoc]

/-- The sum as a number. -/
theorem toInt_add_ofInt {a b : Int32} {n : Int} (h : b = a + Int32.ofInt n)
    (hlo : -2 ^ 31 ≤ a.toInt + n) (hhi : a.toInt + n < 2 ^ 31) : b.toInt = a.toInt + n := by
  rw [h, ← Int32.toInt_ofInt_of_le hlo hhi, Int32.ofInt_add, Int32.ofInt_toInt]

/-- Two sums that differ by an input. -/
theorem eq_add_of_toInt {a b c : Int32} (h : b.toInt = a.toInt + c.toInt) : b = a + c := by
  rw [← Int32.ofInt_toInt b, h, Int32.ofInt_add, Int32.ofInt_toInt, Int32.ofInt_toInt]

/-- **No input of the master is lost exactly where no write-back is stale.** In a run whose sums
stay in `int32_t`: after each of its steps `pos_1` is where it started plus the inputs that were
written back, if and only if every write-back finds `pos_1` as its call copied it. -/
theorem ownInputs_kept_iff {tr : List (Step ClientState ClientEvent ClientOutput)}
    (hr : Run (client mp) m tr m') {g₀ : GameState} (h₀ : m.shared.currentGameState = some g₀)
    (hrange : ∀ t₁ t₂, tr = t₁ ++ t₂ → InRange g₀.pos1 t₁) :
    (∀ t₁ t₂ m₁, tr = t₁ ++ t₂ → Run (client mp) m t₁ m₁ → KeepsInputs g₀.pos1 t₁ m₁) ↔
      ∀ x ∈ tr, ¬ Stale x := by
  constructor
  · intro hkeeps x hx hstale
    obtain ⟨hs, t₁, t₂, rfl, hr₁, -⟩ := hr.mem hx
    obtain ⟨pre, e, out, post⟩ := x
    obtain ⟨c, gs, cur, hwb, hcur, hne⟩ := hstale
    -- the law before the write-back and after it
    obtain ⟨g₁, hg₁, hx₁, hy₁⟩ := hkeeps t₁ _ _ rfl hr₁
    obtain ⟨g₂, hg₂, hx₂, hy₂⟩ := hkeeps (t₁ ++ [⟨pre, e, out, post⟩]) t₂ _ (by simp)
      (hr₁.append (Run.single hs))
    obtain rfl : g₁ = cur := Option.some.inj (hg₁.symm.trans hcur)
    obtain ⟨cur', hcur', hcase⟩ := pos1_step hs hcur
    obtain rfl : g₂ = cur' := Option.some.inj (hg₂.symm.trans hcur')
    rw [written_snoc, writtenInput_of_writesBack hwb] at hx₂ hy₂
    rcases hcase with ⟨hnone, -⟩ | ⟨c', hwb'⟩
    · exact absurd (hnone.symm.trans (writtenInput_of_writesBack hwb)) (by simp)
    · obtain ⟨env, θ, rfl, hpc⟩ := hwb
      obtain ⟨env', θ', he, hpc'⟩ := hwb'
      cases he
      cases hpc.symm.trans hpc'
      refine hne ⟨eq_add_of_toInt ?_, eq_add_of_toInt ?_⟩
      · rw [hx₂, hx₁, Int.add_assoc]
        rfl
      · rw [hy₂, hy₁, Int.add_assoc]
        rfl
  · rintro hfresh t₁ t₂ m₁ rfl hr₁
    obtain ⟨g, hg, hx, hy⟩ :=
      pos1_run hr₁ (fun x hx => hfresh x (List.mem_append_left _ hx)) h₀
    obtain ⟨⟨hxlo, hxhi⟩, hylo, hyhi⟩ := hrange t₁ t₂ rfl
    exact ⟨g, hg, toInt_add_ofInt hx hxlo hxhi, toInt_add_ofInt hy hylo hyhi⟩

/-- Two calls at once: the tick loop writes back what it copied before the main thread wrote. -/
def twoCalls : List ClientEvent :=
  [.call .main ⟨0, ⟨1, 0⟩⟩, continueTick .main, .call .tickLoop ⟨5, ⟨0, 0⟩⟩,
    continueTick .tickLoop, continueTick .main, continueTick .main, continueTick .main,
    continueTick .tickLoop, continueTick .tickLoop, continueTick .tickLoop]

instance (start : PlayerPos) (tr : List (Step ClientState ClientEvent ClientOutput)) :
    Decidable (InRange start tr) := inferInstanceAs (Decidable ((_ ∧ _) ∧ _ ∧ _))

theorem ownInputs_kept_iff_twoCalls : ∃ tr m, Run (client reference) newMaster tr m ∧
    tr.map Step.event = twoCalls ∧ ∃ x ∈ tr, Stale x := by
  obtain ⟨tr, m, hr, hev, hQ⟩ := run_of_exec (client reference) newMaster twoCalls
    (fun tr m => tr.inits.all (fun t => decide (InRange .zero t)) &&
      decide (written UserInput.x tr = 1) &&
      m.shared.currentGameState.all fun g : GameState => decide (g.pos1.x = 0)) (by decide +kernel)
  rw [Bool.and_eq_true, Bool.and_eq_true, List.all_eq_true, decide_eq_true_eq,
    Option.all_eq_true] at hQ
  obtain ⟨⟨hrange, hone⟩, hzero⟩ := hQ
  refine ⟨tr, m, hr, hev, ?_⟩
  by_contra hfresh
  have hkept := (ownInputs_kept_iff hr rfl fun t₁ t₂ ht =>
    of_decide_eq_true (hrange t₁ ((List.mem_inits _ _).mpr ⟨t₂, ht.symm⟩))).mpr
    fun x hx hstale => hfresh ⟨x, hx, hstale⟩
  obtain ⟨g, hg, hx, -⟩ := hkept tr [] m (List.append_nil tr).symm hr
  rw [hone, of_decide_eq_true (hzero g hg)] at hx
  exact absurd hx (by decide)

/-- All calls have finished, and the input of one is missing. -/
theorem stale_input_lost : ∃ tr m, Reachable (client reference) .init newMaster ∧
    Run (client reference) newMaster tr m ∧ (∀ θ, m.tick θ = .idle) ∧
    InRange PlayerPos.zero tr ∧ ¬ KeepsInputs PlayerPos.zero tr m := by
  obtain ⟨tr, m, hr, -, hQ⟩ := run_of_exec (client reference) newMaster twoCalls
    (fun tr m => decide (m.tick .main = .idle) && decide (m.tick .tickLoop = .idle) &&
      decide (InRange .zero tr) && decide (written UserInput.x tr = 1) &&
      m.shared.currentGameState.all fun g : GameState => decide (g.pos1.x = 0)) (by decide +kernel)
  simp only [Bool.and_eq_true, decide_eq_true_eq, Option.all_eq_true] at hQ
  obtain ⟨⟨⟨⟨hmain, hloop⟩, hrange⟩, hone⟩, hzero⟩ := hQ
  refine ⟨tr, m, newMaster_reachable, hr, fun θ => ?_, hrange, ?_⟩
  · cases θ with
    | main => exact hmain
    | tickLoop => exact hloop
  · rintro ⟨g, hg, hx, -⟩
    rw [hone, hzero g hg] at hx
    exact absurd hx (by decide)

end MasterRelay.Client
