import MasterRelay.Client.Positions
import MasterRelay.Game.Capacity

/-!
# Positions as sums

A position that adds up is the sum, as `int32_t` adds, of some inputs of one source. What moves the
players of a world, a tick, adds one input of each source to it (`addsUp_tick`); what does not,
leaves it adding up (`addsUp_congr`).
-/

namespace MasterRelay.Game

open MasterRelay.Client
open MasterRelay.Protocol
open MasterRelay.Server

/-- The slot of a player of the world. -/
def playerSlot : Fin (othersCount + 1) → Slot := Fin.cases masterSlot slaveSlot

/-- The sum of some inputs along one axis. -/
def total (axis : UserInput → Int32) (steps : List UserInput) : Int32 :=
  (steps.map axis).foldl (· + ·) 0

theorem total_snoc (axis : UserInput → Int32) (steps : List UserInput) (v : UserInput) :
    total axis (steps ++ [v]) = total axis steps + axis v := by
  simp [total]

/-- **The position adds up**: each coordinate is the sum of the same at most `n` inputs of the source.
One that has been typed may be in the sum more than once (a master adds the last input it holds at
every tick): `n` bounds how often something is added, not how often something has been typed. -/
def Travelled (source : UserInput → Prop) (n : Nat) (pos : PlayerPos) : Prop :=
  ∃ steps : List UserInput, steps.length ≤ n ∧ (∀ v ∈ steps, source v) ∧
    pos.x = total UserInput.x steps ∧ pos.y = total UserInput.y steps

variable {source source' : Fin (othersCount + 1) → UserInput → Prop} {m n : Nat}
  {gs gs' : GameState}

/-- Everybody's position adds up, each from its own source. -/
def AddsUp (source : Fin (othersCount + 1) → UserInput → Prop) (n : Nat) (gs : GameState) : Prop :=
  ∀ i, Travelled (source i) n (gs.pos i)

theorem addsUp_zero : AddsUp source n .zero := by
  intro i
  rw [GameState.zero_pos]
  exact ⟨[], Nat.zero_le _, fun v hv => absurd hv List.not_mem_nil, rfl, rfl⟩

theorem addsUp_mono (h : AddsUp source m gs) (hsource : ∀ i v, source i v → source' i v)
    (hmn : m ≤ n) : AddsUp source' n gs := by
  intro i
  obtain ⟨steps, hlen, hsteps, hpos⟩ := h i
  exact ⟨steps, hlen.trans hmn, fun v hv => hsource i v (hsteps v hv), hpos⟩

theorem addsUp_congr (h : AddsUp source n gs)
    (hsame : ∀ i, (gs'.pos i).x = (gs.pos i).x ∧ (gs'.pos i).y = (gs.pos i).y) :
    AddsUp source n gs' := by
  intro i
  obtain ⟨steps, hlen, hsteps, hx, hy⟩ := h i
  exact ⟨steps, hlen, hsteps, (hsame i).1.trans hx, (hsame i).2.trans hy⟩

/-- What a tick adds for a player is zero or of its source. -/
def Supplied (source : Fin (othersCount + 1) → UserInput → Prop)
    (inputs : Fin othersCount → PlayerInput) (c : TickCall) : Prop :=
  ∀ i, addends inputs c i = ⟨0, 0⟩ ∨ source i (addends inputs c i)

/-- **A tick adds one input for each player.** -/
theorem addsUp_tick {c : TickCall} {inputs : Fin othersCount → PlayerInput}
    (h : AddsUp source n gs) (hsup : Supplied source inputs c) :
    AddsUp source (n + 1) (othersInputs inputs (ownInput c gs)) := by
  intro i
  obtain ⟨steps, hlen, hsteps, hx, hy⟩ := h i
  obtain ⟨htickx, hticky⟩ := tick_pos c inputs gs i
  rcases hsup i with hzero | hnew
  · refine ⟨steps, Nat.le_succ_of_le hlen, hsteps, ?_, ?_⟩
    · rw [htickx, hzero, hx, Int32.add_zero]
    · rw [hticky, hzero, hy, Int32.add_zero]
  · refine ⟨steps ++ [addends inputs c i], ?_, fun v hv => ?_, ?_, ?_⟩
    · rw [List.length_append]
      exact Nat.succ_le_succ hlen
    · rcases List.mem_append.mp hv with hold | hlast
      · exact hsteps v hold
      · rw [List.mem_singleton.mp hlast]
        exact hnew
    · rw [htickx, hx, total_snoc]
    · rw [hticky, hy, total_snoc]

end MasterRelay.Game
