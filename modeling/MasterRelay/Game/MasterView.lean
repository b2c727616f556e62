import MasterRelay.Client.Races
import MasterRelay.Game.Capacity
import MasterRelay.Game.Network

/-!
# What a master has been told

The critical channel of a master and its world, side by side. A master is told first that it is the
master, which creates its world, and then about one slave after the other. `MasterView` relates what
is under way and what the world shows to the slaves it has been told about (`seen`): each of them is
flagged or under way, and no other is.

* `masterView_new`, `masterView_tell`: what the server sends.
* `masterView_deliver`: a delivery takes the head of the queue into the world.
* `masterView_same`: whatever leaves the flags alone.
-/

namespace MasterRelay.Game

open MasterRelay.Client
open MasterRelay.Lib.MsgPack
open MasterRelay.Lib.Runs
open MasterRelay.Protocol
open MasterRelay.Server

/-- The flag of slave `k`; nobody is flagged before the world is there. -/
def flagged (s : Shared) (k : Fin othersCount) : Bool :=
  s.currentGameState.any fun gs => slaveFlag gs k

/-- A packet of one of the channels that are not critical. -/
def Loose (d : Bytes) : Prop :=
  ∃ ty payload, (ty = .gameStateUpd ∨ ty = .playerInput) ∧ d = frame ty payload

variable {mp : Msgpack} {env : ClientEnv} {s s' : Shared}

/-! ## What packets and ticks do to the flags -/

/-- A loose packet leaves the world alone. -/
theorem handleReceive_loose {d : Bytes} (hd : Loose d) (h : handleReceive mp env s d = some s') :
    s'.currentGameState = s.currentGameState := by
  obtain ⟨ty, payload, hty, rfl⟩ := hd
  have hsuit : isSuitableMsgType ty = true := by
    rcases hty with rfl | rfl <;> rfl
  obtain ⟨p', hparse⟩ := parse_frame_type hsuit payload
  rcases handleReceive_cases h with rfl | ⟨p, ui, hp, -, -⟩ | ⟨p, ui, hp, -, -⟩ |
    ⟨p, pi, k, inputs, -, -, -, -, rfl⟩
  · rfl
  · cases hparse.symm.trans hp
    rcases hty with h | h <;> cases h
  · cases hparse.symm.trans hp
    rcases hty with h | h <;> cases h
  · rfl

/-- The answer to the master creates the world. -/
theorem handleReceive_answer (hmp : mp.Lawful) (hnone : s.currentGameState = none)
    (h : handleReceive mp env s (answer mp masterSlot true) = some s') :
    s'.currentGameState = some .zero := by
  have hparse : ifbPtclTryParseMessageByType (answer mp masterSlot true) = _ :=
    parse_frame rfl (userInfoBytes_ne_nil hmp _)
  have hsaid := says_userInfoBytes hmp ⟨UInt32.ofNat masterSlot, true⟩ env.net.reader
  simp only [handleReceive, netReceive, hparse, hsaid, if_true] at h
  by_cases hmalloc : env.mallocUserInfo = true
  · simp only [hmalloc, if_true] at h
    obtain ⟨-, hstate, -⟩ := attemptInit_cases h
    rw [hstate, hnone]
    rfl
  · simp [hmalloc] at h

/-- The announcement of a slave. -/
theorem handleReceive_announcement (hmp : mp.Lawful) (i : Slot) :
    handleReceive mp env s (announcement mp i) =
      some (handleOnSlaveConnected ⟨UInt32.ofNat i, false⟩ s) := by
  unfold handleReceive announcement
  rw [receive_slaveConnected (userInfoBytes_ne_nil hmp _) (says_userInfoBytes hmp _)]

/-- An announcement sets the flag of its slave, in a world that is there. -/
theorem flagged_announced (hsome : s.currentGameState ≠ none) (i : Slot) (k : Fin othersCount) :
    flagged (handleOnSlaveConnected ⟨UInt32.ofNat i, false⟩ s) k = true ↔
      flagged s k = true ∨ i = slaveSlot k := by
  obtain ⟨gs, hgs⟩ := Option.ne_none_iff_exists'.mp hsome
  unfold handleOnSlaveConnected
  cases hindex : slaveIndex (UInt32.ofNat i) with
  | none =>
    have hne : i ≠ slaveSlot k := by
      rintro rfl
      exact absurd (hindex.symm.trans (slaveIndex_slot.mpr rfl)) (by simp)
    simp [hgs, hne]
  | some j =>
    obtain rfl := slaveIndex_slot.mp hindex
    simp only [hgs, flagged, Option.any_some, slaveFlag, connectSlave_pos]
    by_cases hjk : j = k
    · subst hjk
      simp
    · have hslot : slaveSlot j ≠ slaveSlot k := by
        intro he
        have h := slaveIndex_slot.mpr he
        rw [hindex] at h
        exact hjk (Option.some.inj h)
      simp [hslot, Ne.symm hjk]

/-- A tick leaves the flags of the slaves alone, and does not create the world. -/
theorem tryExecuteTick_flags {c : TickCall} {out : List ClientOutput}
    (h : tryExecuteTick mp env s c = some (s', out)) :
    (s'.currentGameState = none ↔ s.currentGameState = none) ∧
      ∀ k, flagged s' k = flagged s k := by
  rcases tryExecuteTick_cases h with ⟨rfl, -⟩ | ⟨ui, gs, inputs, -, -, hgs, -, rfl, -⟩ |
    ⟨ui, sent, -, -, -, rfl, -⟩
  · exact ⟨Iff.rfl, fun k => rfl⟩
  · refine ⟨by simp [hgs], fun k => ?_⟩
    obtain ⟨hown, -⟩ := tick_slavePos c inputs gs k
    obtain ⟨-, hmoved⟩ := tick_slavePos c inputs (ownInput c gs) k
    simp only [flagged, hgs, Option.any_some, slaveFlag, hmoved, hown, moved]
  · exact ⟨Iff.rfl, fun k => rfl⟩

/-! ## The view -/

/-- **What is under way to a master and what its world shows**, for the slaves it has been told
about. -/
def MasterView (mp : Msgpack) (seen : Fin othersCount → Prop) (queue : List Bytes) (s : Shared) :
    Prop :=
  ∃ (first : List Bytes) (pending : List Slot), queue = first ++ pending.map (announcement mp) ∧
    (s.currentGameState = none ∧ first = [answer mp masterSlot true] ∨
      s.currentGameState ≠ none ∧ first = []) ∧
    ∀ k, seen k ↔ flagged s k = true ∨ slaveSlot k ∈ pending

variable {seen seen' : Fin othersCount → Prop} {queue : List Bytes}

theorem masterView_congr (h : MasterView mp seen queue s) (hseen : ∀ k, seen' k ↔ seen k) :
    MasterView mp seen' queue s := by
  obtain ⟨first, pending, hqueue, hstate, hflags⟩ := h
  exact ⟨first, pending, hqueue, hstate, fun k => (hseen k).trans (hflags k)⟩

/-- Nobody has been announced to a new master. -/
theorem masterView_new (hnone : s.currentGameState = none) (hseen : ∀ k, ¬ seen k) :
    MasterView mp seen [answer mp masterSlot true] s := by
  refine ⟨_, [], rfl, .inl ⟨hnone, rfl⟩, fun k => iff_of_false (hseen k) ?_⟩
  simp [flagged, hnone]

/-- One more slave is announced. -/
theorem masterView_tell (h : MasterView mp seen queue s) {i : Slot}
    (hseen : ∀ k, seen' k ↔ i = slaveSlot k ∨ seen k) :
    MasterView mp seen' (queue ++ [announcement mp i]) s := by
  obtain ⟨first, pending, rfl, hstate, hflags⟩ := h
  refine ⟨first, pending ++ [i], by simp, hstate, fun k => ?_⟩
  rw [hseen, hflags, List.mem_append, List.mem_singleton, or_left_comm, or_comm (a := i = _),
    eq_comm (a := i)]

/-- The flags stay. -/
theorem masterView_same (h : MasterView mp seen queue s)
    (hstate : s'.currentGameState = none ↔ s.currentGameState = none)
    (hflag : ∀ k, flagged s' k = flagged s k) : MasterView mp seen queue s' := by
  obtain ⟨first, pending, hqueue, hcase, hflags⟩ := h
  refine ⟨first, pending, hqueue, ?_, fun k => by rw [hflags, hflag]⟩
  rwa [Ne, hstate]

/-- **The head of the queue is delivered.** -/
theorem masterView_deliver (hmp : mp.Lawful) {d : Bytes} (h : MasterView mp seen (d :: queue) s)
    (hr : handleReceive mp env s d = some s') : MasterView mp seen queue s' := by
  obtain ⟨first, pending, hqueue, ⟨hnone, rfl⟩ | ⟨hsome, rfl⟩, hflags⟩ := h
  · -- it creates the world
    obtain ⟨rfl, rfl⟩ := List.cons.inj hqueue
    have hzero := handleReceive_answer hmp hnone hr
    refine ⟨[], pending, rfl, .inr ⟨by simp [hzero], rfl⟩, fun k => ?_⟩
    rw [hflags k]
    simp [flagged, hnone, hzero, slaveFlag, GameState.zero_pos, PlayerPos.zero]
  · -- it is an announcement
    cases pending with
    | nil => cases hqueue
    | cons i pending =>
      obtain ⟨rfl, rfl⟩ := List.cons.inj hqueue
      rw [handleReceive_announcement hmp] at hr
      cases hr
      refine ⟨[], pending, rfl, .inr ⟨?_, rfl⟩, fun k => ?_⟩
      · obtain ⟨gs, hgs⟩ := Option.ne_none_iff_exists'.mp hsome
        unfold handleOnSlaveConnected
        split
        · simp
        · exact hsome
      · rw [flagged_announced hsome, hflags k, List.mem_cons, or_assoc, eq_comm (a := i)]

/-- An announcement that is delivered finds the world. -/
theorem masterView_ready {d : Bytes} (h : MasterView mp seen (d :: queue) s)
    (hd : d.head? = some MessageType.slaveConnected.toByte) : s.currentGameState ≠ none := by
  obtain ⟨first, pending, hqueue, ⟨-, rfl⟩ | ⟨hsome, -⟩, -⟩ := h
  · obtain ⟨rfl, -⟩ := List.cons.inj hqueue
    simp [answer, frame, MessageType.toByte] at hd
  · exact hsome

/-- With nothing under way, the world shows who has been announced. -/
theorem masterView_settled (h : MasterView mp seen [] s) (k : Fin othersCount) :
    flagged s k = true ↔ seen k := by
  obtain ⟨first, pending, hqueue, -, hflags⟩ := h
  have hpending : pending = [] := by
    have hmap := (List.append_eq_nil_iff.mp hqueue.symm).2
    exact List.map_eq_nil_iff.mp hmap
  rw [hflags, hpending]
  simp

end MasterRelay.Game
