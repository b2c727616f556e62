import MasterRelay.Server.Refine

/-!
# The registry and its history

The table is what the events so far make it: a peer is active when it has asked for user info since
it last disconnected, at a moment when a slot was free (`active_iff_history`). `step_slots` says
what a single step may touch: one slot at most, and none unless a request registers its sender or a
registered peer disconnects.
-/

namespace MasterRelay.Server

open MasterRelay.Lib.MsgPack
open MasterRelay.Lib.Runs
open MasterRelay.Protocol

variable {P : Type} [DecidableEq P] {mp : Msgpack} {t t' : Table P} {out : List (Output P)}

/-- The step is a request of `p`, made while fewer than `ACTIVE_PLAYERS_SIZE` peers are active. -/
def RequestsInTime (p : P) (x : Step (Table P) (Event P) (Output P)) : Prop :=
  ∃ env data, x.event = .receive env p data ∧ IsRequest data ∧
    getActivePlayersCount x.pre < activePlayersSize

/-- The step is a disconnect of `p`. -/
def Disconnects (p : P) (x : Step (Table P) (Event P) (Output P)) : Prop :=
  x.event = .disconnect p

/-- **What a step may touch**: a packet that is no request changes no slot, nor does a request that
is rejected, nor a connect; and no step changes two. -/
theorem step_slots {e : Event P} (hs : (server mp).step t e = some (t', out)) :
    (∀ env p data, e = .receive env p data → (IsRequest data →
      isPlayerActive t p = true ∨ ¬ getActivePlayersCount t < activePlayersSize) → t' = t) ∧
    (∀ p, e = .connect p → t' = t) ∧ ∃ i, ∀ j, j ≠ i → t' j = t j := by
  cases e with
  | connect p =>
    cases hs
    exact ⟨fun _ _ _ _ _ => rfl, fun _ _ => rfl, masterSlot, fun _ _ => rfl⟩
  | disconnect p =>
    refine ⟨fun _ _ _ he => (by cases he), fun _ he => (by cases he), ?_⟩
    obtain ⟨-, ⟨i, -, rfl⟩ | ⟨-, rfl⟩⟩ := disconnect_cases hs
    · exact ⟨i, fun j hj => Function.update_of_ne hj _ _⟩
    · exact ⟨masterSlot, fun _ _ => rfl⟩
  | receive env p data =>
    refine ⟨?_, fun _ he => (by cases he), ?_⟩
    · rintro env' p' data' he hno
      cases he
      rcases onReceive_cases hs with ⟨hreq, hreg⟩ | ⟨-, rfl, -⟩
      · rcases handlePlayerRegister_cases hreg with ⟨-, rfl, -⟩ | ⟨i, m, hnew, hfree, -, -, -⟩
        · rfl
        · rcases hno hreq with hact | hfull
          · exact absurd hact (by simp [hnew])
          · exact absurd (count_lt_size.mpr (by simp [hfree])) hfull
      · rfl
    · rcases onReceive_cases hs with ⟨-, hreg⟩ | ⟨-, rfl, -⟩
      · rcases handlePlayerRegister_cases hreg with ⟨-, rfl, -⟩ | ⟨i, m, -, -, -, rfl, -⟩
        · exact ⟨masterSlot, fun _ _ => rfl⟩
        · exact ⟨i, fun j hj => Function.update_of_ne hj _ _⟩
      · exact ⟨masterSlot, fun _ _ => rfl⟩

/-- Whether a peer is active after a step. -/
theorem active_step {r : ServerRoster P} (h : Sim t r) {e : Event P}
    (hs : (server mp).step t e = some (t', out)) (p : P) :
    isPlayerActive t' p = true ↔ RequestsInTime p ⟨t, e, out, t'⟩ ∨
      isPlayerActive t p = true ∧ ¬ Disconnects p ⟨t, e, out, t'⟩ := by
  have h' := sim_step h hs
  rw [isPlayerActive_iff h'.proper, isPlayerActive_iff h.proper, ← h'.same, ← h.same]
  cases e with
  | connect q =>
    have hreq : ¬ RequestsInTime p ⟨t, .connect q, out, t'⟩ := by
      rintro ⟨env, data, he, -⟩
      cases he
    have hdis : ¬ Disconnects p ⟨t, .connect q, out, t'⟩ := fun he => by cases he
    simp only [rosterStep, hreq, hdis, false_or, not_false_eq_true, and_true]
  | receive env q data =>
    have hdis : ¬ Disconnects p ⟨t, .receive env q data, out, t'⟩ := fun he => by cases he
    have hreq : RequestsInTime p ⟨t, .receive env q data, out, t'⟩ ↔
        p = q ∧ IsRequest data ∧ r.seat.free ≠ none := by
      rw [h.same, ← firstSlot_freeTest h.proper, ← count_lt_size]
      constructor
      · rintro ⟨env', data', he, hdata, hlt⟩
        cases he
        exact ⟨rfl, hdata, hlt⟩
      · rintro ⟨rfl, hdata, hlt⟩
        exact ⟨env, data, rfl, hdata, hlt⟩
    rw [hreq, rosterStep]
    by_cases hdata : IsRequest data
    · rw [if_pos hdata]
      show (∃ i, (r.seat.join q).peerAt i = some p) ↔ _
      rw [seated_join]
      simp only [hdata, hdis, true_and, not_false_eq_true, and_true]
      exact or_comm
    · rw [if_neg hdata]
      simp only [hdata, hdis, false_and, and_false, false_or, not_false_eq_true, and_true]
  | disconnect q =>
    have hreq : ¬ RequestsInTime p ⟨t, .disconnect q, out, t'⟩ := by
      rintro ⟨env, data, he, -⟩
      cases he
    have hdis : Disconnects p ⟨t, .disconnect q, out, t'⟩ ↔ q = p :=
      ⟨fun he => by cases he; rfl, fun he => he ▸ rfl⟩
    show (∃ i, (r.seat.leave q).peerAt i = some p) ↔ _
    rw [seated_leave, hdis]
    simp only [hreq, false_or]
    exact and_congr_right fun _ => ⟨fun hne he => hne he.symm, fun hne he => hne he.symm⟩

/-- **The registry is its history.** In every run from the initial table a peer is active exactly
when it has requested user info since its last disconnect, or since the start, while fewer than
`ACTIVE_PLAYERS_SIZE` peers were active; and each step keeps to the slots `step_slots` allows. -/
theorem active_iff_history {tr : List (Step (Table P) (Event P) (Output P))}
    (hr : Run (server mp) initTable tr t) :
    (∀ p, isPlayerActive t p = true ↔ Since (RequestsInTime p) (Disconnects p) tr) ∧
      ∀ x ∈ tr, (∀ env p data, x.event = .receive env p data → (IsRequest data →
          isPlayerActive x.pre p = true ∨
            ¬ getActivePlayersCount x.pre < activePlayersSize) → x.post = x.pre) ∧
        (∀ p, x.event = .connect p → x.post = x.pre) ∧ ∃ i, ∀ j, j ≠ i → x.post j = x.pre j := by
  refine ⟨fun p => ?_, fun x hx => step_slots (hr.mem hx).1⟩
  -- the invariant: the table stands for a roster, and for the peer's history
  have hinv := hr.trace
    (I := fun tr t => (∃ r : ServerRoster P, Sim t r) ∧
      (isPlayerActive t p = true ↔ Since (RequestsInTime p) (Disconnects p) tr)) ?_ ?_
  · exact hinv.2
  · rintro tr t e t' out ⟨⟨r, hsim⟩, hact⟩ hs
    refine ⟨⟨_, sim_step hsim hs⟩, ?_⟩
    rw [since_snoc, active_step hsim hs, hact]
  · refine ⟨⟨_, sim_init⟩, iff_of_false ?_ not_since_nil⟩
    rw [isPlayerActive_iff sim_init.proper]
    rintro ⟨i, hi⟩
    simp [seats, Seats.peerAt, seatOf, isPlayerExistsAndConnected, initTable] at hi

/-- Peer 2 is active after its request, though peer 1 has come and gone. -/
theorem active_iff_history_leaveFirst : ∃ (t : Table Nat) (tr : _),
    Run (server reference) initTable tr t ∧ isPlayerActive t 2 = true ∧
      Since (RequestsInTime 2) (Disconnects 2) tr ∧
      ¬ Since (RequestsInTime 1) (Disconnects 1) tr := by
  obtain ⟨tr, t, hr, -, hQ⟩ := run_of_exec (server reference) initTable
    [.receive .ideal 1 [1], .receive .ideal 2 [1], .disconnect (1 : Nat)]
    (fun _ t => isPlayerActive t 2 && !isPlayerActive t 1) (by decide +kernel)
  rw [Bool.and_eq_true, Bool.not_eq_true'] at hQ
  have hhist := (active_iff_history hr).1
  refine ⟨t, tr, hr, hQ.1, (hhist 2).mp hQ.1, fun h => ?_⟩
  exact absurd ((hhist 1).mpr h) (by simp [hQ.2])

end MasterRelay.Server
