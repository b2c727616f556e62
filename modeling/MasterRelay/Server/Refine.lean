import MasterRelay.Server.Loop

/-!
# The server keeps a roster

`Sim t r`: the records of the table are proper and their seats are the roster's. Each step of the
server is one operation of the roster (`rosterStep`): a request joins the sender, a disconnect
removes the peer, everything else leaves the seats alone (`sim_step`). So every table the server
reaches is a roster's (`sim_run`), and what holds of rosters holds of the server, whatever the
sends, the allocations and the order of the events (`reachable_sim`).
-/

namespace MasterRelay.Server

open MasterRelay.Lib.MsgPack
open MasterRelay.Lib.Runs
open MasterRelay.Protocol

variable {P : Type}

/-- The roster of the server. -/
abbrev ServerRoster (P : Type) := Roster activePlayersSize P

/-- **The table stands for the roster.** -/
structure Sim (t : Table P) (r : ServerRoster P) : Prop where
  proper : ∀ i, Proper (t i)
  same : r.seat = seats t

theorem sim_init : Sim (initTable : Table P) Roster.empty where
  proper i h := absurd h (by simp [initTable])
  same := by
    funext i
    simp [Roster.empty, seats, seatOf, isPlayerExistsAndConnected, initTable]

/-! ## Reading the table off the roster -/

section Read

variable {t : Table P} {r : ServerRoster P} (h : Sim t r)

include h

theorem sim_active (i : Slot) : isPlayerExistsAndConnected (t i) = (r.seat i).isSome := by
  rw [h.same]
  exact active_eq_isSome (h.proper i)

theorem sim_master (i : Slot) : masterTest (t i) = r.seat.masterAt i := by
  rw [h.same]
  exact masterTest_iff (h.proper i)

/-- A seat that is taken is an active record with the same peer and the same role. -/
theorem sim_seat {i : Slot} {peer : P} {m : Bool} : r.seat i = some ⟨peer, m⟩ ↔
    isPlayerExistsAndConnected (t i) = true ∧ (t i).peer = some peer ∧ (t i).isMaster = m := by
  rw [h.same]
  show seatOf (t i) = _ ↔ _
  rcases proper_cases (h.proper i) with ⟨he, hs⟩ | ⟨peer', he, hc, hp, hs⟩
  · simp [hs, isPlayerExistsAndConnected, he]
  · simp [hs, isPlayerExistsAndConnected, he, hc, hp]

end Read

variable [DecidableEq P] {t t' : Table P} {r : ServerRoster P}

/-! ## The simulation -/

/-- What an event does to the roster. -/
def rosterStep (r : ServerRoster P) : Event P → ServerRoster P
  | .connect _ => r
  | .receive _ peer data => if IsRequest data then r.join peer else r
  | .disconnect peer => r.leave peer

/-- A disconnect is a leave. -/
theorem sim_disconnect {mp : Msgpack} {peer : P} {out : List (Output P)} (h : Sim t r)
    (hs : (server mp).step t (.disconnect peer) = some (t', out)) : Sim t' (r.leave peer) := by
  obtain ⟨-, ⟨i, hi, rfl⟩ | ⟨hnone, rfl⟩⟩ := disconnect_cases hs
  · refine ⟨fun j => ?_, ?_⟩
    · by_cases hj : j = i
      · subst hj
        simp [Proper]
      · simpa [Function.update_of_ne hj] using h.proper j
    · show r.seat.leave peer = _
      rw [seats_remove h.proper h.same hi, h.same]
  · refine ⟨h.proper, ?_⟩
    show r.seat.leave peer = _
    rw [h.same, leave_of_notFound h.proper hnone]

/-- A registration is a join. -/
theorem sim_register {mp : Msgpack} {env : Env P} {peer : P} {out : List (Output P)} (h : Sim t r)
    (hreg : handlePlayerRegister mp env t peer = some (t', out)) : Sim t' (r.join peer) := by
  rcases handlePlayerRegister_cases hreg with ⟨hno, rfl, -⟩ | ⟨i, m, hnew, hfree, rfl, rfl, -⟩
  · refine ⟨h.proper, ?_⟩
    rw [isPlayerActive_iff h.proper, firstSlot_freeTest h.proper, ← h.same] at hno
    show r.seat.join peer = _
    rcases join_cases r.seat peer with ⟨-, he⟩ | ⟨k, hk, hf, -⟩
    · rw [he, h.same]
    · rcases hno with ⟨j, hj⟩ | hfull
      · exact absurd hj (hk j)
      · exact absurd (hf.symm.trans hfull) (by simp)
  · rw [firstSlot_freeTest h.proper, ← h.same] at hfree
    have hout : ∀ j, r.seat.peerAt j ≠ some peer := by
      intro j hj
      rw [h.same] at hj
      exact absurd ((isPlayerActive_iff h.proper peer).mpr ⟨j, hj⟩) (by simp [hnew])
    refine ⟨fun j => ?_, ?_⟩
    · by_cases hj : j = i
      · subst hj
        simpa using proper_newPlayer peer _
      · simpa [Function.update_of_ne hj] using h.proper j
    · rw [seats_register, count_eq_zero h.proper, ← h.same]
      show r.seat.join peer = _
      rcases join_cases r.seat peer with ⟨⟨j, hj⟩ | hfull, -⟩ | ⟨k, -, hf, he⟩
      · exact absurd hj (hout j)
      · exact absurd (hfree.symm.trans hfull) (by simp)
      · obtain rfl : k = i := Option.some.inj (hf.symm.trans hfree)
        exact he

/-- **Each step of the server is one operation of the roster.** -/
theorem sim_step {mp : Msgpack} {e : Event P} {out : List (Output P)} (h : Sim t r)
    (hs : (server mp).step t e = some (t', out)) : Sim t' (rosterStep r e) := by
  cases e with
  | connect peer =>
    cases hs
    exact h
  | receive env peer data =>
    rcases onReceive_cases hs with ⟨hreq, hreg⟩ | ⟨hreq, rfl, -⟩
    · rw [rosterStep, if_pos hreq]
      exact sim_register h hreg
    · rw [rosterStep, if_neg hreq]
      exact h
  | disconnect peer => exact sim_disconnect h hs

/-- **So is every run.** -/
theorem sim_run {mp : Msgpack} {tr : List (Step (Table P) (Event P) (Output P))}
    (hr : Run (server mp) t tr t') (h : Sim t r) :
    Sim t' (tr.foldl (fun r x => rosterStep r x.event) r) :=
  hr.history (fun r (x : Step _ _ _) => rosterStep r x.event) (I := fun r t => Sim t r)
    (fun _ _ _ _ _ h hs => sim_step h hs) h

/-- Every table the server reaches stands for a roster. -/
theorem reachable_sim {mp : Msgpack} (h : Reachable (server mp) initTable t) :
    ∃ r : ServerRoster P, Sim t r :=
  h.elim fun _ hr => ⟨_, sim_run hr sim_init⟩

end MasterRelay.Server
