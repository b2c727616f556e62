import MasterRelay.Server.Identity

/-!
# The index of a record

`main` numbers the records of the table, and prints `player->index` as the id of a sender.
`handle_player_register` replaces the record of a slot by a zeroed one and does not number it, so
every registered record has the index 0, whatever its slot.

* `index_step`: what a step does to the indices of the active records.
* **`recordIndex_iff`**: over a run, every record knows its slot and every report gives the id its
  peer was told, exactly where only slot 0 is ever registered.
* `recordIndex_second`: the second of two players.
-/

namespace MasterRelay.Server

open MasterRelay.Lib.MsgPack
open MasterRelay.Lib.Runs
open MasterRelay.Protocol

variable {P : Type}

/-- Every active record has the index of its slot. -/
def KnowsSlots (t : Table P) : Prop :=
  ∀ i, isPlayerExistsAndConnected (t i) = true → (t i).index = i

variable [DecidableEq P] {mp : Msgpack} {t t' : Table P} {out : List (Output P)}

/-- The id the server prints for a sender is the one its last answer gave it. -/
def ReportsTold (mp : Msgpack) (tr : List (Step (Table P) (Event P) (Output P))) (t : Table P) :
    Prop :=
  ∀ p i, tryGetPlayerByPeer t p = some i → ∀ b ∈ toldSince p tr, ∀ u, Says mp b u →
    (t i).index = u.id.toNat

/-- A step that registers a player registers it in slot 0. -/
def RegistersFirst (x : Step (Table P) (Event P) (Output P)) : Prop :=
  ∀ env p data, x.event = .receive env p data → IsRequest data → isPlayerActive x.pre p = false →
    ∀ i, firstSlot freeTest x.pre = some i → i = masterSlot

/-- **What a step does to the records**: it registers one with the index 0, or the active ones stay
as they were. -/
theorem index_step {e : Event P} (hs : (server mp).step t e = some (t', out)) :
    (∃ env p data i m, e = .receive env p data ∧ IsRequest data ∧ isPlayerActive t p = false ∧
      firstSlot freeTest t = some i ∧ t' = Function.update t i (newPlayer p m)) ∨
    (∀ i, isPlayerExistsAndConnected (t' i) = true → t' i = t i) ∧
      RegistersFirst ⟨t, e, out, t'⟩ := by
  cases e with
  | connect p =>
    cases hs
    exact .inr ⟨fun i _ => rfl, fun _ _ _ he => by cases he⟩
  | disconnect p =>
    refine .inr ⟨fun i hi => ?_, fun _ _ _ he => by cases he⟩
    obtain ⟨-, ⟨j, -, rfl⟩ | ⟨-, rfl⟩⟩ := disconnect_cases hs
    · by_cases hij : i = j
      · subst hij
        rw [Function.update_self] at hi
        cases hi
      · exact Function.update_of_ne hij _ _
    · rfl
  | receive env p data =>
    rcases onReceive_cases hs with ⟨hreq, hreg⟩ | ⟨hreq, rfl, -⟩
    · rcases handlePlayerRegister_cases hreg with ⟨hno, rfl, -⟩ | ⟨i, m, hnew, hfree, -, rfl, -⟩
      · refine .inr ⟨fun i _ => rfl, fun env' p' data' he _ hnew i hi => ?_⟩
        cases he
        rcases hno with hact | hfull
        · exact absurd hact (by simp [hnew])
        · exact absurd (hi.symm.trans hfull) (by simp)
      · exact .inl ⟨env, p, data, i, m, rfl, hreq, hnew, hfree, rfl⟩
    · refine .inr ⟨fun i _ => rfl, fun env' p' data' he hdata => ?_⟩
      cases he
      exact absurd hdata hreq

/-- A record in slot 0 knows its slot, and only there. -/
theorem knowsSlots_step {e : Event P} (h : KnowsSlots t)
    (hs : (server mp).step t e = some (t', out)) :
    KnowsSlots t' ↔ RegistersFirst ⟨t, e, out, t'⟩ := by
  rcases index_step hs with ⟨env, p, data, i, m, rfl, hreq, hnew, hfree, rfl⟩ | ⟨hsame, hfirst⟩
  · constructor
    · intro hknows env' p' data' he hdata hnew' j hj
      obtain rfl := Option.some.inj (hfree.symm.trans hj)
      -- the new record is active, so its index is its slot
      have hindex := hknows i (by simp [newPlayer, isPlayerExistsAndConnected])
      rw [Function.update_self] at hindex
      exact Fin.ext hindex.symm
    · intro hfirst j hj
      obtain rfl := hfirst env p data rfl hreq hnew i hfree
      by_cases hji : j = masterSlot
      · subst hji
        rw [Function.update_self]
        rfl
      · rw [Function.update_of_ne hji] at hj ⊢
        exact h j hj
  · refine iff_of_true (fun i hi => ?_) hfirst
    have hi' := hsame i hi
    rw [hi'] at hi ⊢
    exact h i hi

omit [DecidableEq P] in
theorem knowsSlots_init : KnowsSlots (initTable : Table P) := fun i hi => by cases hi

/-- Where records know their slots, reports are right. -/
theorem reportsTold_of_knows (hmp : mp.Lawful)
    {tr : List (Step (Table P) (Event P) (Output P))} (hr : Run (server mp) initTable tr t)
    (h : KnowsSlots t) : ReportsTold mp tr t := by
  intro p j hj b hb u hu
  obtain ⟨r, hsim, hnone | ⟨i, m, hseat, htold⟩⟩ := told_run (p := p) hr
  · exact absurd hb (by simp [hnone])
  · obtain rfl : b = _ := List.mem_singleton.mp (htold ▸ hb)
    rw [says_unique hu (says_userInfoBytes hmp _)]
    -- the peer has one seat
    have hfound := (peerTests_iff (hsim.proper j) p).2.1.mp (firstSlot_some hj).1
    obtain rfl : j = i := by
      refine r.distinct j i p ?_ (peerAt_some.mpr ⟨m, hseat⟩)
      rw [hsim.same]
      exact hfound
    rw [h j ((sim_seat hsim).mp hseat).1]
    have hlt := j.isLt
    unfold activePlayersSize at hlt
    exact (UInt32.toNat_ofNat_of_lt' (by simp [UInt32.size]; omega)).symm

/-- **When records know their slots.** In a run of the server, at every point of it, every active
record has the index of its slot and the id printed for a sender is the one it was told, if and only
if every player that is registered in the run is registered in slot 0. -/
theorem recordIndex_iff (hmp : mp.Lawful) {tr : List (Step (Table P) (Event P) (Output P))}
    (hr : Run (server mp) initTable tr t) :
    Always (server mp) initTable (fun tr t => KnowsSlots t ∧ ReportsTold mp tr t) tr ↔
      ∀ x ∈ tr, RegistersFirst x := by
  refine hr.always_iff ⟨knowsSlots_init, reportsTold_of_knows hmp (Run.nil _) knowsSlots_init⟩ ?_
  intro tr t e t' out hr h hs
  rw [← knowsSlots_step h.1 hs]
  exact ⟨And.left, fun h' => ⟨h', reportsTold_of_knows hmp (hr.append (Run.single hs)) h'⟩⟩

/-- One player alone. -/
theorem recordIndex_iff_alone : ∃ tr, ∃ t : Table Nat, Run (server reference) initTable tr t ∧
    tryGetPlayerByPeer t 1 = some masterSlot ∧ KnowsSlots t ∧ ReportsTold reference tr t := by
  have hs : (server reference).step initTable (.receive .ideal 1 [1]) =
      some (Function.update initTable masterSlot (newPlayer 1 true),
        announce reference .ideal (Function.update initTable masterSlot (newPlayer 1 true)) 1
          masterSlot true) := rfl
  have hfree : firstSlot freeTest (initTable : Table Nat) = some masterSlot := by decide +kernel
  refine ⟨_, _, Run.single hs, by decide +kernel, ?_⟩
  refine (recordIndex_iff reference_lawful (Run.single hs)).mpr (fun x hx => ?_) _ []  _
    (List.append_nil _).symm (Run.single hs)
  obtain rfl := List.mem_singleton.mp hx
  rintro env p data - - - i hi
  exact Option.some.inj (hi.symm.trans hfree)

/-- **The second player** is told the id 1, and the server prints its id as 0. -/
theorem recordIndex_second : ∃ tr, ∃ t : Table Nat, Run (server reference) initTable tr t ∧
    ¬ KnowsSlots t ∧ ¬ ReportsTold reference tr t := by
  obtain ⟨tr, t, hr, -, hQ⟩ := run_of_exec (server reference) initTable
    [.receive .ideal 1 [1], .receive .ideal 2 [1]]
    (fun tr t => decide (tryGetPlayerByPeer t 2 = some ⟨1, by decide⟩ ∧
      isPlayerExistsAndConnected (t ⟨1, by decide⟩) = true ∧ (t ⟨1, by decide⟩).index = 0 ∧
      toldSince 2 tr = [userInfoBytes reference ⟨1, false⟩])) (by decide +kernel)
  obtain ⟨hfound, hactive, hindex, htold⟩ := of_decide_eq_true hQ
  refine ⟨tr, t, hr, fun hknows => ?_, fun hreports => ?_⟩
  · exact absurd (hindex.symm.trans (hknows _ hactive)) (by decide)
  · have hid := hreports 2 _ hfound _ (htold ▸ List.mem_singleton_self _) _
      (says_userInfoBytes reference_lawful _)
    exact absurd (hindex.symm.trans hid) (by decide)

end MasterRelay.Server
