import MasterRelay.Server.Refine

/-!
# One master

What the registry keeps over every run of the server, read off the roster it stands for.

* `registry_invariant`: at most one active record is a master's, it is the one in slot 0, and the
  peers of the active records are there and differ, so each of the searches for a peer finds one
  slot or none; a disconnect removes exactly the record of that peer.
* `leader_of_run`: from an empty registry, an active slot has a master to turn to as long as no
  master disconnects while others are active. Such a step (`Orphaning`) leaves them without one, and
  nothing but an empty registry ends that: the role is given only to a peer that finds nobody there.
-/

namespace MasterRelay.Server

open MasterRelay.Lib.MsgPack
open MasterRelay.Lib.Runs
open MasterRelay.Protocol

variable {P : Type} [DecidableEq P] {mp : Msgpack} {t : Table P}

/-! ## The invariant -/

/-- **What holds of every reachable table.** -/
structure Registered (t : Table P) : Prop where
  /-- At most one active record is a master's. -/
  oneMaster : ∀ i j, masterTest (t i) = true → masterTest (t j) = true → i = j
  /-- It is the first. -/
  masterFirst : ∀ i : Slot, masterTest (t i) = true → (i : Nat) = 0
  /-- Active records have a peer. -/
  hasPeer : ∀ i, isPlayerExistsAndConnected (t i) = true → (t i).peer ≠ none
  /-- Their peers differ. -/
  distinct : ∀ i j, isPlayerExistsAndConnected (t i) = true →
    isPlayerExistsAndConnected (t j) = true → (t i).peer = (t j).peer → i = j
  /-- `is_player_active` looks for one record. -/
  isPlayerActive : ∀ peer i j, isPlayerActiveTest peer (t i) = true →
    isPlayerActiveTest peer (t j) = true → i = j
  /-- So does `try_get_player_by_peer`. -/
  getPlayerByPeer : ∀ peer i j, getPlayerByPeerTest peer (t i) = true →
    getPlayerByPeerTest peer (t j) = true → i = j
  /-- So does `try_remove_player`. -/
  remove : ∀ peer i j, removeTest peer (t i) = true → removeTest peer (t j) = true → i = j

/-- A table that stands for a roster is registered. -/
theorem registered_of_sim {r : ServerRoster P} (h : Sim t r) : Registered t where
  oneMaster i j hi hj :=
    r.master_unique ((sim_master h i).symm.trans hi) ((sim_master h j).symm.trans hj)
  masterFirst i hi := r.leads i ((sim_master h i).symm.trans hi)
  hasPeer i hi := by
    rw [sim_active h, Option.isSome_iff_exists] at hi
    obtain ⟨⟨p, m⟩, hs⟩ := hi
    rw [((sim_seat h).mp hs).2.1]
    simp
  distinct i j hi hj heq := by
    rw [sim_active h, Option.isSome_iff_exists] at hi hj
    obtain ⟨⟨p, m⟩, hs⟩ := hi
    obtain ⟨⟨q, k⟩, hs'⟩ := hj
    have hpq : p = q := by
      rw [((sim_seat h).mp hs).2.1, ((sim_seat h).mp hs').2.1] at heq
      exact Option.some.inj heq
    exact r.distinct i j p (peerAt_some.mpr ⟨m, hs⟩) (peerAt_some.mpr ⟨k, hpq ▸ hs'⟩)
  isPlayerActive peer i j hi hj := by
    rw [(peerTests_iff (h.proper _) peer).1] at hi hj
    exact r.distinct i j peer (h.same ▸ hi) (h.same ▸ hj)
  getPlayerByPeer peer i j hi hj := by
    rw [(peerTests_iff (h.proper _) peer).2.1] at hi hj
    exact r.distinct i j peer (h.same ▸ hi) (h.same ▸ hj)
  remove peer i j hi hj := by
    rw [(peerTests_iff (h.proper _) peer).2.2] at hi hj
    exact r.distinct i j peer (h.same ▸ hi) (h.same ▸ hj)

/-- What a disconnect does to a table that stands for a roster. -/
theorem disconnect_of_sim {r : ServerRoster P} (h : Sim t r) {peer : P} {t' : Table P}
    {out : List (Output P)} (hs : (server mp).step t (.disconnect peer) = some (t', out))
    (i : Slot) :
    (isPlayerExistsAndConnected (t' i) = true → (t' i).peer ≠ some peer) ∧
      (isPlayerExistsAndConnected (t i) = true → (t i).peer ≠ some peer → t' i = t i) := by
  have h' : Sim t' (r.leave peer) := sim_step h hs
  constructor
  · intro hi hpeer
    have hseat := (sim_seat h').mpr ⟨hi, hpeer, rfl⟩
    exact (leave_some.mp hseat).2 rfl
  · intro hi hne
    obtain ⟨-, ⟨k, hf, rfl⟩ | ⟨-, rfl⟩⟩ := disconnect_cases hs
    · have hk := (firstSlot_some hf).1
      rw [Function.update_of_ne]
      rintro rfl
      simp only [removeTest, Bool.and_eq_true, decide_eq_true_eq] at hk
      exact hne hk.2
    · rfl

/-- **The registry in every reachable state.** -/
theorem registry_invariant (h : Reachable (server mp) initTable t) : Registered t ∧
    ∀ peer t' out, (server mp).step t (.disconnect peer) = some (t', out) → ∀ i,
      (isPlayerExistsAndConnected (t' i) = true → (t' i).peer ≠ some peer) ∧
        (isPlayerExistsAndConnected (t i) = true → (t i).peer ≠ some peer → t' i = t i) := by
  obtain ⟨r, hr⟩ := reachable_sim h
  exact ⟨registered_of_sim hr, fun peer t' out hs i => disconnect_of_sim hr hs i⟩

/-- Two peers register, the first leaves, the second stays. -/
def leaveFirst : List (Event Nat) :=
  [.receive .ideal 1 [1], .receive .ideal 2 [1], .disconnect 1]

theorem registry_invariant_leaveFirst : ∃ t : Table Nat, Reachable (server reference) initTable t ∧
    isPlayerActive t 2 = true ∧ Registered t := by
  obtain ⟨tr, t, hr, -, hQ⟩ := run_of_exec (server reference) initTable leaveFirst
    (fun _ t => isPlayerActive t 2) (by decide +kernel)
  exact ⟨t, ⟨tr, hr⟩, hQ, (registry_invariant ⟨tr, hr⟩).1⟩

/-! ## Having a master -/

/-- The master disconnects while another slot is active. -/
def Orphaning (x : Step (Table P) (Event P) (Output P)) : Prop :=
  ∃ peer i j, x.event = .disconnect peer ∧ masterTest (x.pre i) = true ∧
    (x.pre i).peer = some peer ∧ isPlayerExistsAndConnected (x.pre j) = true ∧ j ≠ i

/-- No active record is a master's. -/
def NoMaster (t : Table P) : Prop := ∀ i, masterTest (t i) = false

/-- Some slot is active. -/
def SomeActive (t : Table P) : Prop := ∃ i, isPlayerExistsAndConnected (t i) = true

omit [DecidableEq P] in
theorem sim_someActive {r : ServerRoster P} (h : Sim t r) :
    SomeActive t ↔ r.seat.vacant = false := by
  rw [← Bool.not_eq_true, vacant_iff, not_forall]
  refine exists_congr fun i => ?_
  rw [sim_active h, Option.isSome_iff_ne_none]

omit [DecidableEq P] in
theorem sim_noMaster {r : ServerRoster P} (h : Sim t r) : NoMaster t ↔ r.seat.leader = none := by
  rw [Seats.leader, Fin.find?_eq_none_iff]
  exact forall_congr' fun i => by rw [sim_master h]

omit [DecidableEq P] in
/-- The master leaving others behind, in the roster. -/
theorem sim_orphaning {r : ServerRoster P} {peer : P} (out : List (Output P)) (t' : Table P)
    (h : Sim t r) :
    Orphaning ⟨t, .disconnect peer, out, t'⟩ ↔ Roster.Orphans r.seat peer := by
  constructor
  · rintro ⟨p, i, j, he, hm, hp, hj, hji⟩
    cases he
    rw [sim_active h, Option.isSome_iff_exists] at hj
    obtain ⟨⟨q, m⟩, hq⟩ := hj
    rw [masterTest, Bool.and_eq_true] at hm
    have hi := (sim_seat h).mpr ⟨hm.1, hp, hm.2⟩
    refine ⟨⟨i, hi⟩, j, q, peerAt_some.mpr ⟨m, hq⟩, ?_⟩
    rintro rfl
    exact hji (r.distinct j i q (peerAt_some.mpr ⟨m, hq⟩) (peerAt_some.mpr ⟨true, hi⟩))
  · rintro ⟨⟨i, hi⟩, j, q, hq, hne⟩
    obtain ⟨m, hm⟩ := peerAt_some.mp hq
    obtain ⟨hact, hp, hmaster⟩ := (sim_seat h).mp hi
    refine ⟨peer, i, j, rfl, by rw [masterTest, hact, hmaster]; rfl, hp, ((sim_seat h).mp hm).1, ?_⟩
    rintro rfl
    rw [hi] at hm
    cases hm
    exact hne rfl

/-- A step that does not orphan keeps the registry led. -/
theorem led_step {r : ServerRoster P} {e : Event P} {t' : Table P} {out : List (Output P)}
    (h : Sim t r) (hled : Roster.Led r.seat) (hno : ¬ Orphaning ⟨t, e, out, t'⟩) :
    Roster.Led (rosterStep r e).seat := by
  cases e with
  | connect peer => exact hled
  | receive env peer data =>
    rw [rosterStep]
    split
    · exact Roster.led_join hled peer
    · exact hled
  | disconnect peer => exact Roster.led_leave hled fun ho => hno ((sim_orphaning out t' h).mpr ho)

/-- A run that orphans nobody keeps the registry led. -/
theorem led_run {t₀ : Table P} {r₀ : ServerRoster P} (h₀ : Sim t₀ r₀) (hled : Roster.Led r₀.seat)
    {tr : List (Step (Table P) (Event P) (Output P))} (hr : Run (server mp) t₀ tr t)
    (hno : ∀ x ∈ tr, ¬ Orphaning x) : ∃ r : ServerRoster P, Sim t r ∧ Roster.Led r.seat :=
  hr.invariantWhere
    (I := fun t => ∃ r : ServerRoster P, Sim t r ∧ Roster.Led r.seat) (P := fun x => ¬ Orphaning x)
    (fun _ e _ _ ⟨r, hsim, hled⟩ hno hs =>
      ⟨rosterStep r e, sim_step hsim hs, led_step hsim hled hno⟩) hno ⟨r₀, h₀, hled⟩

/-- A step never gives the role away among peers that have none. -/
theorem noMaster_step {r : ServerRoster P} {e : Event P} {t' : Table P} {out : List (Output P)}
    (h : Sim t r) (hs : (server mp).step t e = some (t', out)) (hsome : SomeActive t)
    (hno : NoMaster t) : NoMaster t' := by
  have hless : Roster.Leaderless r.seat := ⟨(sim_someActive h).mp hsome, (sim_noMaster h).mp hno⟩
  rw [sim_noMaster (sim_step h hs)]
  cases e with
  | connect peer => exact hless.2
  | receive env peer data =>
    rw [rosterStep]
    split
    · exact (Roster.leaderless_join hless peer).2
    · exact hless.2
  | disconnect peer => exact Roster.leaderless_leave hless.2 peer

/-- **Who has a master.** In a run from an empty registry: there is at most one master; as long as
no master disconnects while another slot is active, an active slot means there is one, and
`try_get_master_client` finds it; a step that does leaves active slots without a master, and no step
from such a table makes one. -/
theorem leader_of_run {t₀ : Table P} (h₀ : Reachable (server mp) initTable t₀)
    (hempty : ¬ SomeActive t₀) {tr : List (Step (Table P) (Event P) (Output P))}
    (hr : Run (server mp) t₀ tr t) :
    (∀ i j, masterTest (t i) = true → masterTest (t j) = true → i = j) ∧
      ((∀ x ∈ tr, ¬ Orphaning x) → SomeActive t →
        ∃ i, tryGetMasterClient t = .ok i ∧ masterTest (t i) = true) ∧
      (∀ x ∈ tr, Orphaning x → SomeActive x.post ∧ NoMaster x.post) ∧
      ∀ x ∈ tr, SomeActive x.pre → NoMaster x.pre → NoMaster x.post := by
  obtain ⟨r₀, hr₀⟩ := reachable_sim h₀
  refine ⟨(registered_of_sim (sim_run hr hr₀)).oneMaster, fun hno hsome => ?_, fun x hx ho => ?_,
    fun x hx hsome hnone => ?_⟩
  · -- the invariant: the table stands for a roster that is led
    have hled₀ : Roster.Led r₀.seat := by
      left
      by_contra hv
      exact hempty ((sim_someActive hr₀).mpr (Bool.eq_false_iff.mpr hv))
    obtain ⟨r, hsim, hled⟩ := led_run hr₀ hled₀ hr hno
    rcases hled with hvac | hlead
    · exact absurd ((sim_someActive hsim).mp hsome) (by simp [hvac])
    · obtain ⟨i, hi⟩ := Option.isSome_iff_exists.mp hlead
      refine ⟨i, ?_, ?_⟩
      · rw [tryGetMasterClient_ok hsim.proper, ← hsim.same, hi]
      · rw [sim_master hsim]
        exact r.leader_eq_some.mp hi
  · obtain ⟨hs, t₁, t₂, -, hr₁, -⟩ := hr.mem hx
    have hsim := sim_run hr₁ hr₀
    obtain ⟨s, e, out, s'⟩ := x
    obtain ⟨peer, i, j, he, hrest⟩ := ho
    cases he
    have hless := Roster.orphans_leave _
      ((sim_orphaning out s' hsim).mp ⟨peer, i, j, rfl, hrest⟩)
    have hsim' := sim_step hsim hs
    exact ⟨(sim_someActive hsim').mpr hless.1, (sim_noMaster hsim').mpr hless.2⟩
  · obtain ⟨hs, t₁, t₂, -, hr₁, -⟩ := hr.mem hx
    exact noMaster_step (sim_run hr₁ hr₀) hs hsome hnone

omit [DecidableEq P] in
theorem initTable_inactive : ¬ SomeActive (initTable : Table P) := by
  rintro ⟨i, hi⟩
  simp [isPlayerExistsAndConnected, initTable] at hi

/-- Two peers that registered have a master. -/
theorem leader_of_run_twoPeers : ∃ t : Table Nat, isPlayerActive t 2 = true ∧
    ∃ i, tryGetMasterClient t = .ok i ∧ masterTest (t i) = true := by
  obtain ⟨tr, t, hr, hev, hQ⟩ := run_of_exec (server reference) initTable (leaveFirst.take 2)
    (fun _ t => isPlayerActive t 2) (by decide +kernel)
  obtain ⟨r, hsim⟩ := reachable_sim ⟨tr, hr⟩
  obtain ⟨j, hj⟩ := (isPlayerActive_iff hsim.proper 2).mp hQ
  obtain ⟨m, hm⟩ := peerAt_some.mp (hsim.same ▸ hj)
  refine ⟨t, hQ, (leader_of_run ⟨[], Run.nil _⟩ initTable_inactive hr).2.1 ?_
    ⟨j, ((sim_seat hsim).mp hm).1⟩⟩
  -- neither event is a disconnect
  rintro x hx ⟨peer, -, -, he, -⟩
  have hmem := List.mem_map_of_mem (f := Step.event) hx
  rw [hev, he] at hmem
  simp [leaveFirst] at hmem

/-- The first peer leaves, and the second has no master. -/
theorem leaveFirst_leaderless : ∃ t : Table Nat, Reachable (server reference) initTable t ∧
    isPlayerActive t 2 = true ∧ (tryGetMasterClient t).toOption = none := by
  obtain ⟨tr, t, hr, -, hQ⟩ := run_of_exec (server reference) initTable leaveFirst
    (fun _ t => isPlayerActive t 2 && (tryGetMasterClient t).toOption.isNone) (by decide +kernel)
  rw [Bool.and_eq_true, Option.isNone_iff_eq_none] at hQ
  exact ⟨t, ⟨tr, hr⟩, hQ⟩

end MasterRelay.Server
