import MasterRelay.Server.Identity
import MasterRelay.Server.Leader

/-!
# Ids and roles

The id a player is told comes from the lowest free slot, its role from the number of active players.
`step_announces` says what a step that tells anything has done; `roleIsId_iff` when the two agree on
who is the master: when slot 0 is taken, or nobody is there (`LeadTaken`). They part when a player
registers while slot 0 is free and another slot is not, which takes a master that has left others
behind (**`roles_of_run`**).
-/

namespace MasterRelay.Server

open MasterRelay.Lib.MsgPack
open MasterRelay.Lib.Runs
open MasterRelay.Protocol

variable {P : Type} {mp : Msgpack} {t t' : Table P} {out : List (Output P)} {o : Output P}

/-- A `RES_USER_INFO` or a `SLAVE_CONNECTED`. -/
def IsAnnouncement (o : Output P) : Prop :=
  o.data.head? = some MessageType.resUserInfo.toByte ∨
    o.data.head? = some MessageType.slaveConnected.toByte

instance (o : Output P) : Decidable (IsAnnouncement o) :=
  inferInstanceAs (Decidable (_ ∨ _))

/-- The master is the player with id 0. -/
def RoleIsId (ui : UserInfo) : Prop := ui.id = 0 ↔ ui.isMaster = true

/-- Slot 0 is taken, or every slot is free. -/
def LeadTaken (t : Table P) : Prop :=
  isPlayerExistsAndConnected (t masterSlot) = true ∨ ¬ SomeActive t

variable [DecidableEq P]

/-- **What a step that announces a player has done**: it has registered the player in the lowest
free slot, and the packet carries that slot and the role. -/
theorem step_announces {e : Event P} (hs : (server mp).step t e = some (t', out)) (ho : o ∈ out)
    (hann : IsAnnouncement o) : ∃ env peer data i m, e = .receive env peer data ∧ IsRequest data ∧
      firstSlot freeTest t = some i ∧ m = (getActivePlayersCount t == 0) ∧
      t' = Function.update t i (newPlayer peer m) ∧
      o.data.tail = userInfoBytes mp ⟨UInt32.ofNat i, m⟩ := by
  have hrelay : ∀ ty payload, ty = .gameStateUpd ∨ ty = .playerInput →
      o.data ≠ frame ty payload := by
    rintro ty payload hty hdata
    unfold IsAnnouncement at hann
    rw [hdata] at hann
    rcases hty with rfl | rfl <;> simp [frame, MessageType.toByte] at hann
  cases e with
  | connect peer =>
    cases hs
    exact absurd ho List.not_mem_nil
  | disconnect peer =>
    obtain ⟨rfl, -⟩ := disconnect_cases hs
    exact absurd ho List.not_mem_nil
  | receive env peer data =>
    rcases onReceive_cases hs with ⟨hreq, hreg⟩ | ⟨-, -, rfl | ⟨payload, gs, -, -, rfl⟩ |
      ⟨payload, master, q, rfl, -, -, rfl⟩⟩
    · rcases handlePlayerRegister_cases hreg with ⟨-, -, rfl⟩ | ⟨i, m, -, hfree, hm, ht', rfl⟩
      · exact absurd ho List.not_mem_nil
      · refine ⟨env, peer, data, i, m, rfl, hreq, hfree, hm, ht', ?_⟩
        rcases announce_cases mp env t' peer i m with h | h | ⟨master, q, -, -, -, h⟩
        · exact absurd (h ▸ ho) List.not_mem_nil
        · rw [h, List.mem_singleton] at ho
          rw [ho]
          rfl
        · rw [h, List.mem_pair] at ho
          rcases ho with rfl | rfl <;> rfl
    · exact absurd ho List.not_mem_nil
    · rw [List.mem_singleton] at ho
      exact absurd (congrArg Output.data ho) (hrelay _ _ (.inl rfl))
    · rw [List.mem_singleton] at ho
      exact absurd (congrArg Output.data ho) (hrelay _ _ (.inr rfl))

omit [DecidableEq P] in
theorem slot_id_eq_zero {i : Slot} : UInt32.ofNat i = 0 ↔ i = masterSlot :=
  ⟨fun h => slot_id_injective (j := masterSlot) h, fun h => by rw [h]; rfl⟩

omit [DecidableEq P] in
/-- The role is the master's exactly when nobody is there. -/
theorem master_iff_vacant {r : ServerRoster P} (h : Sim t r) :
    (getActivePlayersCount t == 0) = true ↔ ¬ SomeActive t := by
  rw [count_eq_zero h.proper, sim_someActive h, ← h.same, Bool.not_eq_false]

omit [DecidableEq P] in
/-- **When id and role agree**, for the player that takes the lowest free slot. -/
theorem roleIsId_iff {r : ServerRoster P} (h : Sim t r) {i : Slot}
    (hfree : firstSlot freeTest t = some i) :
    RoleIsId ⟨UInt32.ofNat i, getActivePlayersCount t == 0⟩ ↔ LeadTaken t := by
  obtain ⟨hi, hlt⟩ := firstSlot_some hfree
  have hinactive : isPlayerExistsAndConnected (t i) = false := by simpa [freeTest] using hi
  show (UInt32.ofNat i = 0 ↔ (getActivePlayersCount t == 0) = true) ↔ _
  rw [slot_id_eq_zero, master_iff_vacant h]
  by_cases hi0 : i = masterSlot
  · -- slot 0 is free
    rw [hi0] at hinactive
    constructor
    · exact fun hagree => .inr (hagree.mp hi0)
    · rintro (hact | hvac)
      · exact absurd hact (by simp [hinactive])
      · exact iff_of_true hi0 hvac
  · -- slot 0 is taken, so somebody is there
    have hact : isPlayerExistsAndConnected (t masterSlot) = true := by
      have h0 := hlt masterSlot (Fin.lt_def.mpr (Nat.pos_of_ne_zero fun he => hi0 (Fin.ext he)))
      simpa [freeTest] using h0
    exact iff_of_true (iff_of_false hi0 fun hvac => hvac ⟨_, hact⟩) (.inl hact)

omit [DecidableEq P] in
/-- A registry that is led has its lead taken. -/
theorem leadTaken_of_led {r : ServerRoster P} (h : Sim t r) (hled : Roster.Led r.seat) :
    LeadTaken t := by
  rcases hled with hvac | hlead
  · right
    rw [sim_someActive h, hvac]
    simp
  · left
    obtain ⟨i, hi⟩ := leader_isSome.mp hlead
    obtain ⟨p, hp⟩ := masterAt_iff.mp hi
    obtain rfl : i = masterSlot := Fin.ext (r.leads i hi)
    exact ((sim_seat h).mp hp).1

/-- **Roles and ids.** In every run of the server from the initial table, each `RES_USER_INFO` and
each `SLAVE_CONNECTED` says a user info whose id is 0 exactly for a master if and only if, before
the step, slot 0 was taken or nobody was there; and so they all do as long as no master disconnects
while another slot is active. -/
theorem roles_of_run (hmp : mp.Lawful) {tr : List (Step (Table P) (Event P) (Output P))}
    (hr : Run (server mp) initTable tr t) :
    (∀ x ∈ tr, ∀ o ∈ x.out, IsAnnouncement o →
      ∃ ui, Says mp o.data.tail ui ∧ (RoleIsId ui ↔ LeadTaken x.pre)) ∧
    ((∀ x ∈ tr, ¬ Orphaning x) → ∀ x ∈ tr, ∀ o ∈ x.out, IsAnnouncement o →
      ∃ ui, Says mp o.data.tail ui ∧ RoleIsId ui) := by
  have hstep : ∀ x ∈ tr, ∀ o ∈ x.out, IsAnnouncement o →
      ∃ ui, Says mp o.data.tail ui ∧ (RoleIsId ui ↔ LeadTaken x.pre) := by
    intro x hx o ho hann
    obtain ⟨hs, t₁, t₂, -, hr₁, -⟩ := hr.mem hx
    obtain ⟨r, hsim⟩ := reachable_sim ⟨t₁, hr₁⟩
    obtain ⟨env, peer, data, i, m, -, -, hfree, rfl, -, hdata⟩ := step_announces hs ho hann
    exact ⟨_, hdata ▸ says_userInfoBytes hmp _, roleIsId_iff hsim hfree⟩
  refine ⟨hstep, fun hno x hx o ho hann => ?_⟩
  obtain ⟨ui, hui, hiff⟩ := hstep x hx o ho hann
  obtain ⟨-, t₁, t₂, rfl, hr₁, -⟩ := hr.mem hx
  obtain ⟨r, hsim, hled⟩ := led_run sim_init (.inl (vacant_iff.mpr fun _ => rfl)) hr₁
    fun y hy => hno y (List.mem_append_left _ hy)
  exact ⟨ui, hui, hiff.mpr (leadTaken_of_led hsim hled)⟩

/-- Two peers register, and are told what they are. -/
theorem roles_of_run_twoPeers : ∃ (t : Table Nat) (tr : _), Run (server reference) initTable tr t ∧
    ∃ x ∈ tr, ∃ o ∈ x.out, IsAnnouncement o ∧
      ∃ ui, Says reference o.data.tail ui ∧ (RoleIsId ui ↔ LeadTaken x.pre) := by
  obtain ⟨tr, t, hr, -, hQ⟩ := run_of_exec (server reference) initTable (leaveFirst.take 2)
    (fun tr _ => tr.any fun x => x.out.any fun o => decide (IsAnnouncement o)) (by decide +kernel)
  obtain ⟨x, hx, hQ'⟩ := List.any_eq_true.mp hQ
  obtain ⟨o, ho, hann⟩ := List.any_eq_true.mp hQ'
  exact ⟨t, tr, hr, x, hx, o, ho, of_decide_eq_true hann,
    (roles_of_run reference_lawful hr).1 x hx o ho (of_decide_eq_true hann)⟩

/-- The first of two peers leaves, and a third is told that it is a slave with id 0. -/
theorem thirdPeer_slaveZero : ∃ (t : Table Nat) (tr : _), Run (server reference) initTable tr t ∧
    ∃ x ∈ tr, ∃ o ∈ x.out, IsAnnouncement o ∧
      ∃ ui, Says reference o.data.tail ui ∧ ¬ RoleIsId ui := by
  obtain ⟨tr, t, hr, -, hQ⟩ := run_of_exec (server reference) initTable
    (leaveFirst ++ [.receive .ideal 3 [1]])
    (fun tr _ => tr.any fun x => x.out.any fun o => decide (o = .send 3 .critical
      (frame .resUserInfo (some (userInfoBytes reference ⟨0, false⟩))) true true))
    (by decide +kernel)
  obtain ⟨x, hx, hQ'⟩ := List.any_eq_true.mp hQ
  obtain ⟨o, ho, heq⟩ := List.any_eq_true.mp hQ'
  obtain rfl := of_decide_eq_true heq
  exact ⟨t, tr, hr, x, hx, _, ho, .inl rfl, _, says_userInfoBytes reference_lawful _,
    fun h => absurd (h.mp rfl) (by simp)⟩

end MasterRelay.Server
