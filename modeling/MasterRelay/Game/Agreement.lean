import MasterRelay.Client.Role
import MasterRelay.Game.Presence

/-!
# What clients take themselves for

`MY_USER_INFO` of the clients against the registry, over every run of the server and its clients:
any bytes from any peer at any time, and any outcome of packing and sending. Only the server makes a
`RES_USER_INFO`, and it makes one when it has just given its receiver the seat the packet names; the
peer keeps the seat until it disconnects.

* `tells_seat`: what a `RES_USER_INFO` says is true when it is sent.
* `informed_step`, `informed_run`: what is under way and what has arrived stays true (`Informed`).
* **`roles_agreed`**: a connected client is who it takes itself for, so no two of them take
  themselves for the same player, or for the master.
-/

namespace MasterRelay.Game

open MasterRelay.Client
open MasterRelay.Lib.MsgPack
open MasterRelay.Lib.Runs
open MasterRelay.Protocol
open MasterRelay.Server

variable {P : Type}

/-- `p` has the seat and the role `ui` names. -/
def SeatedAs (s : Seats activePlayersSize P) (p : P) (ui : UserInfo) : Prop :=
  ∃ i : Slot, s i = some ⟨p, ui.isMaster⟩ ∧ ui.id = UInt32.ofNat i

/-- The packet is a `RES_USER_INFO`. -/
def TellsRole (d : Bytes) : Prop := d.head? = some MessageType.resUserInfo.toByte

theorem tellsRole_frame {ty : MessageType} {payload : Option Bytes} :
    TellsRole (frame ty payload) ↔ ty = .resUserInfo := by
  cases ty <;> simp [TellsRole, frame, MessageType.toByte]

variable {mp : Msgpack} {w w' : Network P} {r : ServerRoster P} {out : List ClientOutput}

/-- Nobody has two seats, and there is one master. -/
theorem seatedAs_unique {p q : P} {ui vi : UserInfo} (hp : SeatedAs r.seat p ui)
    (hq : SeatedAs r.seat q vi)
    (h : ui.id = vi.id ∨ ui.isMaster = true ∧ vi.isMaster = true) : p = q := by
  obtain ⟨i, hi, hui⟩ := hp
  obtain ⟨j, hj, hvi⟩ := hq
  have hij : i = j := by
    rcases h with hid | ⟨hmi, hmj⟩
    · exact slot_id_injective (hui.symm.trans (hid.trans hvi))
    · rw [hmi] at hi
      rw [hmj] at hj
      exact r.master_unique (masterAt_iff.mpr ⟨p, hi⟩) (masterAt_iff.mpr ⟨q, hj⟩)
  subst hij
  obtain ⟨hpq, -⟩ := Seat.mk.inj (Option.some.inj (hi.symm.trans hj))
  exact hpq

/-- The master has id 0. -/
theorem seatedAs_master {p : P} {ui : UserInfo} (hp : SeatedAs r.seat p ui)
    (hmaster : ui.isMaster = true) : ui.id = 0 ∧ r.seat masterSlot = some ⟨p, true⟩ := by
  obtain ⟨i, hi, hui⟩ := hp
  rw [hmaster] at hi
  obtain rfl : i = masterSlot := Fin.ext (r.leads i (masterAt_iff.mpr ⟨p, hi⟩))
  exact ⟨hui, hi⟩

variable [DecidableEq P]

/-- A seat is kept until its peer disconnects. -/
theorem rosterStep_keeps {e : Event P} {i : Slot} {p : P} {m : Bool} (h : r.seat i = some ⟨p, m⟩)
    (hstay : e ≠ .disconnect p) : (rosterStep r e).seat i = some ⟨p, m⟩ := by
  cases e with
  | connect q => exact h
  | receive env q data =>
    rw [rosterStep]
    split
    · exact join_keeps h q
    · exact h
  | disconnect q =>
    refine leave_some.mpr ⟨h, ?_⟩
    rintro rfl
    exact hstay rfl

theorem seatedAs_step {e : Event P} {p : P} {ui : UserInfo} (h : SeatedAs r.seat p ui)
    (hstay : e ≠ .disconnect p) : SeatedAs (rosterStep r e).seat p ui := by
  obtain ⟨i, hi, hid⟩ := h
  exact ⟨i, rosterStep_keeps hi hstay, hid⟩

/-- **What a `RES_USER_INFO` says is true** when the server sends it. -/
theorem tells_seat {t t' : Table P} (hsim : Sim t r) {e : Event P} {os : List (Output P)}
    (hs : (server mp).step t e = some (t', os)) {q : P} {ch : ChannelId} {d : Bytes}
    (hd : d ∈ os.filterMap (arrives q ch)) (htells : TellsRole d) :
    ∃ ui, SeatedAs (rosterStep r e).seat q ui ∧
      d = frame .resUserInfo (some (userInfoBytes mp ui)) := by
  obtain ⟨o, ho, harr⟩ := List.mem_filterMap.mp hd
  rcases server_outputs hs o ho with ⟨ty, p, payload, -, rfl⟩ | ⟨payload, rfl⟩ |
    ⟨env, peer, payload, p, -, rfl⟩ <;> simp only [arrives] at harr <;>
    split_ifs at harr with hq <;>
    obtain rfl := Option.some.inj harr
  · -- the answer to a registration
    obtain rfl := tellsRole_frame.mp htells
    have htold : payload.getD [] ∈ os.filterMap (userInfoTo q) := by
      refine List.mem_filterMap.mpr ⟨_, ho, ?_⟩
      simp [userInfoTo, frame, hq.1]
    rcases step_told (p := q) hs with hnone | ⟨env, data, i, m, -, -, -, -, rfl, hsent⟩
    · rw [hnone] at htold
      exact absurd htold List.not_mem_nil
    · refine ⟨⟨UInt32.ofNat i, m⟩, ⟨i, (sim_seat (sim_step hsim hs)).mpr ?_, rfl⟩, ?_⟩
      · simp [newPlayer, isPlayerExistsAndConnected]
      · rw [hsent, List.mem_singleton] at htold
        rw [frame, htold, frame, Option.getD_some]
  · cases tellsRole_frame.mp htells
  · cases tellsRole_frame.mp htells

/-! ## The invariant -/

/-- **What is said to a connected peer is true**: under way, and where it has arrived. -/
structure Informed (mp : Msgpack) (w : Network P) (r : ServerRoster P) : Prop where
  sim : Sim w.table r
  /-- Registered peers are connected. -/
  connected : ∀ i p, r.seat.peerAt i = some p → w.connected p = true
  /-- What is under way to a peer names its seat. -/
  mail : ∀ p ch, ∀ d ∈ w.flight p ch, TellsRole d →
    ∃ ui, SeatedAs r.seat p ui ∧ d = frame .resUserInfo (some (userInfoBytes mp ui))
  /-- So does what its client goes by. -/
  info : ∀ p ui, w.connected p = true → (w.client p).myUserInfo = some ui → SeatedAs r.seat p ui

omit [DecidableEq P] in
theorem informed_init : Informed mp (Network.init : Network P) Roster.empty where
  sim := sim_init
  connected i p h := absurd h (by simp [Roster.empty, Seats.peerAt])
  mail p ch d hd := absurd hd (by simp [Network.init])
  info p ui h := absurd h (by simp [Network.init])

theorem informed_connect (h : Informed mp w r) {p : P}
    (hs : (network mp).step w (.connect p) = some (w', out)) : Informed mp w' r := by
  obtain ⟨hnew, rfl⟩ := network_connect hs
  refine ⟨h.sim, fun i q hq => ?_, fun q ch d hd => ?_, fun q ui hq hui => ?_⟩
  · by_cases hqp : q = p
    · simp only [hqp, Function.update_self]
    · simp only [Function.update_of_ne hqp]
      exact h.connected i q hq
  · by_cases hqp : q = p
    · subst hqp
      simp at hd
    · simp only [Function.update_of_ne hqp] at hd
      exact h.mail q ch d hd
  · by_cases hqp : q = p
    · subst hqp
      simp [freshClient] at hui
    · simp only [Function.update_of_ne hqp] at hq hui
      exact h.info q ui hq hui

theorem informed_receive (h : Informed mp w r) {env : Env P} {p : P} {data : Bytes}
    (hs : (network mp).step w (.receive env p data) = some (w', out)) :
    Informed mp w' (rosterStep r (.receive env p data)) := by
  obtain ⟨hp, t', os, hserver, rfl⟩ := network_receive hs
  have hkept : ∀ q ui, SeatedAs r.seat q ui →
      SeatedAs (rosterStep r (.receive env p data)).seat q ui := fun q ui hq =>
    seatedAs_step hq (by simp)
  refine ⟨sim_step h.sim hserver, fun i q hq => ?_, fun q ch d hd htells => ?_,
    fun q ui hq hui => hkept q ui (h.info q ui hq hui)⟩
  · have hseated : (∃ j, r.seat.peerAt j = some q) ∨ q = p := by
      rw [rosterStep] at hq
      split at hq
      · exact (seated_join.mp ⟨i, hq⟩).imp_right And.left
      · exact .inl ⟨i, hq⟩
    rcases hseated with ⟨j, hj⟩ | rfl
    · exact h.connected j q hj
    · exact hp
  · have hcases : d ∈ w.flight q ch ∨ d ∈ os.filterMap (arrives q ch) := by
      dsimp only [launchAll] at hd
      split at hd
      · exact List.mem_append.mp hd
      · exact .inl hd
    rcases hcases with hold | hnew
    · obtain ⟨ui, hui, rfl⟩ := h.mail q ch d hold htells
      exact ⟨ui, hkept q ui hui, rfl⟩
    · exact tells_seat h.sim hserver hnew htells

theorem informed_disconnect (h : Informed mp w r) {p : P}
    (hs : (network mp).step w (.disconnect p) = some (w', out)) : Informed mp w' (r.leave p) := by
  obtain ⟨t', os, hserver, rfl⟩ := network_disconnect hs
  have hkept : ∀ q ui, q ≠ p → SeatedAs r.seat q ui → SeatedAs (r.leave p).seat q ui := by
    intro q ui hqp hq
    exact seatedAs_step (e := .disconnect p) hq (by simpa using Ne.symm hqp)
  refine ⟨sim_disconnect h.sim hserver, fun i q hq => ?_, fun q ch d hd htells => ?_,
    fun q ui hq hui => ?_⟩
  · obtain ⟨⟨j, hj⟩, hqp⟩ := seated_leave.mp ⟨i, hq⟩
    simp only [Function.update_of_ne hqp]
    exact h.connected j q hj
  · by_cases hqp : q = p
    · subst hqp
      simp at hd
    · simp only [Function.update_of_ne hqp] at hd
      obtain ⟨ui, hui, rfl⟩ := h.mail q ch d hd htells
      exact ⟨ui, hkept q ui hqp hui, rfl⟩
  · by_cases hqp : q = p
    · subst hqp
      simp at hq
    · simp only [Function.update_of_ne hqp] at hq
      exact hkept q ui hqp (h.info q ui hq hui)

omit [DecidableEq P] in
/-- A `RES_USER_INFO` that is accepted names the seat of its receiver. -/
theorem accepted_seated (hmp : mp.Lawful) (h : Informed mp w r) {p : P} {ch : ChannelId} {d : Bytes}
    (hd : d ∈ w.flight p ch) {rd : Reader} {ui : UserInfo}
    (hrec : received mp rd d = .userInfo ui) : SeatedAs r.seat p ui := by
  obtain ⟨payload, hparse, hunpack⟩ := received_userInfo hrec
  have htells : TellsRole d := by
    rw [(parse_eq_ok hparse).1, tellsRole_frame]
  obtain ⟨vi, hseat, rfl⟩ := h.mail p ch d hd htells
  rw [parse_frame rfl (userInfoBytes_ne_nil hmp vi)] at hparse
  obtain rfl : some (userInfoBytes mp vi) = payload := by simpa using hparse
  cases hunpack.symm.trans (says_userInfoBytes hmp vi rd)
  exact hseat

theorem informed_deliver (hmp : mp.Lawful) (h : Informed mp w r) {p : P} {ch : ChannelId} {i : Nat}
    {env : ClientEnv} (hs : (network mp).step w (.deliver p ch i env) = some (w', out)) :
    Informed mp w' r := by
  obtain ⟨-, d, s, hd, hreceive, rfl⟩ := network_deliver hs
  refine ⟨h.sim, h.connected, fun q ch' d' hd' => ?_, fun q ui hq hui => ?_⟩
  · by_cases hqp : q = p
    · subst hqp
      simp only [Function.update_self] at hd'
      exact h.mail q ch' d' (mem_remove hd')
    · simp only [Function.update_of_ne hqp] at hd'
      exact h.mail q ch' d' hd'
  · by_cases hqp : q = p
    · subst hqp
      simp only [Function.update_self, (receive_role hreceive).1] at hui
      cases hrec : received mp env.net.reader d with
      | userInfo vi =>
        obtain rfl : vi = ui := by simpa [acceptedUserInfo, hrec] using hui
        exact accepted_seated hmp h (List.mem_of_getElem? hd) hrec
      | slaveConnected vi => exact h.info q ui hq (by simpa [acceptedUserInfo, hrec] using hui)
      | playerInput pi => exact h.info q ui hq (by simpa [acceptedUserInfo, hrec] using hui)
      | ignored => exact h.info q ui hq (by simpa [acceptedUserInfo, hrec] using hui)
    · simp only [Function.update_of_ne hqp] at hui
      exact h.info q ui hq hui

theorem informed_drop (h : Informed mp w r) {p : P} {ch : ChannelId} {i : Nat}
    (hs : (network mp).step w (.drop p ch i) = some (w', out)) : Informed mp w' r := by
  obtain ⟨-, rfl⟩ := network_drop hs
  refine ⟨h.sim, h.connected, fun q ch' d hd => ?_, h.info⟩
  by_cases hqp : q = p
  · subst hqp
    simp only [Function.update_self] at hd
    exact h.mail q ch' d (mem_remove hd)
  · simp only [Function.update_of_ne hqp] at hd
    exact h.mail q ch' d hd

theorem informed_tick (h : Informed mp w r) {p : P} {env : ClientEnv} {c : TickCall}
    (hs : (network mp).step w (.tick p env c) = some (w', out)) : Informed mp w' r := by
  obtain ⟨s, htick, rfl⟩ := network_tick hs
  refine ⟨h.sim, h.connected, h.mail, fun q ui hq hui => ?_⟩
  by_cases hqp : q = p
  · subst hqp
    simp only [Function.update_self, (tick_role htick).1] at hui
    exact h.info q ui hq hui
  · simp only [Function.update_of_ne hqp] at hui
    exact h.info q ui hq hui

/-- What an event does to the roster. -/
def networkRoster (r : ServerRoster P) : NetworkEvent P → ServerRoster P
  | .receive env p data => rosterStep r (.receive env p data)
  | .disconnect p => r.leave p
  | _ => r

theorem networkRoster_keeps {e : NetworkEvent P} {i : Slot} {p : P} {m : Bool}
    (h : r.seat i = some ⟨p, m⟩) (hstay : e ≠ .disconnect p) :
    (networkRoster r e).seat i = some ⟨p, m⟩ := by
  cases e with
  | receive env q data => exact rosterStep_keeps h (by simp)
  | disconnect q => exact rosterStep_keeps (e := .disconnect q) h (by simpa using hstay)
  | connect q => exact h
  | deliver q ch i env => exact h
  | drop q ch i => exact h
  | tick q env c => exact h

/-- **Every event keeps the peers informed.** -/
theorem informed_step (hmp : mp.Lawful) (h : Informed mp w r) {e : NetworkEvent P}
    (hs : (network mp).step w e = some (w', out)) : Informed mp w' (networkRoster r e) := by
  cases e with
  | connect p => exact informed_connect h hs
  | receive env p data => exact informed_receive h hs
  | disconnect p => exact informed_disconnect h hs
  | deliver p ch i env => exact informed_deliver hmp h hs
  | drop p ch i => exact informed_drop h hs
  | tick p env c => exact informed_tick h hs

variable {tr : List (Step (Network P) (NetworkEvent P) ClientOutput)}

/-- **Over every run.** -/
theorem informed_run (hmp : mp.Lawful) (hr : Run (network mp) .init tr w) :
    ∃ r, Informed mp w r := by
  refine hr.invariantWhere (I := fun w => ∃ r, Informed mp w r) (P := fun _ => True) ?_
    (fun _ _ => trivial) ⟨_, informed_init⟩
  rintro w e w' out ⟨r, h⟩ - hs
  exact ⟨_, informed_step hmp h hs⟩

/-! ## The clients and the registry -/

/-- The client at `p` is connected and takes itself for `ui`. -/
def TakesItselfFor (w : Network P) (p : P) (ui : UserInfo) : Prop :=
  w.connected p = true ∧ (w.client p).myUserInfo = some ui

/-- **Connected clients are who they take themselves for.** In every run from the start, where a new
connection belongs to a client that has just started: a connected client with a user info sits in
the slot with its id, active, with its role; no two of them have the same id; and at most one of
them takes itself for the master, which has id 0. (A process that connects again keeps what it has
been told before, and would not be who it takes itself for.) -/
theorem roles_agreed (hmp : mp.Lawful) (hr : Run (network mp) .init tr w) :
    (∀ p ui, TakesItselfFor w p ui → ∃ i : Slot, ui.id = UInt32.ofNat i ∧
      isPlayerExistsAndConnected (w.table i) = true ∧ (w.table i).peer = some p ∧
      (w.table i).isMaster = ui.isMaster) ∧
    (∀ p q ui vi, TakesItselfFor w p ui → TakesItselfFor w q vi → ui.id = vi.id → p = q) ∧
    (∀ p q ui vi, TakesItselfFor w p ui → TakesItselfFor w q vi → ui.isMaster = true →
      vi.isMaster = true → p = q) ∧
    ∀ p ui, TakesItselfFor w p ui → ui.isMaster = true → ui.id = 0 := by
  obtain ⟨r, h⟩ := informed_run hmp hr
  have hseat : ∀ p ui, TakesItselfFor w p ui → SeatedAs r.seat p ui := fun p ui hp =>
    h.info p ui hp.1 hp.2
  refine ⟨fun p ui hp => ?_, fun p q ui vi hp hq hid => ?_, fun p q ui vi hp hq hm hm' => ?_,
    fun p ui hp hm => (seatedAs_master (hseat p ui hp) hm).1⟩
  · obtain ⟨i, hi, hid⟩ := hseat p ui hp
    exact ⟨i, hid, (sim_seat h.sim).mp hi⟩
  · exact seatedAs_unique (hseat p ui hp) (hseat q vi hq) (.inl hid)
  · exact seatedAs_unique (hseat p ui hp) (hseat q vi hq) (.inr ⟨hm, hm'⟩)

/-- Both players know who they are, after a third peer has pretended to be the server. -/
theorem roles_agreed_impostor : ∃ tr, ∃ w : Network Nat, Run (network reference) .init tr w ∧
    TakesItselfFor w 1 ⟨0, true⟩ ∧ TakesItselfFor w 2 ⟨1, false⟩ ∧
    (w.table masterSlot).peer = some 1 := by
  obtain ⟨tr, w, hr, -, hQ⟩ := run_of_exec (network reference) .init
    ([.connect 3, .receive .ideal 3 (answer reference masterSlot true)] ++ slaveJoins)
    (fun _ w => w.connected 1 && decide ((w.client 1).myUserInfo = some ⟨0, true⟩) &&
      (w.connected 2 && decide ((w.client 2).myUserInfo = some ⟨1, false⟩))) (by decide +kernel)
  simp only [Bool.and_eq_true, decide_eq_true_eq] at hQ
  obtain ⟨hmaster, hslave⟩ := hQ
  refine ⟨tr, w, hr, hmaster, hslave, ?_⟩
  obtain ⟨i, hid, -, hpeer, -⟩ := (roles_agreed reference_lawful hr).1 1 _ hmaster
  obtain rfl : masterSlot = i := slot_id_injective hid
  exact hpeer

end MasterRelay.Game
