import MasterRelay.Game.MasterView

/-!
# Who is in the master's world

The flags of the master's world against the registry, over every run of the server and all its
clients in which sending succeeds. A master has seen slave `k` when a slave has registered in its
slot since the master did (`SeenSince`).

* `consistent_step`, `consistent_run`: the registry, what is under way and the clients fit together
  (`Consistent`).
* **`slaves_present`**: with nothing critical under way to it, a master has every active slave in
  its world; and it has a world when it is told about one.
* **`flags_seen`**: its flags are those of the slaves it has seen, whether they are still there or
  not: nobody tells it when one leaves.
-/

namespace MasterRelay.Game

open MasterRelay.Client
open MasterRelay.Lib.MsgPack
open MasterRelay.Lib.Runs
open MasterRelay.Protocol
open MasterRelay.Server

variable {P : Type}

/-- `p` is an active master. -/
def MasterIs (t : Table P) (p : P) : Prop :=
  ∃ i, masterTest (t i) = true ∧ (t i).peer = some p

/-- The slot of slave `k` is active. -/
def slaveActive (t : Table P) (k : Fin othersCount) : Bool :=
  isPlayerExistsAndConnected (t (slaveSlot k))

/-- A slave registers in the slot of slave `k` while `p` is the master. -/
def RegistersUnder (p : P) (k : Fin othersCount)
    (x : Step (Network P) (NetworkEvent P) ClientOutput) : Prop :=
  MasterIs x.pre.table p ∧ slaveActive x.pre.table k = false ∧ slaveActive x.post.table k = true

/-- The server handles the disconnect of `p`. -/
def DisconnectsPeer (p : P) (x : Step (Network P) (NetworkEvent P) ClientOutput) : Prop :=
  x.event = .disconnect p

/-- A slave has registered in the slot of slave `k` since `p` became the master. -/
def SeenSince (tr : List (Step (Network P) (NetworkEvent P) ClientOutput)) (p : P)
    (k : Fin othersCount) : Prop :=
  Since (RegistersUnder p k) (DisconnectsPeer p) tr

theorem masterIs_iff {t : Table P} {r : ServerRoster P} (h : Sim t r) {p : P} :
    MasterIs t p ↔ r.seat masterSlot = some ⟨p, true⟩ := by
  constructor
  · rintro ⟨i, hmaster, hpeer⟩
    rw [masterTest, Bool.and_eq_true] at hmaster
    have hseat := (sim_seat h).mpr ⟨hmaster.1, hpeer, hmaster.2⟩
    obtain rfl : i = masterSlot := Fin.ext (r.leads i (masterAt_iff.mpr ⟨p, hseat⟩))
    exact hseat
  · intro hseat
    obtain ⟨hact, hpeer, hmaster⟩ := (sim_seat h).mp hseat
    exact ⟨masterSlot, by rw [masterTest, hact, hmaster]; rfl, hpeer⟩

theorem slaveActive_eq {t : Table P} {r : ServerRoster P} (h : Sim t r) (k : Fin othersCount) :
    slaveActive t k = (r.seat (slaveSlot k)).isSome :=
  sim_active h _

theorem slaveSlot_ne_master (k : Fin othersCount) : slaveSlot k ≠ masterSlot := by
  intro h
  have := congrArg Fin.val h
  simp [slaveSlot, masterSlot] at this

variable {tr : List (Step (Network P) (NetworkEvent P) ClientOutput)}
  {x : Step (Network P) (NetworkEvent P) ClientOutput}

/-- Where nobody registers and `p` stays, it has seen the same slaves. -/
theorem seen_same {p : P} {k : Fin othersCount}
    (hslot : slaveActive x.post.table k = true → slaveActive x.pre.table k = true)
    (hstay : ¬ DisconnectsPeer p x) : SeenSince (tr ++ [x]) p k ↔ SeenSince tr p k := by
  unfold SeenSince
  rw [since_snoc]
  constructor
  · rintro (⟨-, hpre, hpost⟩ | ⟨h, -⟩)
    · exact absurd (hslot hpost) (by simp [hpre])
    · exact h
  · exact fun h => .inr ⟨h, hstay⟩

/-! ## The invariant -/

/-- **The registry, the packets under way and the clients fit together.** -/
structure Consistent (mp : Msgpack) (tr : List (Step (Network P) (NetworkEvent P) ClientOutput))
    (w : Network P) (r : ServerRoster P) : Prop where
  sim : Sim w.table r
  /-- Registered peers are connected. -/
  connected : ∀ i p, r.seat.peerAt i = some p → w.connected p = true
  /-- The others have been told nothing. -/
  untold : ∀ p, w.connected p = true → (∀ i, r.seat.peerAt i ≠ some p) →
    w.flight p .critical = [] ∧ (w.client p).currentGameState = none
  /-- The channels that are not critical tell nobody about players. -/
  loose : ∀ p ch, ch ≠ .critical → ∀ d ∈ w.flight p ch, Loose d
  /-- The master's world and what is under way to it show the slaves it has seen. -/
  view : ∀ p, r.seat masterSlot = some ⟨p, true⟩ →
    MasterView mp (SeenSince tr p) (w.flight p .critical) (w.client p)
  /-- Only the master has seen slaves. -/
  leads : ∀ p k, SeenSince tr p k → r.seat masterSlot = some ⟨p, true⟩
  /-- It has seen those that are active. -/
  active : ∀ p k, r.seat masterSlot = some ⟨p, true⟩ → (r.seat (slaveSlot k)).isSome = true →
    SeenSince tr p k

variable {mp : Msgpack} {w w' : Network P} {r : ServerRoster P} {out : List ClientOutput}

theorem consistent_init : Consistent mp [] (Network.init : Network P) Roster.empty where
  sim := sim_init
  connected i p h := absurd h (by simp [Roster.empty, Seats.peerAt])
  untold p h := absurd h (by simp [Network.init])
  loose p ch _ d hd := absurd hd (by simp [Network.init])
  view p h := absurd h (by simp [Roster.empty])
  leads p k h := absurd h not_since_nil
  active p k h := absurd h (by simp [Roster.empty])

/-- A step that leaves the registry alone, and the views. -/
theorem consistent_same (h : Consistent mp tr w r) {e : NetworkEvent P}
    (htable : w'.table = w.table) (hconn : w'.connected = w.connected)
    (hstay : ∀ p, e ≠ .disconnect p)
    (huntold : ∀ p, w.flight p .critical = [] ∧ (w.client p).currentGameState = none →
      w'.flight p .critical = [] ∧ (w'.client p).currentGameState = none)
    (hloose : ∀ p ch, ch ≠ .critical → ∀ d ∈ w'.flight p ch, Loose d)
    (hview : ∀ p seen, MasterView mp seen (w.flight p .critical) (w.client p) →
      MasterView mp seen (w'.flight p .critical) (w'.client p)) :
    Consistent mp (tr ++ [⟨w, e, out, w'⟩]) w' r := by
  have hseen : ∀ p k, SeenSince (tr ++ [⟨w, e, out, w'⟩]) p k ↔ SeenSince tr p k := fun p k =>
    seen_same (by simp [htable]) (hstay p)
  exact {
    sim := htable ▸ h.sim
    connected := hconn ▸ h.connected
    untold := fun p hp hno => huntold p (h.untold p (hconn ▸ hp) hno)
    loose := hloose
    view := fun p hp => masterView_congr (hview p _ (h.view p hp)) (hseen p)
    leads := fun p k hk => h.leads p k ((hseen p k).mp hk)
    active := fun p k hp hk => (hseen p k).mpr (h.active p k hp hk) }

variable [DecidableEq P]

/-! ## What each event keeps -/

theorem consistent_connect (h : Consistent mp tr w r) {p : P}
    (hs : (network mp).step w (.connect p) = some (w', out)) :
    Consistent mp (tr ++ [⟨w, .connect p, out, w'⟩]) w' r := by
  obtain ⟨hnew, hw⟩ := network_connect hs
  have hseen : ∀ q k, SeenSince (tr ++ [⟨w, .connect p, out, w'⟩]) q k ↔ SeenSince tr q k :=
    fun q k => seen_same (by simp [hw]) (by simp [DisconnectsPeer])
  subst hw
  have hne : ∀ i q, r.seat.peerAt i = some q → q ≠ p := by
    rintro i q hq rfl
    exact absurd (h.connected i q hq) (by simp [hnew])
  refine ⟨h.sim, fun i q hq => ?_, fun q hq hno => ?_, fun q ch hch d hd => ?_, fun q hq => ?_,
    fun q k hk => h.leads q k ((hseen q k).mp hk),
    fun q k hq hk => (hseen q k).mpr (h.active q k hq hk)⟩
  · simp only [Function.update_of_ne (hne i q hq)]
    exact h.connected i q hq
  · by_cases hqp : q = p
    · subst hqp
      simp [freshClient]
    · simp only [Function.update_of_ne hqp] at hq ⊢
      exact h.untold q hq hno
  · by_cases hqp : q = p
    · subst hqp
      simp at hd
    · simp only [Function.update_of_ne hqp] at hd
      exact h.loose q ch hch d hd
  · have hqp := hne masterSlot q (peerAt_some.mpr ⟨true, hq⟩)
    simp only [Function.update_of_ne hqp]
    exact masterView_congr (h.view q hq) (hseen q)

/-- A step that changes one peer's client and what is under way to it. -/
theorem consistent_local (h : Consistent mp tr w r) {e : NetworkEvent P} (p : P)
    (flight : ChannelId → List Bytes) (s : Shared)
    (hw : w' = ⟨w.table, w.connected, Function.update w.flight p flight,
      Function.update w.client p s⟩) (hstay : ∀ q, e ≠ .disconnect q)
    (huntold : w.flight p .critical = [] → (w.client p).currentGameState = none →
      flight .critical = [] ∧ s.currentGameState = none)
    (hloose : ∀ ch, ch ≠ .critical → ∀ d ∈ flight ch, Loose d)
    (hview : ∀ seen, MasterView mp seen (w.flight p .critical) (w.client p) →
      MasterView mp seen (flight .critical) s) :
    Consistent mp (tr ++ [⟨w, e, out, w'⟩]) w' r := by
  subst hw
  refine consistent_same h rfl rfl hstay (fun q hq => ?_) (fun q ch hch d hd => ?_)
    fun q seen hq => ?_
  · by_cases hqp : q = p
    · subst hqp
      simp only [Function.update_self]
      exact huntold hq.1 hq.2
    · simp only [Function.update_of_ne hqp]
      exact hq
  · by_cases hqp : q = p
    · subst hqp
      simp only [Function.update_self] at hd
      exact hloose ch hch d hd
    · simp only [Function.update_of_ne hqp] at hd
      exact h.loose q ch hch d hd
  · by_cases hqp : q = p
    · subst hqp
      simp only [Function.update_self]
      exact hview seen hq
    · simp only [Function.update_of_ne hqp]
      exact hq

theorem consistent_tick (h : Consistent mp tr w r) {p : P} {env : ClientEnv} {c : TickCall}
    (hs : (network mp).step w (.tick p env c) = some (w', out)) :
    Consistent mp (tr ++ [⟨w, .tick p env c, out, w'⟩]) w' r := by
  obtain ⟨s, htick, hw⟩ := network_tick hs
  obtain ⟨hstate, hflags⟩ := tryExecuteTick_flags htick
  refine consistent_local h p (w.flight p) s ?_ (by simp)
    (fun hqueue hnone => ⟨hqueue, hstate.mpr hnone⟩) (h.loose p) fun seen hview => ?_
  · rw [hw, Function.update_eq_self]
  · exact masterView_same hview hstate hflags

theorem remove_critical {ch : ChannelId} (hch : ch ≠ .critical) (i : Nat)
    (flight : ChannelId → List Bytes) : remove ch i flight .critical = flight .critical :=
  Function.update_of_ne (Ne.symm hch) _ _

omit [DecidableEq P] in
/-- What is left of loose packets is loose. -/
theorem loose_remove (h : Consistent mp tr w r) (p : P) (ch : ChannelId) (i : Nat) (ch' : ChannelId)
    (hch : ch' ≠ .critical) (d : Bytes) (hd : d ∈ remove ch i (w.flight p) ch') : Loose d :=
  h.loose p ch' hch d (mem_remove hd)

theorem consistent_drop (h : Consistent mp tr w r) {p : P} {ch : ChannelId} {i : Nat}
    (hs : (network mp).step w (.drop p ch i) = some (w', out)) :
    Consistent mp (tr ++ [⟨w, .drop p ch i, out, w'⟩]) w' r := by
  obtain ⟨hch, hw⟩ := network_drop hs
  have hcritical := remove_critical hch i (w.flight p)
  refine consistent_local h p _ (w.client p) ?_ (by simp)
    (fun hqueue hnone => ⟨hcritical.trans hqueue, hnone⟩) (loose_remove h p ch i)
    fun seen hview => hcritical ▸ hview
  rw [hw, Function.update_eq_self]

theorem consistent_deliver (hmp : mp.Lawful) (h : Consistent mp tr w r) {p : P} {ch : ChannelId}
    {i : Nat} {env : ClientEnv} (hs : (network mp).step w (.deliver p ch i env) = some (w', out)) :
    Consistent mp (tr ++ [⟨w, .deliver p ch i env, out, w'⟩]) w' r := by
  obtain ⟨horder, d, s, hd, hreceive, hw⟩ := network_deliver hs
  by_cases hch : ch = .critical
  · -- the head of the critical channel
    subst hch
    obtain rfl := horder rfl
    obtain ⟨rest, hqueue⟩ : ∃ rest, w.flight p .critical = d :: rest := by
      cases hflight : w.flight p .critical with
      | nil => simp [hflight] at hd
      | cons d' rest =>
        rw [hflight] at hd
        cases hd
        exact ⟨rest, rfl⟩
    have hrest : remove .critical 0 (w.flight p) .critical = rest := by
      rw [remove, Function.update_self, hqueue]
      rfl
    refine consistent_local h p _ s hw (by simp) (fun hnil _ => ?_) (loose_remove h p _ 0)
      fun seen hview => ?_
    · exact absurd (hqueue.symm.trans hnil) (by simp)
    · rw [hqueue] at hview
      rw [hrest]
      exact masterView_deliver hmp hview hreceive
  · -- a packet that tells nobody anything
    have hcritical := remove_critical hch i (w.flight p)
    have hstate := handleReceive_loose (h.loose p ch hch d (List.mem_of_getElem? hd)) hreceive
    refine consistent_local h p _ s hw (by simp)
      (fun hqueue hnone => ⟨hcritical.trans hqueue, hstate.trans hnone⟩) (loose_remove h p ch i)
      fun seen hview => ?_
    rw [hcritical]
    exact masterView_same hview (by rw [hstate]) fun k => by rw [flagged, flagged, hstate]

/-- A disconnect of another peer leaves a seat alone. -/
theorem leave_seat {s : Seats activePlayersSize P} {p q : P} {i : Slot} {b : Bool} :
    s.leave p i = some ⟨q, b⟩ ↔ s i = some ⟨q, b⟩ ∧ q ≠ p :=
  leave_some

theorem consistent_disconnect (h : Consistent mp tr w r) {p : P}
    (hs : (network mp).step w (.disconnect p) = some (w', out)) :
    Consistent mp (tr ++ [⟨w, .disconnect p, out, w'⟩]) w' (r.leave p) := by
  obtain ⟨t', os, hserver, hw⟩ := network_disconnect hs
  have hsim : Sim t' (r.leave p) := sim_disconnect h.sim hserver
  -- the other masters have seen the same slaves
  have hseen : ∀ q k, q ≠ p →
      (SeenSince (tr ++ [⟨w, .disconnect p, out, w'⟩]) q k ↔ SeenSince tr q k) := by
    intro q k hqp
    refine seen_same (fun hk => ?_) (by simpa [DisconnectsPeer] using Ne.symm hqp)
    rw [hw, slaveActive_eq hsim, Option.isSome_iff_exists] at hk
    obtain ⟨x, hx⟩ := hk
    rw [slaveActive_eq h.sim, (leave_some.mp hx).1]
    rfl
  subst hw
  have hkept : ∀ i q, (r.leave p).seat.peerAt i = some q → r.seat.peerAt i = some q ∧ q ≠ p := by
    intro i q hq
    obtain ⟨b, hb⟩ := peerAt_some.mp hq
    obtain ⟨hseat, hne⟩ := leave_seat.mp hb
    exact ⟨peerAt_some.mpr ⟨b, hseat⟩, hne⟩
  refine ⟨hsim, fun i q hq => ?_, fun q hq hno => ?_, fun q ch hch d hd => ?_, fun q hq => ?_,
    fun q k hk => ?_, fun q k hq hk => ?_⟩
  · obtain ⟨hseat, hne⟩ := hkept i q hq
    simp only [Function.update_of_ne hne]
    exact h.connected i q hseat
  · have hqp : q ≠ p := by
      rintro rfl
      simp at hq
    simp only [Function.update_of_ne hqp] at hq ⊢
    refine h.untold q hq fun i hi => ?_
    obtain ⟨b, hb⟩ := peerAt_some.mp hi
    exact hno i (peerAt_some.mpr ⟨b, leave_seat.mpr ⟨hb, hqp⟩⟩)
  · by_cases hqp : q = p
    · subst hqp
      simp at hd
    · simp only [Function.update_of_ne hqp] at hd
      exact h.loose q ch hch d hd
  · obtain ⟨hseat, hne⟩ := leave_seat.mp hq
    simp only [Function.update_of_ne hne]
    exact masterView_congr (h.view q hseat) fun k => hseen q k hne
  · have hqp : q ≠ p := by
      rintro rfl
      rcases since_snoc.mp hk with ⟨-, hpre, hpost⟩ | ⟨-, hstay⟩
      · rw [slaveActive_eq hsim, Option.isSome_iff_exists] at hpost
        obtain ⟨x, hx⟩ := hpost
        rw [slaveActive_eq h.sim, (leave_some.mp hx).1] at hpre
        cases hpre
      · exact hstay rfl
    exact leave_seat.mpr ⟨h.leads q k ((hseen q k hqp).mp hk), hqp⟩
  · obtain ⟨hseat, hne⟩ := leave_seat.mp hq
    obtain ⟨x, hx⟩ := Option.isSome_iff_exists.mp hk
    refine (hseen q k hne).mpr (h.active q k hseat ?_)
    rw [(leave_some.mp hx).1]
    rfl

theorem launchAll_of_connected {connected : P → Bool} {q : P} (hq : connected q = true)
    (os : List (Output P)) (flight : P → ChannelId → List Bytes) (ch : ChannelId) :
    launchAll connected os flight q ch = flight q ch ++ os.filterMap (arrives q ch) := by
  rw [launchAll, if_pos hq, launch]

/-- What the server adds to the other channels is loose. -/
theorem loose_launchAll (h : Consistent mp tr w r) {e : Event P} {t' : Table P}
    {os : List (Output P)} (hserver : (server mp).step w.table e = some (t', os)) (q : P)
    (ch : ChannelId) (hch : ch ≠ .critical) (d : Bytes)
    (hd : d ∈ launchAll w.connected os w.flight q ch) : Loose d := by
  by_cases hq : w.connected q = true
  · rw [launchAll_of_connected hq] at hd
    rcases List.mem_append.mp hd with hold | hnew
    · exact h.loose q ch hch d hold
    · rcases arrives_cases hserver hnew with ⟨hcritical, -⟩ | ⟨-, payload, rfl⟩ |
        ⟨-, env, peer, payload, -, rfl⟩
      · exact absurd hcritical hch
      · exact ⟨_, payload, .inl rfl, rfl⟩
      · exact ⟨_, payload, .inr rfl, rfl⟩
  · rw [launchAll, if_neg hq] at hd
    exact h.loose q ch hch d hd

omit [DecidableEq P] in
/-- Who has seen whom after a registration in slot `i`. -/
theorem seen_register (h : Consistent mp tr w r) {env : Env P} {p q : P} {data : Bytes}
    {r' : ServerRoster P} (hsim' : Sim w'.table r') {i : Slot} (hfree : r.seat i = none) {b : Bool}
    (hjoin : r'.seat = Function.update r.seat i (some ⟨p, b⟩)) (k : Fin othersCount) :
    SeenSince (tr ++ [⟨w, .receive env p data, out, w'⟩]) q k ↔
      r.seat masterSlot = some ⟨q, true⟩ ∧ i = slaveSlot k ∨ SeenSince tr q k := by
  have hnew : RegistersUnder q k ⟨w, .receive env p data, out, w'⟩ ↔
      r.seat masterSlot = some ⟨q, true⟩ ∧ i = slaveSlot k := by
    unfold RegistersUnder
    rw [masterIs_iff h.sim, slaveActive_eq h.sim, slaveActive_eq hsim', hjoin]
    refine and_congr_right fun _ => ⟨?_, ?_⟩
    · rintro ⟨hpre, hpost⟩
      by_contra hik
      rw [Function.update_of_ne (Ne.symm hik), hpre] at hpost
      cases hpost
    · rintro rfl
      rw [Function.update_self, hfree]
      exact ⟨rfl, rfl⟩
  unfold SeenSince
  rw [since_snoc, hnew]
  exact or_congr_right (and_iff_left (by simp [DisconnectsPeer]))

/-- **A registration**: the new player is answered, and a master is told about a slave. -/
theorem consistent_register (h : Consistent mp tr w r) {env : Env P} {p : P} {data : Bytes}
    {t' : Table P} {os : List (Output P)}
    (hserver : (server mp).step w.table (.receive env p data) = some (t', os))
    (hw : w' = { w with table := t', flight := launchAll w.connected os w.flight })
    (hp : w.connected p = true) {i : Slot} {r' : ServerRoster P} (hsim' : Sim t' r')
    (hreg : Registers mp r r' p i os) :
    Consistent mp (tr ++ [⟨w, .receive env p data, out, w'⟩]) w' r' := by
  have hi := (free_eq_some hreg.free).1
  have hseen : ∀ q k, SeenSince (tr ++ [⟨w, .receive env p data, out, w'⟩]) q k ↔
      r.seat masterSlot = some ⟨q, true⟩ ∧ i = slaveSlot k ∨ SeenSince tr q k := fun q k =>
    seen_register h (by rw [hw]; exact hsim') hi hreg.join k
  subst hw
  refine ⟨hsim', fun j q hq => ?_, fun q hq hno => ?_, loose_launchAll h hserver, fun q hq => ?_,
    fun q k hk => ?_, fun q k hq hk => ?_⟩
  · obtain ⟨b, hb⟩ := peerAt_some.mp hq
    rw [hreg.join] at hb
    by_cases hji : j = i
    · rw [hji, Function.update_self] at hb
      cases hb
      exact hp
    · rw [Function.update_of_ne hji] at hb
      exact h.connected j q (peerAt_some.mpr ⟨b, hb⟩)
  · -- a peer without a seat is neither the new player nor the master
    have hqp : q ≠ p := by
      rintro rfl
      exact hno i (peerAt_some.mpr ⟨_, by rw [hreg.join, Function.update_self]⟩)
    have hout : ∀ j, r.seat.peerAt j ≠ some q := by
      intro j hj
      obtain ⟨b, hb⟩ := peerAt_some.mp hj
      exact hno j (peerAt_some.mpr ⟨b, (hreg.kept hb).1⟩)
    have hnotMaster : r.seat masterSlot ≠ some ⟨q, true⟩ := fun hm =>
      hout masterSlot (peerAt_some.mpr ⟨true, hm⟩)
    obtain ⟨hqueue, hnone⟩ := h.untold q hq hout
    refine ⟨?_, hnone⟩
    simp only [launchAll_of_connected hq, hqueue, hreg.told q hqp, tellsMaster, if_neg hnotMaster,
      List.append_nil]
  · rcases hreg.master hq with ⟨rfl, rfl, hvac⟩ | ⟨hseat, hqp⟩
    · -- a new master, which nobody has been announced to
      obtain ⟨hqueue, hnone⟩ := h.untold q hp hreg.new
      simp only [launchAll_of_connected hp, hqueue, hreg.answered, hvac, List.nil_append]
      refine masterView_new hnone fun k hk => ?_
      rcases (hseen q k).mp hk with ⟨hseat, -⟩ | hold
      · exact absurd (hi.symm.trans hseat) (by simp)
      · exact absurd (hi.symm.trans (h.leads q k hold)) (by simp)
    · -- the master is told about the new slave
      have hconn := h.connected masterSlot q (peerAt_some.mpr ⟨true, hseat⟩)
      simp only [launchAll_of_connected hconn, hreg.told q hqp, tellsMaster, if_pos hseat]
      refine masterView_tell (h.view q hseat) fun k => ?_
      rw [hseen q k, and_iff_right hseat]
  · rcases (hseen q k).mp hk with ⟨hseat, -⟩ | hold
    · exact (hreg.kept hseat).1
    · exact (hreg.kept (h.leads q k hold)).1
  · rcases hreg.master hq with ⟨rfl, rfl, hvac⟩ | ⟨hseat, -⟩
    · -- nobody else is there
      rw [hreg.join, Function.update_of_ne (slaveSlot_ne_master k), vacant_iff.mp hvac] at hk
      cases hk
    · rw [hseen q k]
      by_cases hki : slaveSlot k = i
      · exact .inl ⟨hseat, hki.symm⟩
      · rw [hreg.join, Function.update_of_ne hki] at hk
        exact .inr (h.active q k hseat hk)

theorem consistent_receive (h : Consistent mp tr w r) {env : Env P} {p : P} {data : Bytes}
    (hs : (network mp).step w (.receive env p data) = some (w', out))
    (hok : SendsSucceed mp ⟨w, .receive env p data, out, w'⟩) :
    ∃ r', Consistent mp (tr ++ [⟨w, .receive env p data, out, w'⟩]) w' r' := by
  obtain ⟨hp, t', os, hserver, hw⟩ := network_receive hs
  obtain ⟨henv, haccepts⟩ := hok env p data rfl
  have hpeers : ∀ q, q = p ∨ r.seat masterSlot = some ⟨q, true⟩ → ∀ i m,
      env.Accepts q .critical (answer mp i m).length ∧
        env.Accepts q .critical (announcement mp i).length := by
    rintro q (rfl | hq)
    · exact haccepts q hp
    · exact haccepts q (h.connected masterSlot q (peerAt_some.mpr ⟨true, hq⟩))
  rcases receive_tells h.sim hserver henv hpeers with ⟨rfl, hquiet⟩ |
    ⟨i, r', hsim', hreg⟩
  · -- nobody registers
    have hcritical : ∀ q, launchAll w.connected os w.flight q .critical = w.flight q .critical := by
      intro q
      unfold launchAll
      split
      · rw [launch, hquiet, List.append_nil]
      · rfl
    refine ⟨r, consistent_same h (by rw [hw]) (by rw [hw]) (by simp) (fun q hq => ?_) ?_
      fun q seen hq => ?_⟩
    · rw [hw]
      exact ⟨(hcritical q).trans hq.1, hq.2⟩
    · rw [hw]
      exact loose_launchAll h hserver
    · rw [hw]
      simp only [hcritical]
      exact hq
  · exact ⟨r', consistent_register h hserver hw hp hsim' hreg⟩

/-- **Every event keeps them fitting together**, where sending succeeds. -/
theorem consistent_step (hmp : mp.Lawful) (h : Consistent mp tr w r) {e : NetworkEvent P}
    (hs : (network mp).step w e = some (w', out)) (hok : SendsSucceed mp ⟨w, e, out, w'⟩) :
    ∃ r', Consistent mp (tr ++ [⟨w, e, out, w'⟩]) w' r' := by
  cases e with
  | connect p => exact ⟨r, consistent_connect h hs⟩
  | receive env p data => exact consistent_receive h hs hok
  | disconnect p => exact ⟨_, consistent_disconnect h hs⟩
  | deliver p ch i env => exact ⟨r, consistent_deliver hmp h hs⟩
  | drop p ch i => exact ⟨r, consistent_drop h hs⟩
  | tick p env c => exact ⟨r, consistent_tick h hs⟩

/-- **Over every run.** -/
theorem consistent_run (hmp : mp.Lawful) (hr : Run (network mp) .init tr w)
    (hok : ∀ x ∈ tr, SendsSucceed mp x) : ∃ r, Consistent mp tr w r := by
  refine hr.trace (I := fun tr w => (∀ x ∈ tr, SendsSucceed mp x) → ∃ r, Consistent mp tr w r)
    ?_ (fun _ => ⟨_, consistent_init⟩) hok
  intro tr w e w' out ih hs hok
  obtain ⟨r, h⟩ := ih fun x hx => hok x (List.mem_append_left _ hx)
  exact consistent_step hmp h hs (hok _ (List.mem_append_right _ List.mem_cons_self))

/-! ## The flags -/

/-- The packet is a `SLAVE_CONNECTED`. -/
def IsSlaveConnected (d : Bytes) : Prop := d.head? = some MessageType.slaveConnected.toByte

/-- **Every slave reaches the master's world.** In every run from the start in which sending
succeeds and a new connection belongs to a client that has just started: where a peer is the master
and nothing critical is under way to it, its world has the flag of every slave whose slot is active;
and no `SLAVE_CONNECTED` is delivered to a master that has no world yet. -/
theorem slaves_present (hmp : mp.Lawful) (hr : Run (network mp) .init tr w)
    (hok : ∀ x ∈ tr, SendsSucceed mp x) :
    (∀ p, MasterIs w.table p → w.flight p .critical = [] → ∀ k, slaveActive w.table k = true →
      flagged (w.client p) k = true) ∧
    ∀ x ∈ tr, ∀ p ch i env d, x.event = .deliver p ch i env → (x.pre.flight p ch)[i]? = some d →
      IsSlaveConnected d → MasterIs x.pre.table p →
      (x.pre.client p).currentGameState ≠ none := by
  constructor
  · intro p hmaster hqueue k hk
    obtain ⟨r, h⟩ := consistent_run hmp hr hok
    rw [masterIs_iff h.sim] at hmaster
    rw [slaveActive_eq h.sim] at hk
    have hview := h.view p hmaster
    rw [hqueue] at hview
    exact (masterView_settled hview k).mpr (h.active p k hmaster hk)
  · intro x hx p ch i env d hevent hd hconnected hmaster
    obtain ⟨hs, t₁, t₂, rfl, hr₁, -⟩ := hr.mem hx
    obtain ⟨r, h⟩ := consistent_run hmp hr₁ fun y hy => hok y (List.mem_append_left _ hy)
    rw [masterIs_iff h.sim] at hmaster
    rw [hevent] at hs
    obtain ⟨horder, -⟩ := network_deliver hs
    by_cases hch : ch = .critical
    · subst hch
      obtain rfl := horder rfl
      have hview := h.view p hmaster
      cases hqueue : x.pre.flight p .critical with
      | nil => simp [hqueue] at hd
      | cons d' rest =>
        rw [hqueue] at hd hview
        cases hd
        exact masterView_ready hview hconnected
    · -- the other channels carry none
      obtain ⟨ty, payload, hty, rfl⟩ := h.loose p ch hch d (List.mem_of_getElem? hd)
      rcases hty with rfl | rfl <;> simp [IsSlaveConnected, frame, MessageType.toByte] at hconnected

/-- A peer becomes the master, another one its slave, and both are told. -/
def slaveJoins : List (NetworkEvent Nat) :=
  [.connect 1, .receive .ideal 1 [1], .deliver 1 .critical 0 .ideal, .connect 2,
    .receive .ideal 2 [1], .deliver 2 .critical 0 .ideal, .deliver 1 .critical 0 .ideal]

/-- Where everything succeeds, so does sending. -/
theorem sendsSucceed_ideal {x : Step (Network Nat) (NetworkEvent Nat) ClientOutput}
    (hx : ∀ env p data, x.event = .receive env p data → env = .ideal) :
    SendsSucceed reference x := by
  intro env p data hevent
  obtain rfl := hx env p data hevent
  have hanswer : ∀ i m, (answer reference i m).length ≤ 100 := by decide +kernel
  have hannouncement : ∀ i, (announcement reference i).length ≤ 100 := by decide +kernel
  refine ⟨ideal_allocates, fun q _ i m => ⟨ideal_accepts q _ ?_, ideal_accepts q _ ?_⟩⟩
  · exact (hanswer i m).trans (by decide)
  · exact (hannouncement i).trans (by decide)

/-- The run so far, and then more of it without a packet for the server. -/
theorem sendsSucceed_slaveJoins {tr : List (Step (Network Nat) (NetworkEvent Nat) ClientOutput)}
    (es : List (NetworkEvent Nat)) (hes : ∀ env p data, .receive env p data ∉ es)
    (hev : tr.map Step.event = slaveJoins ++ es) : ∀ x ∈ tr, SendsSucceed reference x := by
  intro x hx
  refine sendsSucceed_ideal fun env p data hevent => ?_
  have hmem := List.mem_map_of_mem (f := Step.event) hx
  rw [hev, hevent, List.mem_append] at hmem
  rcases hmem with hjoins | hmore
  · simp only [slaveJoins, List.mem_cons, NetworkEvent.receive.injEq, List.not_mem_nil,
      reduceCtorEq, false_or, or_false] at hjoins
    rcases hjoins with ⟨rfl, -⟩ | ⟨rfl, -⟩ <;> rfl
  · exact absurd hmore (hes env p data)

theorem slaves_present_slaveJoins : ∃ tr, ∃ w : Network Nat, Run (network reference) .init tr w ∧
    MasterIs w.table 1 ∧ slaveActive w.table 0 = true ∧ flagged (w.client 1) 0 = true := by
  obtain ⟨tr, w, hr, hev, hQ⟩ := run_of_exec (network reference) .init slaveJoins
    (fun _ w => masterTest (w.table masterSlot) && decide ((w.table masterSlot).peer = some 1) &&
      slaveActive w.table 0 && decide (w.flight 1 .critical = [])) (by decide +kernel)
  simp only [Bool.and_eq_true, decide_eq_true_eq] at hQ
  obtain ⟨⟨⟨hmaster, hpeer⟩, hactive⟩, hqueue⟩ := hQ
  have hok := sendsSucceed_slaveJoins [] (by simp) (by rw [hev, List.append_nil])
  exact ⟨tr, w, hr, ⟨_, hmaster, hpeer⟩, hactive,
    (slaves_present reference_lawful hr hok).1 1 ⟨_, hmaster, hpeer⟩ hqueue 0 hactive⟩

/-- The player in the slot of slave `k` disconnects. -/
def SlaveLeaves (k : Fin othersCount) (x : Step (Network P) (NetworkEvent P) ClientOutput) : Prop :=
  ∃ q, x.event = .disconnect q ∧ slaveActive x.pre.table k = true ∧
    (x.pre.table (slaveSlot k)).peer = some q

/-- A slot stays active until its player disconnects. -/
theorem slaveActive_step {e : NetworkEvent P} {k : Fin othersCount} (hsim : Sim w.table r)
    (hk : slaveActive w.table k = true) (hstay : ¬ SlaveLeaves k ⟨w, e, out, w'⟩)
    (hs : (network mp).step w e = some (w', out)) :
    ∃ r', Sim w'.table r' ∧ slaveActive w'.table k = true := by
  obtain ⟨⟨q, b⟩, hseat⟩ := Option.isSome_iff_exists.mp ((slaveActive_eq hsim k).symm.trans hk)
  cases e with
  | connect p =>
    obtain ⟨-, rfl⟩ := network_connect hs
    exact ⟨r, hsim, hk⟩
  | receive env p data =>
    obtain ⟨-, t', os, hserver, rfl⟩ := network_receive hs
    have hsim' := sim_step hsim hserver
    refine ⟨_, hsim', ?_⟩
    rw [slaveActive_eq hsim', rosterStep]
    split
    · rw [show (r.join p).seat (slaveSlot k) = some ⟨q, b⟩ from join_keeps hseat p]
      rfl
    · rw [hseat]
      rfl
  | disconnect p =>
    obtain ⟨t', os, hserver, rfl⟩ := network_disconnect hs
    have hsim' := sim_disconnect hsim hserver
    refine ⟨_, hsim', ?_⟩
    have hne : q ≠ p := by
      rintro rfl
      exact hstay ⟨q, rfl, hk, ((sim_seat hsim).mp hseat).2.1⟩
    have hkept : (r.leave p).seat (slaveSlot k) = some ⟨q, b⟩ := leave_seat.mpr ⟨hseat, hne⟩
    rw [slaveActive_eq hsim', hkept]
    rfl
  | deliver p ch i env =>
    obtain ⟨-, d, s, -, -, rfl⟩ := network_deliver hs
    exact ⟨r, hsim, hk⟩
  | drop p ch i =>
    obtain ⟨-, rfl⟩ := network_drop hs
    exact ⟨r, hsim, hk⟩
  | tick p env c =>
    obtain ⟨s, -, rfl⟩ := network_tick hs
    exact ⟨r, hsim, hk⟩

/-- **A master's flags are the slaves it has seen.** In every run from the start in which sending
succeeds and a new connection belongs to a client that has just started, where a peer is the master
and nothing critical is under way to it: its world has the flag of slave `k` exactly if a slave has
registered in that slot since the master did; and the slot is still active, or the slave has
disconnected since. -/
theorem flags_seen (hmp : mp.Lawful) (hr : Run (network mp) .init tr w)
    (hok : ∀ x ∈ tr, SendsSucceed mp x) {p : P} (hmaster : MasterIs w.table p)
    (hqueue : w.flight p .critical = []) (k : Fin othersCount) :
    (flagged (w.client p) k = true ↔ SeenSince tr p k) ∧
      (flagged (w.client p) k = true → ∃ t₁ x t₂, tr = t₁ ++ x :: t₂ ∧ RegistersUnder p k x ∧
        (∀ y ∈ t₂, ¬ DisconnectsPeer p y) ∧
        (slaveActive w.table k = true ∨ ∃ y ∈ t₂, SlaveLeaves k y)) := by
  obtain ⟨r, h⟩ := consistent_run hmp hr hok
  rw [masterIs_iff h.sim] at hmaster
  have hview := h.view p hmaster
  rw [hqueue] at hview
  have hseen := masterView_settled hview k
  refine ⟨hseen, fun hflag => ?_⟩
  obtain ⟨t₁, x, t₂, rfl, hregisters, hstay⟩ := hseen.mp hflag
  refine ⟨t₁, x, t₂, rfl, hregisters, hstay, ?_⟩
  by_cases hleft : ∃ y ∈ t₂, SlaveLeaves k y
  · exact .inr hleft
  · -- nobody has left the slot since
    obtain ⟨hr₁, hs, hr₂⟩ := hr.split
    obtain ⟨r₁, h₁⟩ := consistent_run hmp (hr₁.append (Run.single hs)) fun y hy =>
      hok y (by
        rcases List.mem_append.mp hy with hy' | hy'
        · exact List.mem_append_left _ hy'
        · exact List.mem_append_right _ (List.mem_singleton.mp hy' ▸ List.mem_cons_self))
    obtain ⟨-, -, hactive⟩ := hr₂.invariantWhere
      (I := fun w => ∃ r : ServerRoster P, Sim w.table r ∧ slaveActive w.table k = true)
      (P := fun y => ¬ SlaveLeaves k y)
      (fun _ _ _ _ ⟨_, hsim, hk⟩ hno hs => slaveActive_step hsim hk hno hs)
      (fun y hy hl => hleft ⟨y, hy, hl⟩) ⟨r₁, h₁.sim, hregisters.2.2⟩
    exact .inl hactive

/-- The slave leaves, and is still there for the master. -/
theorem flags_seen_slaveLeft : ∃ tr, ∃ w : Network Nat, Run (network reference) .init tr w ∧
    MasterIs w.table 1 ∧ slaveActive w.table 0 = false ∧ flagged (w.client 1) 0 = true ∧
    SeenSince tr 1 0 := by
  obtain ⟨tr, w, hr, hev, hQ⟩ := run_of_exec (network reference) .init
    (slaveJoins ++ [.disconnect 2])
    (fun _ w => masterTest (w.table masterSlot) && decide ((w.table masterSlot).peer = some 1) &&
      !slaveActive w.table 0 && decide (w.flight 1 .critical = []) && flagged (w.client 1) 0)
    (by decide +kernel)
  simp only [Bool.and_eq_true, decide_eq_true_eq, Bool.not_eq_true'] at hQ
  obtain ⟨⟨⟨⟨hmaster, hpeer⟩, hinactive⟩, hqueue⟩, hflag⟩ := hQ
  have hok := sendsSucceed_slaveJoins _ (by simp) hev
  exact ⟨tr, w, hr, ⟨_, hmaster, hpeer⟩, hinactive, hflag,
    (flags_seen reference_lawful hr hok ⟨_, hmaster, hpeer⟩ hqueue 0).1.mp hflag⟩

/-- A ghost: a master to which nothing is under way, with the flag of a slot that is not active. -/
theorem leftSlave_flagged : ∃ tr, ∃ w : Network Nat, Run (network reference) .init tr w ∧
    (∀ x ∈ tr, SendsSucceed reference x) ∧ MasterIs w.table 1 ∧ (∀ ch, w.flight 1 ch = []) ∧
    flagged (w.client 1) 0 = true ∧ slaveActive w.table 0 = false := by
  obtain ⟨tr, w, hr, hev, hQ⟩ := run_of_exec (network reference) .init
    (slaveJoins ++ [.disconnect 2])
    (fun _ w => masterTest (w.table masterSlot) && decide ((w.table masterSlot).peer = some 1) &&
      !slaveActive w.table 0 && flagged (w.client 1) 0 && decide (w.flight 1 .critical = []) &&
      decide (w.flight 1 .stream = []) && decide (w.flight 1 .streamPuppetInputs = []) &&
      decide (w.flight 1 .service = [])) (by decide +kernel)
  simp only [Bool.and_eq_true, decide_eq_true_eq, Bool.not_eq_true'] at hQ
  obtain ⟨⟨⟨⟨⟨⟨⟨hmaster, hpeer⟩, hinactive⟩, hflag⟩, hcritical⟩, hstream⟩, hinputs⟩, hservice⟩ := hQ
  refine ⟨tr, w, hr, sendsSucceed_slaveJoins _ (by simp) hev, ⟨_, hmaster, hpeer⟩, fun ch => ?_,
    hflag, hinactive⟩
  cases ch with
  | critical => exact hcritical
  | stream => exact hstream
  | streamPuppetInputs => exact hinputs
  | service => exact hservice

end MasterRelay.Game
