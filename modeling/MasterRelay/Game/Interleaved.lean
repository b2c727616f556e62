import MasterRelay.Game.Sums
import MasterRelay.Game.Threaded

/-!
# What the screens show, whatever the threads do

From the keyboards to the screens: the position of a player, on whatever screen, is the sum, as
`int32_t` adds, of inputs typed at the client in its slot. The threads of every client interleave
section by section: the net thread replaces an input between two sections of a tick, or two ticks of
a master overlap and the update of one is lost. Movement is lost then, and an input the master holds
on to counts at every tick; but nothing is added that has not been typed.

* `Accounted`: what one client holds, in its globals and in the locals of its threads.
* `accounted_receive`, `accounted_netSection`, `accounted_call`, `accounted_tickSection`: what its
  threads do to that.
* `sound_step`, `sound_run`: all clients, and the packets under way.
* **`screens_addUp`**: what the screens show.
-/

namespace MasterRelay.Game

open MasterRelay.Client
open MasterRelay.Lib.MsgPack
open MasterRelay.Lib.Runs
open MasterRelay.Protocol
open MasterRelay.Server

variable {P : Type}

/-- `v` is typed at the client that plays in slot `i`, as the master or as a slave: one of its
threads calls `try_execute_tick` with it. -/
def TypedAt (i : Slot) (isMaster : Bool) (v : UserInput) (x : ThreadedMove P) : Prop :=
  ∃ p θ c, Plays x.pre.closed.net.table i p isMaster ∧ x.event = .thread p (.call θ c) ∧
    c.userInput = v

/-- What has been typed for each player of the world: the master, then the slaves. -/
def source (tr : List (ThreadedMove P)) (i : Fin (othersCount + 1)) (v : UserInput) : Prop :=
  ∃ x ∈ tr, TypedAt (playerSlot i) (decide (i = 0)) v x

/-- The call is about to write its copy back. -/
def isWriteBack : TickPc → Bool
  | .idle => false
  | .copyState _ => false
  | .collectInputs _ _ => false
  | .writeBack _ _ => true
  | .sendState => false
  | .slaveTick _ => false

/-- The event is a section of a thread at `p`: which thread. -/
def sectionOf [DecidableEq P] (p : P) : ThreadedEvent P → Option Thread
  | .thread q (.tickSection _ θ) => if q = p then some θ else none
  | _ => none

/-- How many times the client at `p` has written a state back. -/
def writes [DecidableEq P] (p : P) (tr : List (ThreadedMove P)) : Nat :=
  tr.countP fun x => (sectionOf p x.event).any fun θ => isWriteBack (x.pre.tickPc p θ)

/-- The client of the active master sends the packet of a state. -/
def SendsWorld (mp : Msgpack) (p : P) (gs : GameState) (x : ThreadedMove P) : Prop :=
  Plays x.pre.closed.net.table masterSlot p true ∧
    ∃ o, .client p o ∈ x.out ∧ leaves .stream o = some (statePacket mp gs)

/-- **The state adds up**: the active master has sent it, and everybody's position in it is a sum
of inputs typed for that player, of no more terms than states have been written back at the master's
peer (one typed input may be several of them). -/
def Shown [DecidableEq P] (mp : Msgpack) (tr : List (ThreadedMove P)) (gs : GameState) : Prop :=
  ∃ y ∈ tr, ∃ p, SendsWorld mp p gs y ∧ AddsUp (source tr) (writes p tr) gs

/-- The decoders read the buffers they get. -/
def ThreadedReads (x : ThreadedMove P) : Prop :=
  (∀ p ch i env, x.event = .link (.arrive p ch i env) →
    ∃ past stale, env.reader = .buffer past stale) ∧
    ∀ p ch i env, x.event = .deliver p ch i env → ∃ past stale, env.net.reader = .buffer past stale

/-- **What is behind a packet under way**: a state adds up, and an input has been typed at the
slave it names. -/
def Backed [DecidableEq P] (mp : Msgpack) (tr : List (ThreadedMove P)) : ChannelId → Bytes → Prop
  | .critical, _ => True
  | .stream, d => ∃ gs, d = statePacket mp gs ∧ Shown mp tr gs
  | .streamPuppetInputs, d => ∃ (i : Slot) (v : UserInput),
      d = inputPacket mp ⟨UInt32.ofNat i, v.x, v.y⟩ ∧ ∃ x ∈ tr, TypedAt i false v x
  | .service, _ => False

/-- **What the locals of a call hold**: a copy of the world adds up, and what is still to be added
or sent has been typed at the client, in the seat it has. -/
def Holds (tr : List (ThreadedMove P)) (s : Seats activePlayersSize P) (n : Nat) (p : P) :
    TickPc → Prop
  | .idle => True
  | .copyState c => s masterSlot = some ⟨p, true⟩ ∧ source tr 0 c.userInput
  | .collectInputs c gs => s masterSlot = some ⟨p, true⟩ ∧ source tr 0 c.userInput ∧
      ∃ gs₀, gs = ownInput c gs₀ ∧ AddsUp (source tr) n gs₀
  | .writeBack _ gs => s masterSlot = some ⟨p, true⟩ ∧ AddsUp (source tr) (n + 1) gs
  | .sendState => s masterSlot = some ⟨p, true⟩
  | .slaveTick c => ∃ i, s i = some ⟨p, false⟩ ∧ ∃ x ∈ tr, TypedAt i false c.userInput x

/-- **What a connected client holds is accounted for.** -/
structure Accounted (tr : List (ThreadedMove P)) (s : Seats activePlayersSize P) (n : Nat) (p : P)
    (m : ClientState) : Prop where
  inputs : ∀ inputs, m.shared.lastPlayerInputs = some inputs → ∀ k,
    (inputs k).x = 0 ∧ (inputs k).y = 0 ∨
      ∃ x ∈ tr, TypedAt (slaveSlot k) false ⟨(inputs k).x, (inputs k).y⟩ x
  world : ∀ gs, m.shared.currentGameState = some gs → AddsUp (source tr) n gs
  calls : ∀ θ, Holds tr s n p (m.tick θ)

variable {mp : Msgpack} {tr tr' : List (ThreadedMove P)} {s s' : Seats activePlayersSize P}
  {n n' : Nat} {p : P}

theorem source_mono (hsub : tr ⊆ tr') {i : Fin (othersCount + 1)} {v : UserInput}
    (h : source tr i v) : source tr' i v := by
  obtain ⟨x, hx, htyped⟩ := h
  exact ⟨x, hsub hx, htyped⟩

theorem holds_mono {pc : TickPc} (h : Holds tr s n p pc) (hsub : tr ⊆ tr') (hn : n ≤ n')
    (hkeep : ∀ i m, s i = some ⟨p, m⟩ → s' i = some ⟨p, m⟩) : Holds tr' s' n' p pc := by
  cases pc with
  | idle => trivial
  | copyState c => exact ⟨hkeep _ _ h.1, source_mono hsub h.2⟩
  | collectInputs c gs =>
    obtain ⟨hseat, hown, gs₀, hgs, hadds⟩ := h
    exact ⟨hkeep _ _ hseat, source_mono hsub hown, gs₀, hgs,
      addsUp_mono hadds (fun _ _ => source_mono hsub) hn⟩
  | writeBack c gs =>
    exact ⟨hkeep _ _ h.1, addsUp_mono h.2 (fun _ _ => source_mono hsub) (Nat.succ_le_succ hn)⟩
  | sendState => exact hkeep _ _ h
  | slaveTick c =>
    obtain ⟨i, hseat, x, hx, htyped⟩ := h
    exact ⟨i, hkeep _ _ hseat, x, hsub hx, htyped⟩

theorem accounted_mono {m : ClientState} (h : Accounted tr s n p m) (hsub : tr ⊆ tr') (hn : n ≤ n')
    (hkeep : ∀ i m, s i = some ⟨p, m⟩ → s' i = some ⟨p, m⟩) : Accounted tr' s' n' p m where
  inputs inputs hin k := (h.inputs inputs hin k).imp_right fun ⟨x, hx, htyped⟩ =>
    ⟨x, hsub hx, htyped⟩
  world gs hgs := addsUp_mono (h.world gs hgs) (fun _ _ => source_mono hsub) hn
  calls θ := holds_mono (h.calls θ) hsub hn hkeep

theorem accounted_fresh : Accounted tr s n p ⟨freshClient, .idle, fun _ => .idle⟩ where
  inputs inputs hin := absurd hin (by simp [freshClient])
  world gs hgs := absurd hgs (by simp [freshClient])
  calls θ := trivial

/-! ## What the threads do -/

section Client

variable {m : ClientState} {env : ClientEnv} {g : Shared}

/-- Only a flag changes. -/
theorem connectSlave_moves (gs : GameState) (k : Fin othersCount) (i : Fin (othersCount + 1)) :
    ((connectSlave gs k).pos i).x = (gs.pos i).x ∧
      ((connectSlave gs k).pos i).y = (gs.pos i).y := by
  rw [connectSlave_pos]
  split_ifs <;> exact ⟨rfl, rfl⟩

/-- **A packet.** It moves nobody, and the input it brings has been typed at the slave it names. -/
theorem accounted_receive [DecidableEq P] (hmp : mp.Lawful) (h : Accounted tr s n p m)
    {ch : ChannelId} {d : Bytes} (hcarried : Carried mp ch d) (hbacked : Backed mp tr ch d)
    {pc net : NetPc} (hs : netReceive mp env m.shared d = some (g, pc)) :
    Accounted tr s n p ⟨g, net, m.tick⟩ := by
  rcases netReceive_cases hs with ⟨rfl, -⟩ | ⟨payload, ui, -, -, rfl, -⟩ |
    ⟨payload, ui, -, -, rfl, -⟩ | ⟨payload, pi, k, old, hparse, -, hpi, hk, hold, rfl, -⟩
  · exact ⟨h.inputs, h.world, h.calls⟩
  · exact ⟨h.inputs, h.world, h.calls⟩
  · refine ⟨fun inputs hin => h.inputs inputs ?_, fun gs hgs => ?_, h.calls⟩
    · exact (handleOnSlaveConnected_frame ui m.shared).2 ▸ hin
    · rcases handleOnSlaveConnected_cases ui m.shared with hsame | ⟨gs₀, k, hgs₀, -, hset⟩
      · exact h.world gs (hsame ▸ hgs)
      · obtain rfl : connectSlave gs₀ k = gs := Option.some.inj (hset.symm.trans hgs)
        exact addsUp_congr (h.world gs₀ hgs₀) (connectSlave_moves gs₀ k)
  · refine ⟨fun inputs hin j => ?_, h.world, h.calls⟩
    obtain rfl := Option.some.inj hin
    by_cases hjk : j = k
    · subst hjk
      have hrec : received mp env.net.reader d = .playerInput pi := by
        simp only [received, hparse, hpi]
      obtain ⟨rfl, hd⟩ := carried_input hmp hcarried hrec
      obtain ⟨i, v, hdv, htyped⟩ := hbacked
      obtain rfl := inputPacket_injective hmp (hd.symm.trans hdv)
      obtain rfl := slaveIndex_slot.mp hk
      rw [Function.update_self]
      exact .inr htyped
    · rw [Function.update_of_ne hjk]
      exact h.inputs old hold j

/-- **A section of `attempt_init_current_game_state_by_master`.** -/
theorem accounted_netSection (h : Accounted tr s n p m) {pc : NetPc}
    (hs : netSection env m.shared m.net = some (g, pc)) : Accounted tr s n p ⟨g, pc, m.tick⟩ := by
  rcases netSection_cases hs with rfl | ⟨-, rfl⟩ | ⟨-, rfl⟩
  · exact ⟨h.inputs, h.world, h.calls⟩
  · refine ⟨h.inputs, fun gs hgs => ?_, h.calls⟩
    obtain rfl := Option.some.inj hgs
    exact addsUp_zero
  · refine ⟨fun inputs hin k => .inl ?_, h.world, h.calls⟩
    obtain rfl := Option.some.inj hin
    exact ⟨rfl, rfl⟩

/-- Another place for one thread. -/
theorem accounted_update (h : Accounted tr s n p m) {θ : Thread} {pc : TickPc}
    (hpc : Holds tr s n p pc) :
    Accounted tr s n p { m with tick := Function.update m.tick θ pc } where
  inputs := h.inputs
  world := h.world
  calls θ' := by
    by_cases hθ : θ' = θ
    · subst hθ
      simp only [Function.update_self]
      exact hpc
    · simp only [Function.update_of_ne hθ]
      exact h.calls θ'

/-- What a tick is about to add has been typed for the player. -/
theorem accounted_supplied (h : Accounted tr s n p m) {c : TickCall}
    (hown : source tr 0 c.userInput) {inputs : Fin othersCount → PlayerInput}
    (hin : m.shared.lastPlayerInputs = some inputs) :
    Supplied (source tr) inputs c := by
  intro i
  cases i using Fin.cases with
  | zero => exact .inr hown
  | succ k =>
    show (⟨(inputs k).x, (inputs k).y⟩ : UserInput) = _ ∨ _
    rcases h.inputs inputs hin k with ⟨hx, hy⟩ | ⟨x, hx, htyped⟩
    · rw [hx, hy]
      exact .inl rfl
    · have hslave : decide (k.succ = 0) = false := decide_eq_false (Fin.succ_ne_zero k)
      exact .inr ⟨x, hx, hslave.symm ▸ htyped⟩

variable {r : ServerRoster P}

/-- **A call.** The client is who it takes itself for, so what is typed is typed in its seat. -/
theorem accounted_call (h : Accounted tr r.seat n p m)
    (hinfo : ∀ ui, m.shared.myUserInfo = some ui → SeatedAs r.seat p ui) {θ : Thread} {c : TickCall}
    {x : ThreadedMove P} (hx : x ∈ tr)
    (htyped : ∀ i b, r.seat i = some ⟨p, b⟩ → TypedAt i b c.userInput x) :
    Accounted tr r.seat n p
      { m with tick := Function.update m.tick θ (startTick m.shared c).1 } := by
  refine accounted_update h ?_
  cases hui : m.shared.myUserInfo with
  | none =>
    simp only [startTick, hui]
    trivial
  | some ui =>
    simp only [startTick, hui]
    split_ifs with hmaster
    · obtain ⟨-, hseat⟩ := seatedAs_master (hinfo ui hui) hmaster
      exact ⟨hseat, x, hx, htyped masterSlot true hseat⟩
    · obtain ⟨i, hseat, -⟩ := hinfo ui hui
      rw [Bool.eq_false_iff.mpr hmaster] at hseat
      exact ⟨i, hseat, x, hx, htyped i false hseat⟩

/-- **A section of a call.** A state that is written back counts as one more. -/
theorem accounted_tickSection (h : Accounted tr s n p m) {θ : Thread} {q : TickPc}
    {o : List ClientOutput} (hs : tickSection mp env m.shared (m.tick θ) = some (g, q, o)) :
    Accounted tr s (n + if isWriteBack (m.tick θ) then 1 else 0) p
      ⟨g, m.net, Function.update m.tick θ q⟩ := by
  have hholds := h.calls θ
  cases hpc : m.tick θ with
  | idle =>
    rw [hpc] at hs
    cases hs
  | copyState c =>
    rw [hpc] at hs hholds
    simp only [tickSection] at hs
    split at hs
    · cases hs
      exact accounted_update h trivial
    · rename_i gs hgs
      cases hs
      exact accounted_update h ⟨hholds.1, hholds.2, gs, rfl, h.world gs hgs⟩
  | collectInputs c gs =>
    rw [hpc] at hs hholds
    simp only [tickSection] at hs
    split at hs
    · cases hs
    · rename_i inputs hin
      cases hs
      obtain ⟨hseat, hown, gs₀, rfl, hadds⟩ := hholds
      exact accounted_update h ⟨hseat, addsUp_tick hadds (accounted_supplied h hown hin)⟩
  | writeBack c gs =>
    rw [hpc] at hs hholds
    simp only [tickSection] at hs
    split at hs
    · cases hs
    · cases hs
      have hmore : Accounted tr s (n + 1) p m :=
        accounted_mono h (List.Subset.refl tr) (Nat.le_succ n) fun i b hi => hi
      have hmoved : Accounted tr s (n + 1) p
          { m with tick := Function.update m.tick θ .sendState } :=
        accounted_update hmore hholds.1
      refine ⟨hmoved.inputs, fun gs' hgs' => ?_, hmoved.calls⟩
      obtain rfl := Option.some.inj hgs'
      exact hholds.2
  | sendState =>
    rw [hpc] at hs
    simp only [tickSection] at hs
    split at hs <;> cases hs <;> exact accounted_update h trivial
  | slaveTick c =>
    rw [hpc] at hs
    obtain ⟨sent, -, heq⟩ := Option.map_eq_some_iff.mp hs
    cases heq
    exact accounted_update h trivial

/-- **What a section sends**: the world of the master, or what the slave has typed. -/
theorem accounted_sends (h : Accounted tr r.seat n p m)
    (hinfo : ∀ ui, m.shared.myUserInfo = some ui → SeatedAs r.seat p ui) {θ : Thread} {q : TickPc}
    {o : List ClientOutput} (hs : tickSection mp env m.shared (m.tick θ) = some (g, q, o))
    {ch : ChannelId} {d : Bytes} (hd : d ∈ o.filterMap (leaves ch)) :
    (ch = .stream ∧ r.seat masterSlot = some ⟨p, true⟩ ∧
        ∃ gs, d = statePacket mp gs ∧ AddsUp (source tr) n gs) ∨
      ch = .streamPuppetInputs ∧ ∃ (i : Slot) (v : UserInput),
        d = inputPacket mp ⟨UInt32.ofNat i, v.x, v.y⟩ ∧ ∃ x ∈ tr, TypedAt i false v x := by
  have hholds := h.calls θ
  cases hpc : m.tick θ with
  | idle =>
    rw [hpc] at hs
    cases hs
  | copyState c =>
    rw [hpc] at hs
    simp only [tickSection] at hs
    split at hs <;> cases hs <;> exact absurd hd List.not_mem_nil
  | collectInputs c gs =>
    rw [hpc] at hs
    simp only [tickSection] at hs
    split at hs
    · cases hs
    · cases hs
      exact absurd hd List.not_mem_nil
  | writeBack c gs =>
    rw [hpc] at hs
    simp only [tickSection] at hs
    split at hs
    · cases hs
    · cases hs
      exact absurd hd List.not_mem_nil
  | sendState =>
    rw [hpc] at hs hholds
    simp only [tickSection] at hs
    split at hs
    · cases hs
      exact absurd hd List.not_mem_nil
    · rename_i gs hgs
      cases hs
      rcases sendGameState_sends env gs ch with hnone | ⟨rfl, hstate⟩
      · rw [hnone] at hd
        exact absurd hd List.not_mem_nil
      · rw [hstate] at hd
        exact .inl ⟨rfl, hholds, gs, List.mem_singleton.mp hd, h.world gs hgs⟩
  | slaveTick c =>
    rw [hpc] at hs hholds
    obtain ⟨sent, hsent, heq⟩ := Option.map_eq_some_iff.mp hs
    cases heq
    obtain ⟨i, hseat, x, hx, htyped⟩ := hholds
    cases hui : m.shared.myUserInfo with
    | none =>
      simp only [handleCmdSlaveTick, hui] at hsent
      cases hsent
    | some ui =>
      rcases slaveTick_sends hui hsent ch with hnone | ⟨rfl, hinput⟩
      · rw [hnone] at hd
        exact absurd hd List.not_mem_nil
      · rw [hinput] at hd
        -- the id it sends is that of the only seat it has
        obtain ⟨j, hj, hid⟩ := hinfo ui hui
        obtain rfl := r.distinct i j p (peerAt_some.mpr ⟨_, hseat⟩) (peerAt_some.mpr ⟨_, hj⟩)
        rw [hid] at hd
        exact .inr ⟨rfl, i, c.userInput, List.mem_singleton.mp hd, x, hx, htyped⟩

end Client

/-! ## The system -/

variable [DecidableEq P] {w w' : Threaded P} {r : ServerRoster P} {e : ThreadedEvent P}
  {out : List (ClosedOutput P)} {ch : ChannelId} {d : Bytes}

theorem writes_snoc (p : P) (x : ThreadedMove P) : writes p (tr ++ [x]) =
    writes p tr + if (sectionOf p x.event).any fun θ => isWriteBack (x.pre.tickPc p θ) then 1
      else 0 := by
  unfold writes
  rw [List.countP_append, List.countP_singleton]

theorem writes_le_snoc (p : P) (x : ThreadedMove P) : writes p tr ≤ writes p (tr ++ [x]) := by
  rw [writes_snoc]
  exact Nat.le_add_right _ _

theorem accounted_snoc {m : ClientState} (h : Accounted tr s (writes p tr) p m) (x : ThreadedMove P)
    (hkeep : ∀ i m, s i = some ⟨p, m⟩ → s' i = some ⟨p, m⟩) :
    Accounted (tr ++ [x]) s' (writes p (tr ++ [x])) p m :=
  accounted_mono h (List.subset_append_left _ _) (writes_le_snoc p x) hkeep

theorem shown_snoc {gs : GameState} (h : Shown mp tr gs) (x : ThreadedMove P) :
    Shown mp (tr ++ [x]) gs := by
  obtain ⟨y, hy, p, hsent, hadds⟩ := h
  exact ⟨y, List.mem_append_left _ hy, p, hsent, addsUp_mono hadds
    (fun _ _ => source_mono (List.subset_append_left _ _)) (writes_le_snoc p x)⟩

theorem backed_snoc (h : Backed mp tr ch d) (x : ThreadedMove P) : Backed mp (tr ++ [x]) ch d := by
  cases ch with
  | critical => trivial
  | stream =>
    obtain ⟨gs, hd, hshown⟩ := h
    exact ⟨gs, hd, shown_snoc hshown x⟩
  | streamPuppetInputs =>
    obtain ⟨i, v, hd, y, hy, htyped⟩ := h
    exact ⟨i, v, hd, y, List.mem_append_left _ hy, htyped⟩
  | service => exact h

omit [DecidableEq P] in
/-- What a client makes the server may carry, but for a request. -/
theorem carried_of_made (h : Made mp ch d) (hch : ch ≠ .critical) : Carried mp ch d := by
  cases ch with
  | critical => exact absurd rfl hch
  | stream => exact h
  | streamPuppetInputs => exact h
  | service => exact h

/-- **Every connected client is accounted for, and every packet under way backed.** -/
structure Sound (mp : Msgpack) (tr : List (ThreadedMove P)) (w : Threaded P) (r : ServerRoster P) :
    Prop where
  informed : Informed mp w.closed.net r
  sent : ∀ p ch, ∀ d ∈ w.closed.sent p ch, Made mp ch d ∧ Backed mp tr ch d
  flight : ∀ p ch, ∀ d ∈ w.closed.net.flight p ch, Carried mp ch d ∧ Backed mp tr ch d
  clients : ∀ p, w.closed.net.connected p = true →
    Accounted tr r.seat (writes p tr) p (w.client p)

theorem sound_init : Sound mp [] (Threaded.init : Threaded P) Roster.empty where
  informed := informed_init
  sent _ _ _ hd := absurd hd List.not_mem_nil
  flight _ _ _ hd := absurd hd List.not_mem_nil
  clients _ _ := accounted_fresh

/-- What is left to show for a step: its new packets are backed, and the clients it changes
accounted for. -/
theorem sound_of (hmp : mp.Lawful) (h : Sound mp tr w r)
    (hs : (threaded mp).step w e = some (w', out))
    (hsent : ∀ p ch, ∀ d ∈ w'.closed.sent p ch, d ∈ w.closed.sent p ch ∨
      Made mp ch d ∧ Backed mp (tr ++ [⟨w, e, out, w'⟩]) ch d)
    (hflight : ∀ p ch, ∀ d ∈ w'.closed.net.flight p ch, d ∈ w.closed.net.flight p ch ∨
      Carried mp ch d ∧ Backed mp tr ch d)
    (hclients : ∀ p, w'.closed.net.connected p = true → e ≠ .link (.disconnect p) ∧
      (w.closed.net.connected p = true ∧ w'.client p = w.client p ∨
        Accounted (tr ++ [⟨w, e, out, w'⟩]) r.seat (writes p (tr ++ [⟨w, e, out, w'⟩])) p
          (w'.client p))) :
    ∃ r', Sound mp (tr ++ [⟨w, e, out, w'⟩]) w' r' := by
  obtain ⟨r', hinformed, hkeep⟩ := threaded_informed hmp h.informed hs
  refine ⟨r', hinformed, fun p ch d hd => ?_, fun p ch d hd => ?_, fun p hconn => ?_⟩
  · rcases hsent p ch d hd with hold | hnew
    · exact (h.sent p ch d hold).imp_right fun hbacked => backed_snoc hbacked _
    · exact hnew
  · refine And.imp_right (fun hbacked => backed_snoc hbacked _) ?_
    rcases hflight p ch d hd with hold | hnew
    · exact h.flight p ch d hold
    · exact hnew
  · obtain ⟨hstay, ⟨hold, hsame⟩ | hnew⟩ := hclients p hconn
    · rw [hsame]
      exact accounted_snoc (h.clients p hold) _ fun i m => hkeep i p m hstay
    · exact accounted_mono hnew (List.Subset.refl _) le_rfl fun i m => hkeep i p m hstay

/-- An event of the links leaves the clients alone, but for one that starts anew. -/
theorem link_same {e : LinkEvent P} (hs : (threaded mp).step w (.link e) = some (w', out)) {p : P}
    (hstart : e.starts p = false) (hclient : w'.closed.net.client p = w.closed.net.client p) :
    w'.client p = w.client p := by
  rw [(threaded_link hs).2 p, hstart, hclient]
  rfl

theorem sound_connect (hmp : mp.Lawful) (h : Sound mp tr w r) {p : P}
    (hs : (threaded mp).step w (.link (.connect p)) = some (w', out)) :
    ∃ r', Sound mp (tr ++ [⟨w, .link (.connect p), out, w'⟩]) w' r' := by
  obtain ⟨hlink, hstart⟩ := threaded_link hs
  obtain ⟨hnet, hsent, -⟩ := closed_connect hlink
  obtain ⟨-, hw⟩ := network_connect hnet
  refine sound_of hmp h hs (fun q ch d hd => ?_) (fun q ch d hd => ?_)
    fun q hconn => ⟨by simp, ?_⟩
  · rw [hsent] at hd
    exact .inl (mem_cleared hd).2
  · rw [hw] at hd
    exact .inl (mem_cleared hd).2
  · by_cases hqp : q = p
    · subst hqp
      right
      rw [hstart q, hw]
      simp only [LinkEvent.starts, decide_true, if_true, Function.update_self]
      exact accounted_fresh
    · rw [hw] at hconn
      simp only [Function.update_of_ne hqp] at hconn
      refine .inl ⟨hconn, link_same hs (decide_eq_false (Ne.symm hqp)) ?_⟩
      rw [hw]
      exact Function.update_of_ne hqp _ _

theorem sound_request (hmp : mp.Lawful) (h : Sound mp tr w r) {p : P} {env : ClientEnv}
    (hs : (threaded mp).step w (.link (.request p env)) = some (w', out)) :
    ∃ r', Sound mp (tr ++ [⟨w, .link (.request p env), out, w'⟩]) w' r' := by
  obtain ⟨hnet, hsent, -⟩ := closed_request (threaded_link hs).1
  refine sound_of hmp h hs (fun q ch d hd => ?_) (fun q ch d hd => .inl (hnet ▸ hd))
    fun q hconn => ⟨by simp, .inl ⟨hnet ▸ hconn, link_same hs rfl (by rw [hnet])⟩⟩
  rw [hsent] at hd
  refine (mem_launchFrom hd).imp_right ?_
  rintro ⟨rfl, -, hnew⟩
  rcases request_sends env ch with hnone | ⟨rfl, hone⟩
  · rw [hnone] at hnew
    exact absurd hnew List.not_mem_nil
  · rw [hone] at hnew
    exact ⟨List.mem_singleton.mp hnew, trivial⟩

theorem sound_arrive (hmp : mp.Lawful) (h : Sound mp tr w r) {p : P} {i : Nat} {env : Env P}
    (hrd : ∃ past stale, env.reader = .buffer past stale)
    (hs : (threaded mp).step w (.link (.arrive p ch i env)) = some (w', out)) :
    ∃ r', Sound mp (tr ++ [⟨w, .link (.arrive p ch i env), out, w'⟩]) w' r' := by
  obtain ⟨-, d, t', os, hd, hserver, -, hw, hsent, -⟩ := closed_arrive (threaded_link hs).1
  obtain ⟨hmade, hbacked⟩ := h.sent p ch d (List.mem_of_getElem? hd)
  refine sound_of hmp h hs (fun q ch' d' hd' => .inl ?_) (fun q ch' d' hd' => ?_)
    fun q hconn => ⟨by simp, .inl ⟨?_, link_same hs rfl (by rw [hw])⟩⟩
  · rw [hsent] at hd'
    exact mem_removed hd'
  · rw [hw] at hd'
    refine (mem_launchAll hd').imp_right fun hnew => ?_
    -- what the server puts under way it has been told, or has made itself
    rcases made_arrives hmp hmade hrd hserver hnew with ⟨rfl, htells⟩ | ⟨rfl, hch, rfl⟩
    · exact ⟨htells, trivial⟩
    · exact ⟨carried_of_made hmade hch, hbacked⟩
  · rw [hw] at hconn
    exact hconn

theorem sound_lose (hmp : mp.Lawful) (h : Sound mp tr w r) {p : P} {i : Nat}
    (hs : (threaded mp).step w (.link (.lose p ch i)) = some (w', out)) :
    ∃ r', Sound mp (tr ++ [⟨w, .link (.lose p ch i), out, w'⟩]) w' r' := by
  obtain ⟨hw, -⟩ := closed_lose (threaded_link hs).1
  refine sound_of hmp h hs (fun q ch' d hd => .inl ?_)
    (fun q ch' d hd => .inl (by rw [hw] at hd; exact hd))
    fun q hconn => ⟨by simp, .inl ⟨by rw [hw] at hconn; exact hconn, link_same hs rfl (by rw [hw])⟩⟩
  rw [hw] at hd
  exact mem_removed hd

theorem sound_disconnect (hmp : mp.Lawful) (h : Sound mp tr w r) {p : P}
    (hs : (threaded mp).step w (.link (.disconnect p)) = some (w', out)) :
    ∃ r', Sound mp (tr ++ [⟨w, .link (.disconnect p), out, w'⟩]) w' r' := by
  obtain ⟨⟨o, hnet⟩, hsent, -⟩ := closed_disconnect (threaded_link hs).1
  obtain ⟨t', os, -, hw⟩ := network_disconnect hnet
  refine sound_of hmp h hs (fun q ch d hd => .inl ?_) (fun q ch d hd => .inl ?_) fun q hconn => ?_
  · rw [hsent] at hd
    exact (mem_cleared hd).2
  · rw [hw] at hd
    exact (mem_cleared hd).2
  · rw [hw] at hconn
    by_cases hqp : q = p
    · subst hqp
      simp only [Function.update_self] at hconn
      cases hconn
    · simp only [Function.update_of_ne hqp] at hconn
      exact ⟨by simpa using Ne.symm hqp, .inl ⟨hconn, link_same hs rfl (by rw [hw])⟩⟩

theorem sound_drop (hmp : mp.Lawful) (h : Sound mp tr w r) {p : P} {i : Nat}
    (hs : (threaded mp).step w (.link (.drop p ch i)) = some (w', out)) :
    ∃ r', Sound mp (tr ++ [⟨w, .link (.drop p ch i), out, w'⟩]) w' r' := by
  obtain ⟨⟨o, hnet⟩, hsent, -⟩ := closed_drop (threaded_link hs).1
  obtain ⟨-, hw⟩ := network_drop hnet
  refine sound_of hmp h hs (fun q ch' d hd => .inl (hsent ▸ hd)) (fun q ch' d hd => .inl ?_)
    fun q hconn => ⟨by simp, .inl ⟨by rw [hw] at hconn; exact hconn, link_same hs rfl (by rw [hw])⟩⟩
  rw [hw] at hd
  exact mem_removed hd

theorem sound_deliver (hmp : mp.Lawful) (h : Sound mp tr w r) {p : P} {i : Nat} {env : ClientEnv}
    (hs : (threaded mp).step w (.deliver p ch i env) = some (w', out)) :
    ∃ r', Sound mp (tr ++ [⟨w, .deliver p ch i env, out, w'⟩]) w' r' := by
  obtain ⟨d, s, pc, hd, hreceive, -, hconnected, hsent, hflight, -, hclient, -⟩ :=
    threaded_deliver hs
  obtain ⟨hcarried, hbacked⟩ := h.flight p ch d (List.mem_of_getElem? hd)
  refine sound_of hmp h hs (fun q ch' d' hd' => .inl (hsent ▸ hd')) (fun q ch' d' hd' => .inl ?_)
    fun q hconn => ⟨by simp, ?_⟩
  · rw [hflight] at hd'
    exact mem_removed hd'
  · rw [hconnected] at hconn
    rw [hclient]
    by_cases hqp : q = p
    · subst hqp
      rw [Function.update_self]
      exact .inr (accounted_snoc
        (accounted_receive hmp (h.clients q hconn) hcarried hbacked hreceive) _ fun i m hi => hi)
    · exact .inl ⟨hconn, Function.update_of_ne hqp _ _⟩

/-- What a section of a call sends is backed. -/
theorem section_backed (h : Sound mp tr w r) {p : P} (hconn : w.closed.net.connected p = true)
    {env : ClientEnv} {θ : Thread} {g : Shared} {q : TickPc} {os : List ClientOutput}
    (hs : tickSection mp env (w.client p).shared ((w.client p).tick θ) = some (g, q, os))
    (hd : d ∈ os.filterMap (leaves ch)) :
    Made mp ch d ∧ Backed mp
      (tr ++ [⟨w, .thread p (.tickSection env θ), os.map (.client p), w'⟩]) ch d := by
  obtain ⟨o, ho, hleaves⟩ := List.mem_filterMap.mp hd
  rcases accounted_sends (h.clients p hconn) (fun ui => h.informed.info p ui hconn) hs hd with
    ⟨rfl, hseat, gs, rfl, hadds⟩ | ⟨rfl, i, v, rfl, x, hx, htyped⟩
  · exact ⟨⟨gs, rfl⟩, gs, rfl, _, List.mem_append_right _ List.mem_cons_self, p,
      ⟨(sim_seat h.informed.sim).mp hseat, o, List.mem_map_of_mem ho, hleaves⟩,
      addsUp_mono hadds (fun _ _ => source_mono (List.subset_append_left _ _))
        (writes_le_snoc p _)⟩
  · exact ⟨⟨_, rfl⟩, i, v, rfl, x, List.mem_append_left _ hx, htyped⟩

/-- **A step of a thread** leaves its client accounted for, and sends what is backed. -/
theorem thread_accounted (h : Sound mp tr w r) {p : P} {e : ClientEvent} {m : ClientState}
    {os : List ClientOutput} (hno : ∀ env d, e ≠ .receive env d)
    (hs : clientStep mp (w.client p) e = some (m, os)) (hconn : w.closed.net.connected p = true) :
    Accounted (tr ++ [⟨w, .thread p e, os.map (.client p), w'⟩]) r.seat
        (writes p (tr ++ [⟨w, .thread p e, os.map (.client p), w'⟩])) p m ∧
      ∀ ch, ∀ d ∈ os.filterMap (leaves ch),
        Made mp ch d ∧ Backed mp (tr ++ [⟨w, .thread p e, os.map (.client p), w'⟩]) ch d := by
  have hinfo : ∀ ui, (w.client p).shared.myUserInfo = some ui → SeatedAs r.seat p ui := fun ui =>
    h.informed.info p ui hconn
  have hold := accounted_snoc (h.clients p hconn) ⟨w, .thread p e, os.map (.client p), w'⟩
    fun i b hi => hi
  cases e with
  | receive env d => exact absurd rfl (hno env d)
  | netSection env =>
    obtain ⟨⟨g, pc⟩, hsection, heq⟩ := Option.map_eq_some_iff.mp hs
    cases heq
    exact ⟨accounted_netSection hold hsection, fun ch d hd => absurd hd List.not_mem_nil⟩
  | call θ c =>
    simp only [clientStep] at hs
    split_ifs at hs
    cases hs
    refine ⟨accounted_call hold hinfo (List.mem_append_right _ List.mem_cons_self) fun i b hi =>
      ⟨p, θ, c, (sim_seat h.informed.sim).mp hi, rfl, rfl⟩, fun ch d hd => ?_⟩
    -- a call that starts only returns
    obtain ⟨o, ho, hleaves⟩ := List.mem_filterMap.mp hd
    unfold startTick at ho
    split at ho
    · obtain rfl := List.mem_singleton.mp ho
      cases hleaves
    · exact absurd ho List.not_mem_nil
  | tickSection env θ =>
    obtain ⟨⟨g, pc, o⟩, hsection, heq⟩ := Option.map_eq_some_iff.mp hs
    cases heq
    refine ⟨?_, fun ch d hd => section_backed h hconn hsection hd⟩
    have hnew := accounted_tickSection (h.clients p hconn) hsection
    rw [writes_snoc]
    simp only [sectionOf, if_true, Option.any_some]
    exact accounted_mono hnew (List.subset_append_left _ _) le_rfl fun i b hi => hi

theorem sound_thread (hmp : mp.Lawful) (h : Sound mp tr w r) {p : P} {e : ClientEvent}
    (hs : (threaded mp).step w (.thread p e) = some (w', out)) :
    ∃ r', Sound mp (tr ++ [⟨w, .thread p e, out, w'⟩]) w' r' := by
  obtain ⟨hno, m, os, hstep, hnet, hsent, hclient, rfl⟩ := threaded_thread hs
  refine sound_of hmp h hs (fun q ch d hd => ?_)
    (fun q ch d hd => .inl (by rw [hnet] at hd; exact hd)) fun q hconn => ⟨by simp, ?_⟩
  · rw [hsent] at hd
    refine (mem_launchFrom hd).imp_right ?_
    rintro ⟨rfl, hconn, hnew⟩
    exact (thread_accounted h hno hstep hconn).2 ch d hnew
  · rw [hnet] at hconn
    rw [hclient]
    by_cases hqp : q = p
    · subst hqp
      rw [Function.update_self]
      exact .inr (thread_accounted h hno hstep hconn).1
    · exact .inl ⟨hconn, Function.update_of_ne hqp _ _⟩

/-- **Every event keeps it so.** -/
theorem sound_step (hmp : mp.Lawful) (h : Sound mp tr w r)
    (hs : (threaded mp).step w e = some (w', out)) (hreads : ThreadedReads ⟨w, e, out, w'⟩) :
    ∃ r', Sound mp (tr ++ [⟨w, e, out, w'⟩]) w' r' := by
  cases e with
  | link e =>
    cases e with
    | connect p => exact sound_connect hmp h hs
    | request p env => exact sound_request hmp h hs
    | arrive p ch i env => exact sound_arrive hmp h (hreads.1 p ch i env rfl) hs
    | lose p ch i => exact sound_lose hmp h hs
    | disconnect p => exact sound_disconnect hmp h hs
    | drop p ch i => exact sound_drop hmp h hs
  | deliver p ch i env => exact sound_deliver hmp h hs
  | thread p e => exact sound_thread hmp h hs

/-- **Over every run.** -/
theorem sound_run (hmp : mp.Lawful) (hr : Run (threaded mp) .init tr w)
    (hreads : ∀ x ∈ tr, ThreadedReads x) : ∃ r, Sound mp tr w r := by
  refine hr.trace (I := fun tr w => (∀ x ∈ tr, ThreadedReads x) → ∃ r, Sound mp tr w r) ?_
    (fun _ => ⟨_, sound_init⟩) hreads
  intro tr w e w' out ih hs hreads
  obtain ⟨r, h⟩ := ih fun x hx => hreads x (List.mem_append_left _ hx)
  exact sound_step hmp h hs (hreads _ (List.mem_append_right _ List.mem_cons_self))

/-! ## The screens -/

/-- What a client prints, it prints of a packet that is delivered to it. -/
theorem threaded_printed {q : P} {s : Printed} (hs : (threaded mp).step w e = some (w', out))
    (ho : .printed q s ∈ out) : ∃ ch i env d, e = .deliver q ch i env ∧
      (w.closed.net.flight q ch)[i]? = some d ∧
      printGameState mp env (w.closed.net.client q) d = some s := by
  cases e with
  | link e =>
    obtain ⟨ch, i, env, d, he, -⟩ := closed_printed_output (threaded_link hs).1 ho
    cases e <;> cases he
  | deliver p ch i env =>
    obtain ⟨d, s', pc, hd, -, -, -, -, -, -, -, rfl⟩ := threaded_deliver hs
    obtain ⟨s'', hprint, heq⟩ := Option.map_eq_some_iff.mp (Option.mem_toList.mp ho)
    cases heq
    exact ⟨ch, i, env, d, rfl, hd, hprint⟩
  | thread p e =>
    obtain ⟨-, m, os, -, -, -, -, rfl⟩ := threaded_thread hs
    obtain ⟨o, -, heq⟩ := List.mem_map.mp ho
    cases heq

/-- **What the screens show.** In every run of the closed system from the start (where a new
connection belongs to a client that has just started), however the threads of the clients
interleave: every state a client prints has been sent by the active master of its time, and the
position of each player in it is a sum, as `int32_t` adds, of inputs that have been typed at the
client then connected in that player's slot (the master's own in slot 0), of no more terms than
states have been written back at the sender's peer. An input a master holds over several ticks counts
in each of them, an update may be lost, but no term is one that nobody has typed. -/
theorem screens_addUp (hmp : mp.Lawful) (hr : Run (threaded mp) .init tr w)
    (hreads : ∀ x ∈ tr, ThreadedReads x) {t₁ t₂ : List (ThreadedMove P)} {x : ThreadedMove P}
    (htr : tr = t₁ ++ x :: t₂) {q : P} {s : Printed} (hs : .printed q s ∈ x.out) :
    Shown mp t₁ s.gameState := by
  subst htr
  obtain ⟨hr₁, hstep, -⟩ := hr.split
  obtain ⟨r, h⟩ := sound_run hmp hr₁ fun y hy => hreads y (List.mem_append_left _ hy)
  obtain ⟨ch, i, env, d, he, hd, hprint⟩ := threaded_printed hstep hs
  obtain ⟨hcarried, hbacked⟩ := h.flight q ch d (List.mem_of_getElem? hd)
  obtain ⟨rfl, rfl⟩ := carried_printed hmp hcarried
    ((hreads x (List.mem_append_right _ List.mem_cons_self)).2 q ch i env he) hprint
  obtain ⟨gs, hgs, hshown⟩ := hbacked
  exact statePacket_injective hmp hgs ▸ hshown

/-- The session, thread by thread: the input of the slave reaches the master between two sections of
its tick. -/
def threadedSession : List (ThreadedEvent Nat) :=
  [.link (.connect 1), .link (.request 1 .ideal), .link (.arrive 1 .critical 0 .ideal),
    .deliver 1 .critical 0 .ideal, .thread 1 (.netSection .ideal), .thread 1 (.netSection .ideal),
    .link (.connect 2), .link (.request 2 .ideal), .link (.arrive 2 .critical 0 .ideal),
    .deliver 2 .critical 0 .ideal, .deliver 1 .critical 0 .ideal,
    .thread 2 (.call .main ⟨0, ⟨1, 0⟩⟩), .thread 2 (.tickSection .ideal .main),
    .link (.arrive 2 .streamPuppetInputs 0 .ideal),
    .thread 1 (.call .tickLoop ⟨0, ⟨0, -1⟩⟩), .thread 1 (.tickSection .ideal .tickLoop),
    .deliver 1 .streamPuppetInputs 0 .ideal, .thread 1 (.tickSection .ideal .tickLoop),
    .thread 1 (.tickSection .ideal .tickLoop), .thread 1 (.tickSection .ideal .tickLoop),
    .link (.arrive 1 .stream 0 .ideal), .deliver 2 .stream 0 .ideal]

/-- Ideal decoders read the buffers they get. -/
theorem threadedSession_reads {tr : List (ThreadedMove Nat)}
    (hev : tr.map Step.event = threadedSession) : ∀ x ∈ tr, ThreadedReads x := by
  intro x hx
  have hmem := List.mem_map_of_mem (f := Step.event) hx
  rw [hev] at hmem
  constructor
  · intro p ch i env he
    rw [he] at hmem
    simp only [threadedSession, List.mem_cons, ThreadedEvent.link.injEq, LinkEvent.arrive.injEq,
      List.not_mem_nil, reduceCtorEq, false_or, or_false] at hmem
    rcases hmem with ⟨-, -, -, rfl⟩ | ⟨-, -, -, rfl⟩ | ⟨-, -, -, rfl⟩ | ⟨-, -, -, rfl⟩ <;>
      exact ⟨_, _, rfl⟩
  · intro p ch i env he
    rw [he] at hmem
    simp only [threadedSession, List.mem_cons, ThreadedEvent.deliver.injEq, List.not_mem_nil,
      reduceCtorEq, false_or, or_false] at hmem
    rcases hmem with ⟨-, -, -, rfl⟩ | ⟨-, -, -, rfl⟩ | ⟨-, -, -, rfl⟩ | ⟨-, -, -, rfl⟩ |
      ⟨-, -, -, rfl⟩ <;> exact ⟨_, _, rfl⟩

/-- The slave of the session is shown where it has moved itself. -/
theorem screens_addUp_session : ∃ tr, ∃ w : Threaded Nat, Run (threaded reference) .init tr w ∧
    ∃ t₁ x t₂, tr = t₁ ++ x :: t₂ ∧
      Shown reference t₁ ⟨0, ⟨true, 0, -1⟩, ⟨true, 1, 0⟩, .zero, .zero⟩ := by
  obtain ⟨tr, w, hr, hev, hQ⟩ := run_of_exec (threaded reference) .init threadedSession
    (fun tr _ => tr.any fun x => decide
      (⟨0, ⟨true, 0, -1⟩, ⟨true, 1, 0⟩, .zero, .zero⟩ ∈ x.out.filterMap (printedBy 2)))
    (by decide +kernel)
  obtain ⟨x, hx, hprinted⟩ := List.any_eq_true.mp hQ
  obtain ⟨s, hs, hmem⟩ := mem_printedBy (of_decide_eq_true hprinted)
  obtain ⟨t₁, t₂, htr⟩ := List.append_of_mem hx
  exact ⟨tr, w, hr, t₁, x, t₂, htr,
    hs ▸ screens_addUp reference_lawful hr (threadedSession_reads hev) htr hmem⟩

end MasterRelay.Game
