import MasterRelay.Client.Atomic
import MasterRelay.Game.World
import MasterRelay.Server.Identity
import MasterRelay.Server.Leader

/-!
# The server and all its clients

The server, and a client at every peer that is connected. What the server sends to a peer is under
way, channel by channel, until it is delivered or lost. The critical channel is reliable: its
packets are delivered in the order they were sent, and none is lost; on the others packets overtake
each other and get lost. Clients are the ones of `Client/Atomic.lean`: each packet and each call of
`try_execute_tick` is handled as a whole. What reaches the server is left open: a connected peer
sends any bytes at any time.

A peer that connects brings a client that has just started: a process that connects a second time
would keep its globals, and is not in the model. A disconnect discards what is under way to the
peer.

* `receive_tells`: all a packet can put on the critical channels, where sending succeeds: nothing,
  or the answer to a new player and, for a slave, the announcement to the master.
* `network_connect`, `network_receive`, `network_disconnect`, `network_deliver`, `network_drop`,
  `network_tick`: what each event does.
-/

namespace MasterRelay.Game

open MasterRelay.Client
open MasterRelay.Lib.MsgPack
open MasterRelay.Lib.Runs
open MasterRelay.Protocol
open MasterRelay.Server

/-- The registry, who is connected, the packets under way to each peer, and the clients. -/
structure Network (P : Type) where
  table : Table P
  connected : P → Bool
  flight : P → ChannelId → List Bytes
  client : P → Shared

/-- An event of the server, the fate of a packet, or a call of `try_execute_tick`. -/
inductive NetworkEvent (P : Type) where
  | connect (p : P)
  | receive (env : Env P) (p : P) (data : Bytes)
  | disconnect (p : P)
  | deliver (p : P) (ch : ChannelId) (i : Nat) (env : ClientEnv)
  | drop (p : P) (ch : ChannelId) (i : Nat)
  | tick (p : P) (env : ClientEnv) (c : TickCall)

variable {P : Type}

/-- A client that has just started. -/
def freshClient : Shared := ⟨none, none, none⟩

/-- Nobody is connected. -/
def Network.init : Network P := ⟨initTable, fun _ => false, fun _ _ => [], fun _ => freshClient⟩

variable [DecidableEq P]

/-- The packets under way after the server has sent `out`: those to a peer that is not connected go
nowhere. -/
def launchAll (connected : P → Bool) (out : List (Output P)) (flight : P → ChannelId → List Bytes) :
    P → ChannelId → List Bytes :=
  fun p => if connected p then launch p out (flight p) else flight p

/-- One event. A new connection brings a client that has just started. -/
def networkStep (mp : Msgpack) (w : Network P) :
    NetworkEvent P → Option (Network P × List ClientOutput)
  | .connect p =>
    if w.connected p then none
    else (serverStep mp w.table (.connect p)).map fun r =>
      (⟨r.1, Function.update w.connected p true, Function.update w.flight p fun _ => [],
        Function.update w.client p freshClient⟩, [])
  | .receive env p data =>
    if w.connected p then
      (serverStep mp w.table (.receive env p data)).map fun r =>
        ({ w with table := r.1, flight := launchAll w.connected r.2 w.flight }, [])
    else none
  | .disconnect p =>
    if w.connected p then
      (serverStep mp w.table (.disconnect p)).map fun r =>
        ({ w with table := r.1, connected := Function.update w.connected p false,
                  flight := Function.update w.flight p fun _ => [] }, [])
    else none
  | .deliver p ch i env =>
    -- the critical channel keeps its order
    if ch = .critical ∧ i ≠ 0 then none
    else
      match (w.flight p ch)[i]? with
      | none => none
      | some data => (handleReceive mp env (w.client p) data).map fun s =>
        ({ w with flight := Function.update w.flight p (remove ch i (w.flight p)),
                  client := Function.update w.client p s }, [])
  | .drop p ch i =>
    -- and loses nothing
    if ch = .critical then none
    else some ({ w with flight := Function.update w.flight p (remove ch i (w.flight p)) }, [])
  | .tick p env c => (tryExecuteTick mp env (w.client p) c).map fun r =>
      ({ w with client := Function.update w.client p r.1 }, r.2)

/-- **The server and all its clients**, each connection with a client of its own that has just
started. -/
def network (mp : Msgpack) : System (Network P) (NetworkEvent P) ClientOutput := ⟨networkStep mp⟩

/-- The answer to the player in slot `i`. -/
def answer (mp : Msgpack) (i : Slot) (isMaster : Bool) : Bytes :=
  frame .resUserInfo (some (userInfoBytes mp ⟨UInt32.ofNat i, isMaster⟩))

/-- What the master is told about the slave in slot `i`. -/
def announcement (mp : Msgpack) (i : Slot) : Bytes :=
  frame .slaveConnected (some (userInfoBytes mp ⟨UInt32.ofNat i, false⟩))

/-- Where the server handles a packet, its allocations succeed, and connected peers take what tells
them about players. -/
def SendsSucceed (mp : Msgpack) (x : Step (Network P) (NetworkEvent P) ClientOutput) : Prop :=
  ∀ env p data, x.event = .receive env p data → env.Allocates ∧
    ∀ q, x.pre.connected q = true → ∀ i m, env.Accepts q .critical (answer mp i m).length ∧
      env.Accepts q .critical (announcement mp i).length

variable {mp : Msgpack} {w w' : Network P} {out : List ClientOutput}

/-! ## What the server tells -/

omit [DecidableEq P] in
/-- All that is sent after a registration. -/
theorem announce_sent {env : Env P} {t : Table P} {p : P} {i : Slot} (henv : env.Allocates)
    (hp : ∀ m, env.Accepts p .critical (answer mp i m).length) :
    (announce mp env t p i true = [.send p .critical (answer mp i true) true true]) ∧
      (∀ err, tryGetMasterClient t = .error err →
        announce mp env t p i false = [.send p .critical (answer mp i false) true true]) ∧
      ∀ j q, tryGetMasterClient t = .ok j → (t j).peer = some q →
        env.Accepts q .critical (announcement mp i).length →
        announce mp env t p i false = [.send p .critical (answer mp i false) true true,
          .send q .critical (announcement mp i) true true] := by
  have hpack : ∀ m, packed env (ifbTryPackUserInfo mp ⟨UInt32.ofNat i, m⟩) =
      .ok (userInfoBytes mp ⟨UInt32.ofNat i, m⟩) := fun m =>
    packed_of_allocates henv (emits_userInfo _)
  have hanswer : ∀ m, ifbPtclTrySendMsgPacket env .resUserInfo .critical
      (some (userInfoBytes mp ⟨UInt32.ofNat i, m⟩)) (some p) true true =
        .ok (.send p .critical (answer mp i m) true true) := fun m =>
    trySend_of_accepts true true rfl henv (hp m)
  refine ⟨?_, fun err hnone => ?_, fun j q hmaster hq haccepts => ?_⟩
  · simp only [announce, hpack, hanswer, if_true]
  · simp only [announce, hpack, hanswer, hnone, Bool.false_eq_true, if_false]
  · have htold := trySend_of_accepts true true (t := .slaveConnected) rfl henv haccepts
    simp only [announce, hpack, hanswer, hmaster, hq, htold, Bool.false_eq_true, if_false]
    rfl

theorem arrives_send {q p : P} {ch c : ChannelId} {data : Bytes} {reliable forced : Bool} :
    arrives q ch (.send p c data reliable forced) =
      if p = q ∧ c = ch then some data else none := rfl

/-- Whose `SLAVE_CONNECTED` packets go to `q`: those of the slaves that register while `q` is the
master, which sits in slot 0. -/
def tellsMaster (mp : Msgpack) (s : Seats activePlayersSize P) (i : Slot) (q : P) : List Bytes :=
  if s masterSlot = some ⟨q, true⟩ then [announcement mp i] else []

/-- **`p` registers in slot `i`**, and `os` tells it and a master. -/
structure Registers (mp : Msgpack) (r r' : ServerRoster P) (p : P) (i : Slot)
    (os : List (Output P)) : Prop where
  new : ∀ j, r.seat.peerAt j ≠ some p
  free : r.seat.free = some i
  join : r'.seat = Function.update r.seat i (some ⟨p, r.seat.vacant⟩)
  answered : os.filterMap (arrives p .critical) = [answer mp i r.seat.vacant]
  told : ∀ q, q ≠ p → os.filterMap (arrives q .critical) = tellsMaster mp r.seat i q

section Registers

variable {r r' : ServerRoster P} {p q : P} {i : Slot} {os : List (Output P)}
  (h : Registers mp r r' p i os)

include h

/-- The seats that were taken are kept. -/
theorem Registers.kept {j : Slot} {x : Seat P} (hj : r.seat j = some x) :
    r'.seat j = some x ∧ j ≠ i := by
  have hji : j ≠ i := by
    rintro rfl
    exact absurd ((free_eq_some h.free).1.symm.trans hj) (by simp)
  exact ⟨by rw [h.join, Function.update_of_ne hji, hj], hji⟩

/-- The master is the new player, where nobody was there, or was it before. -/
theorem Registers.master (hq : r'.seat masterSlot = some ⟨q, true⟩) :
    (q = p ∧ masterSlot = i ∧ r.seat.vacant = true) ∨
      r.seat masterSlot = some ⟨q, true⟩ ∧ q ≠ p := by
  rw [h.join] at hq
  by_cases hmi : masterSlot = i
  · rw [hmi, Function.update_self] at hq
    obtain ⟨hpq, hvac⟩ : p = q ∧ r.seat.vacant = true := by simpa using hq
    exact .inl ⟨hpq.symm, hmi, hvac⟩
  · rw [Function.update_of_ne hmi] at hq
    refine .inr ⟨hq, ?_⟩
    rintro rfl
    exact h.new masterSlot (peerAt_some.mpr ⟨true, hq⟩)

end Registers

/-- The registration of a slave. -/
theorem slave_tells {t' : Table P} {r r' : ServerRoster P} (hsim' : Sim t' r') {env : Env P} {p : P}
    {i : Slot} (hnew : ∀ j, r.seat.peerAt j ≠ some p)
    (hjoin : r'.seat = Function.update r.seat i (some ⟨p, false⟩)) (hfree : r.seat i = none)
    (henv : env.Allocates) (hp : ∀ i m, env.Accepts p .critical (answer mp i m).length)
    (hmaster : ∀ q, r.seat masterSlot = some ⟨q, true⟩ →
      env.Accepts q .critical (announcement mp i).length) :
    (announce mp env t' p i false).filterMap (arrives p .critical) = [answer mp i false] ∧
      ∀ q, q ≠ p → (announce mp env t' p i false).filterMap (arrives q .critical) =
        tellsMaster mp r.seat i q := by
  obtain ⟨-, hnobody, hsomebody⟩ := announce_sent (t := t') henv (hp i)
  cases hget : tryGetMasterClient t' with
  | ok j =>
    -- the master was there before
    have hlead : r'.seat.masterAt j = true := by
      have hj := (tryGetMasterClient_ok hsim'.proper).mp hget
      rwa [← hsim'.same, r'.leader_eq_some] at hj
    obtain rfl : j = masterSlot := Fin.ext (r'.leads j hlead)
    obtain ⟨q₀, hq₀⟩ := masterAt_iff.mp hlead
    have hi : masterSlot ≠ i := by
      rintro rfl
      rw [hjoin, Function.update_self] at hq₀
      cases hq₀
    have hseat : r.seat masterSlot = some ⟨q₀, true⟩ := by
      rwa [hjoin, Function.update_of_ne hi] at hq₀
    have hne : q₀ ≠ p := fun he => hnew masterSlot (peerAt_some.mpr ⟨true, he ▸ hseat⟩)
    rw [hsomebody _ q₀ hget ((sim_seat hsim').mp hq₀).2.1 (hmaster q₀ hseat)]
    refine ⟨by simp [arrives_send, hne], fun q hq => ?_⟩
    unfold tellsMaster
    by_cases hqq : q₀ = q
    · subst hqq
      rw [if_pos hseat]
      simp [arrives_send, Ne.symm hq]
    · have hother : r.seat masterSlot ≠ some ⟨q, true⟩ := by
        rw [hseat]
        simpa using hqq
      rw [if_neg hother]
      simp [arrives_send, Ne.symm hq, hqq]
  | error err =>
    rw [hnobody err hget]
    refine ⟨by simp [arrives_send], fun q hq => ?_⟩
    have hnone : r.seat masterSlot ≠ some ⟨q, true⟩ := by
      intro hseat
      have hi : masterSlot ≠ i := by
        rintro rfl
        exact absurd (hfree.symm.trans hseat) (by simp)
      have hseat' : r'.seat masterSlot = some ⟨q, true⟩ := by
        rw [hjoin, Function.update_of_ne hi, hseat]
      have hget' : tryGetMasterClient t' = .ok masterSlot := by
        rw [tryGetMasterClient_ok hsim'.proper, ← hsim'.same, r'.leader_eq_some]
        exact masterAt_iff.mpr ⟨q, hseat'⟩
      exact absurd (hget.symm.trans hget') (by simp)
    rw [tellsMaster, if_neg hnone]
    simp [arrives_send, Ne.symm hq]

/-- **All a packet can put on the critical channels**: nothing; or it registers its sender, whom the
server answers, and a master is told about a slave. -/
theorem receive_tells {t t' : Table P} {r : ServerRoster P} (hsim : Sim t r) {env : Env P} {p : P}
    {data : Bytes} {os : List (Output P)}
    (hs : (server mp).step t (.receive env p data) = some (t', os)) (henv : env.Allocates)
    (haccepts : ∀ q, q = p ∨ r.seat masterSlot = some ⟨q, true⟩ → ∀ i m,
      env.Accepts q .critical (answer mp i m).length ∧
        env.Accepts q .critical (announcement mp i).length) :
    (t' = t ∧ ∀ q, os.filterMap (arrives q .critical) = []) ∨
      ∃ i r', Sim t' r' ∧ Registers mp r r' p i os := by
  rcases onReceive_cases hs with ⟨hreq, hreg⟩ | ⟨-, rfl, rfl | ⟨payload, gs, -, -, rfl⟩ |
    ⟨payload, master, q, -, -, -, rfl⟩⟩
  · have hsim' := sim_step hsim hs
    rw [rosterStep, if_pos hreq] at hsim'
    rcases handlePlayerRegister_cases hreg with ⟨-, rfl, rfl⟩ | ⟨i, m, hact, hfree, hm, ht', rfl⟩
    · exact .inl ⟨rfl, fun q => rfl⟩
    · rw [firstSlot_freeTest hsim.proper, ← hsim.same] at hfree
      have hnew : ∀ j, r.seat.peerAt j ≠ some p := by
        intro j hj
        rw [hsim.same] at hj
        exact absurd ((isPlayerActive_iff hsim.proper p).mpr ⟨j, hj⟩) (by simp [hact])
      rw [count_eq_zero hsim.proper, ← hsim.same] at hm
      have hjoin : (r.join p).seat = Function.update r.seat i (some ⟨p, r.seat.vacant⟩) := by
        rw [hsim'.same, ht', seats_register, hm, hsim.same]
      have htells : (announce mp env t' p i m).filterMap (arrives p .critical) =
          [answer mp i r.seat.vacant] ∧ ∀ q, q ≠ p →
            (announce mp env t' p i m).filterMap (arrives q .critical) =
              tellsMaster mp r.seat i q := by
        rw [hm]
        by_cases hvac : r.seat.vacant = true
        · -- nobody is there, not even a master
          rw [hvac, (announce_sent henv fun m => (haccepts p (.inl rfl) i m).1).1]
          refine ⟨by simp [arrives_send], fun q hq => ?_⟩
          rw [tellsMaster, vacant_iff.mp hvac, if_neg (by simp)]
          simp [arrives_send, Ne.symm hq]
        · rw [Bool.not_eq_true] at hvac
          rw [hvac] at hjoin ⊢
          exact slave_tells hsim' hnew hjoin (free_eq_some hfree).1 henv
            (fun i m => (haccepts p (.inl rfl) i m).1) fun q hq => (haccepts q (.inr hq) i true).2
      exact .inr ⟨i, r.join p, hsim', hnew, hfree, hjoin, htells.1, htells.2⟩
  · exact .inl ⟨rfl, fun q => rfl⟩
  · exact .inl ⟨rfl, fun q => rfl⟩
  · exact .inl ⟨rfl, fun q' => by simp [arrives_send]⟩

/-! ## What each event does -/

theorem network_connect {p : P} (hs : (network mp).step w (.connect p) = some (w', out)) :
    w.connected p = false ∧ w' = ⟨w.table, Function.update w.connected p true,
      Function.update w.flight p fun _ => [], Function.update w.client p freshClient⟩ := by
  simp only [network, networkStep] at hs
  split_ifs at hs with hconn
  cases hs
  exact ⟨Bool.eq_false_iff.mpr hconn, rfl⟩

theorem network_receive {env : Env P} {p : P} {data : Bytes}
    (hs : (network mp).step w (.receive env p data) = some (w', out)) :
    w.connected p = true ∧ ∃ t' os, (server mp).step w.table (.receive env p data) = some (t', os) ∧
      w' = { w with table := t', flight := launchAll w.connected os w.flight } := by
  simp only [network, networkStep] at hs
  split_ifs at hs with hconn
  obtain ⟨⟨t', os⟩, hserver, heq⟩ := Option.map_eq_some_iff.mp hs
  cases heq
  exact ⟨hconn, t', os, hserver, rfl⟩

theorem network_disconnect {p : P} (hs : (network mp).step w (.disconnect p) = some (w', out)) :
    ∃ t' os, (server mp).step w.table (.disconnect p) = some (t', os) ∧
      w' = { w with table := t', connected := Function.update w.connected p false,
                    flight := Function.update w.flight p fun _ => [] } := by
  simp only [network, networkStep] at hs
  split_ifs at hs with hconn
  obtain ⟨⟨t', os⟩, hserver, heq⟩ := Option.map_eq_some_iff.mp hs
  cases heq
  exact ⟨t', os, hserver, rfl⟩

theorem network_deliver {p : P} {ch : ChannelId} {i : Nat} {env : ClientEnv}
    (hs : (network mp).step w (.deliver p ch i env) = some (w', out)) :
    (ch = .critical → i = 0) ∧ ∃ d s, (w.flight p ch)[i]? = some d ∧
      handleReceive mp env (w.client p) d = some s ∧
      w' = { w with flight := Function.update w.flight p (remove ch i (w.flight p)),
                    client := Function.update w.client p s } := by
  simp only [network, networkStep] at hs
  split_ifs at hs with horder
  split at hs
  · cases hs
  · rename_i d hd
    obtain ⟨s, hreceive, heq⟩ := Option.map_eq_some_iff.mp hs
    cases heq
    refine ⟨fun hch => ?_, d, s, hd, hreceive, rfl⟩
    by_contra hi
    exact horder ⟨hch, hi⟩

theorem network_drop {p : P} {ch : ChannelId} {i : Nat}
    (hs : (network mp).step w (.drop p ch i) = some (w', out)) :
    ch ≠ .critical ∧
      w' = { w with flight := Function.update w.flight p (remove ch i (w.flight p)) } := by
  simp only [network, networkStep] at hs
  split_ifs at hs with hch
  cases hs
  exact ⟨hch, rfl⟩

theorem network_tick {p : P} {env : ClientEnv} {c : TickCall}
    (hs : (network mp).step w (.tick p env c) = some (w', out)) :
    ∃ s, tryExecuteTick mp env (w.client p) c = some (s, out) ∧
      w' = { w with client := Function.update w.client p s } := by
  obtain ⟨⟨s, out'⟩, htick, heq⟩ := Option.map_eq_some_iff.mp hs
  cases heq
  exact ⟨s, htick, rfl⟩

end MasterRelay.Game
