import MasterRelay.Client.Threads
import MasterRelay.Game.Authority

/-!
# The closed system, thread by thread

`Game/Closed.lean` runs each call of a client in one go. Here the three threads of every client
interleave section by section, as in `Client/Threads.lean`: two ticks of one client overlap, a
packet is handled between the sections of a tick, and an update of the world may be lost. The server
and the packets under way are those of the closed system (`LinkEvent`); what is new is a packet that
is handed to the net thread of a client, and a section of one of its threads.

* `threaded_link`, `threaded_deliver`, `threaded_thread`: all an event does.
* `threaded_informed`: connected clients still are who they take themselves for.
-/

namespace MasterRelay.Game

open MasterRelay.Client
open MasterRelay.Lib.MsgPack
open MasterRelay.Lib.Runs
open MasterRelay.Protocol
open MasterRelay.Server

/-- The closed system, and where the threads of each client stand. The globals of the clients are in
`closed`. -/
structure Threaded (P : Type) where
  closed : Closed P
  netPc : P → NetPc
  tickPc : P → Thread → TickPc

/-- What is no step of a client's threads on their globals. -/
inductive LinkEvent (P : Type) where
  | connect (p : P)
  | request (p : P) (env : ClientEnv)
  | arrive (p : P) (ch : ChannelId) (i : Nat) (env : Env P)
  | lose (p : P) (ch : ChannelId) (i : Nat)
  | disconnect (p : P)
  | drop (p : P) (ch : ChannelId) (i : Nat)

/-- The event of the closed system. -/
def LinkEvent.closed {P : Type} : LinkEvent P → ClosedEvent P
  | .connect p => .connect p
  | .request p env => .request p env
  | .arrive p ch i env => .arrive p ch i env
  | .lose p ch i => .lose p ch i
  | .disconnect p => .disconnect p
  | .drop p ch i => .drop p ch i

/-- An event of the links, a packet for the net thread, or a step of a thread. -/
inductive ThreadedEvent (P : Type) where
  | link (e : LinkEvent P)
  | deliver (p : P) (ch : ChannelId) (i : Nat) (env : ClientEnv)
  | thread (p : P) (e : ClientEvent)

variable {P : Type}

/-- Nobody is connected, and every thread is idle. -/
def Threaded.init : Threaded P := ⟨.init, fun _ => .idle, fun _ _ => .idle⟩

/-- The client at `p`. -/
def Threaded.client (w : Threaded P) (p : P) : ClientState :=
  ⟨w.closed.net.client p, w.netPc p, w.tickPc p⟩

variable [DecidableEq P]

/-- The process at `p` starts anew. -/
def LinkEvent.starts (p : P) : LinkEvent P → Bool
  | .connect q => decide (q = p)
  | .request _ _ => false
  | .arrive _ _ _ _ => false
  | .lose _ _ _ => false
  | .disconnect _ => false
  | .drop _ _ _ => false

/-- The client at `p` after a step of one of its threads. -/
def Threaded.setClient (w : Threaded P) (p : P) (m : ClientState) : Threaded P :=
  ⟨{ w.closed with
      net := { w.closed.net with client := Function.update w.closed.net.client p m.shared } },
    Function.update w.netPc p m.net, Function.update w.tickPc p m.tick⟩

/-- One event. -/
def threadedStep (mp : Msgpack) (w : Threaded P) :
    ThreadedEvent P → Option (Threaded P × List (ClosedOutput P))
  | .link e => (closedStep mp w.closed e.closed).map fun r =>
      (⟨r.1, fun p => if e.starts p then .idle else w.netPc p,
        fun p => if e.starts p then fun _ => .idle else w.tickPc p⟩, r.2)
  | .deliver p ch i env =>
    -- the critical channel keeps its order
    if ch = .critical ∧ i ≠ 0 then none
    else
      match (w.closed.net.flight p ch)[i]? with
      | none => none
      | some data => (clientStep mp (w.client p) (.receive env data)).map fun r =>
        let flight := Function.update w.closed.net.flight p (remove ch i (w.closed.net.flight p))
        (Threaded.setClient
            { w with closed := { w.closed with net := { w.closed.net with flight := flight } } }
            p r.1,
          ((printGameState mp env (w.closed.net.client p) data).map (.printed p)).toList)
  | .thread p e =>
    match e with
    | .receive _ _ => none
    | e => (clientStep mp (w.client p) e).map fun r =>
      (Threaded.setClient { w with closed := { w.closed with sent := launchFrom w.closed p r.2 } }
        p r.1, r.2.map (.client p))

/-- **The closed system, thread by thread**, where every new connection brings a client that has
just started. -/
def threaded (mp : Msgpack) : System (Threaded P) (ThreadedEvent P) (ClosedOutput P) :=
  ⟨threadedStep mp⟩

/-- The steps of the system. -/
abbrev ThreadedMove (P : Type) : Type := Step (Threaded P) (ThreadedEvent P) (ClosedOutput P)

variable {mp : Msgpack} {w w' : Threaded P} {out : List (ClosedOutput P)}

/-! ## What each event does -/

theorem client_setClient (w : Threaded P) (p : P) (m : ClientState) :
    (w.setClient p m).client = Function.update w.client p m := by
  funext q
  by_cases hqp : q = p
  · subst hqp
    simp [Threaded.client, Threaded.setClient]
  · simp [Threaded.client, Threaded.setClient, Function.update_of_ne hqp]

theorem threaded_link {e : LinkEvent P} (hs : (threaded mp).step w (.link e) = some (w', out)) :
    (closed mp).step w.closed e.closed = some (w'.closed, out) ∧
      ∀ p, w'.client p = if e.starts p then ⟨w'.closed.net.client p, .idle, fun _ => .idle⟩
        else ⟨w'.closed.net.client p, w.netPc p, w.tickPc p⟩ := by
  obtain ⟨⟨c, o⟩, hclosed, heq⟩ := Option.map_eq_some_iff.mp hs
  cases heq
  refine ⟨hclosed, fun p => ?_⟩
  simp only [Threaded.client]
  split_ifs <;> rfl

theorem threaded_deliver {p : P} {ch : ChannelId} {i : Nat} {env : ClientEnv}
    (hs : (threaded mp).step w (.deliver p ch i env) = some (w', out)) :
    ∃ d s pc, (w.closed.net.flight p ch)[i]? = some d ∧
      netReceive mp env (w.closed.net.client p) d = some (s, pc) ∧
      w'.closed.net.table = w.closed.net.table ∧
      w'.closed.net.connected = w.closed.net.connected ∧ w'.closed.sent = w.closed.sent ∧
      w'.closed.net.flight =
        Function.update w.closed.net.flight p (remove ch i (w.closed.net.flight p)) ∧
      w'.closed.net.client = Function.update w.closed.net.client p s ∧
      w'.client = Function.update w.client p ⟨s, pc, w.tickPc p⟩ ∧
      out = ((printGameState mp env (w.closed.net.client p) d).map (.printed p)).toList := by
  simp only [threaded, threadedStep] at hs
  split_ifs at hs
  split at hs
  · cases hs
  · rename_i d hd
    obtain ⟨⟨m, o⟩, hclient, heq⟩ := Option.map_eq_some_iff.mp hs
    cases heq
    simp only [clientStep] at hclient
    split_ifs at hclient
    obtain ⟨⟨s, pc⟩, hreceive, heq⟩ := Option.map_eq_some_iff.mp hclient
    cases heq
    exact ⟨d, s, pc, hd, hreceive, rfl, rfl, rfl, rfl, rfl, client_setClient _ p _, rfl⟩

theorem threaded_thread {p : P} {e : ClientEvent}
    (hs : (threaded mp).step w (.thread p e) = some (w', out)) :
    (∀ env d, e ≠ .receive env d) ∧ ∃ m os, clientStep mp (w.client p) e = some (m, os) ∧
      w'.closed.net = { w.closed.net with
        client := Function.update w.closed.net.client p m.shared } ∧
      w'.closed.sent = launchFrom w.closed p os ∧
      w'.client = Function.update w.client p m ∧ out = os.map (.client p) := by
  simp only [threaded, threadedStep] at hs
  split at hs
  · cases hs
  · rename_i hno
    obtain ⟨⟨m, os⟩, hclient, heq⟩ := Option.map_eq_some_iff.mp hs
    cases heq
    exact ⟨hno, m, os, hclient, rfl, rfl, client_setClient _ p _, rfl⟩

/-! ## Who clients take themselves for -/

omit [DecidableEq P] in
/-- Nothing but a packet changes the user info. -/
theorem clientStep_info {m m' : ClientState} {e : ClientEvent} {os : List ClientOutput}
    (h : clientStep mp m e = some (m', os)) (hno : ∀ env d, e ≠ .receive env d) :
    m'.shared.myUserInfo = m.shared.myUserInfo := by
  cases e with
  | receive env d => exact absurd rfl (hno env d)
  | netSection env =>
    obtain ⟨⟨s, pc⟩, hsection, heq⟩ := Option.map_eq_some_iff.mp h
    cases heq
    exact (netSection_inputs hsection).1
  | call θ c =>
    simp only [clientStep] at h
    split_ifs at h
    cases h
    rfl
  | tickSection env θ =>
    obtain ⟨⟨s, pc, o⟩, hsection, heq⟩ := Option.map_eq_some_iff.mp h
    cases heq
    rcases tickSection_cases hsection with ⟨rfl, -⟩ | ⟨c, gs, -, -, rfl, -⟩ |
      ⟨c, gs, inputs, -, -, rfl, -⟩ | ⟨c, gs, old, -, -, rfl, -⟩ <;> rfl

omit [DecidableEq P] in
/-- A packet names the seat, or changes no user info. -/
theorem netReceive_info (hmp : mp.Lawful) {n : Network P} {r : ServerRoster P}
    (h : Informed mp n r) {p : P} {ch : ChannelId} {d : Bytes} (hd : d ∈ n.flight p ch)
    {env : ClientEnv} {s s' : Shared} {pc : NetPc} (hs : netReceive mp env s d = some (s', pc))
    {ui : UserInfo} (hui : s'.myUserInfo = some ui) :
    s.myUserInfo = some ui ∨ SeatedAs r.seat p ui := by
  rcases netReceive_cases hs with ⟨rfl, -⟩ | ⟨payload, vi, hparse, hvi, rfl, -⟩ |
    ⟨payload, vi, -, -, rfl, -⟩ | ⟨payload, pi, k, inputs, -, -, -, -, -, rfl, -⟩
  · exact .inl hui
  · cases hui
    have hrec : received mp env.net.reader d = .userInfo ui := by
      simp only [received, hparse, hvi]
    exact .inr (accepted_seated hmp h hd hrec)
  · exact .inl ((handleOnSlaveConnected_frame vi s).1 ▸ hui)
  · exact .inl hui

/-- **The seats are kept and the peers informed**, whatever the threads do. -/
theorem threaded_informed (hmp : mp.Lawful) {r : ServerRoster P}
    (h : Informed mp w.closed.net r) {e : ThreadedEvent P}
    (hs : (threaded mp).step w e = some (w', out)) :
    ∃ r', Informed mp w'.closed.net r' ∧ ∀ i p m, e ≠ .link (.disconnect p) →
      r.seat i = some ⟨p, m⟩ → r'.seat i = some ⟨p, m⟩ := by
  cases e with
  | link e =>
    obtain ⟨r', hinformed, hkeep⟩ := closed_informed hmp h (threaded_link hs).1
    refine ⟨r', hinformed, fun i p m hstay => hkeep i p m fun he => hstay ?_⟩
    cases e <;> cases he
    rfl
  | deliver p ch i env =>
    obtain ⟨d, s, pc, hd, hreceive, htable, hconn, -, hflight, hclient, -, -⟩ :=
      threaded_deliver hs
    refine ⟨r, ⟨htable ▸ h.sim, fun i q hq => hconn ▸ h.connected i q hq,
      fun q ch' d' hd' => ?_, fun q ui hq hui => ?_⟩, fun i p m _ hi => hi⟩
    · rw [hflight] at hd'
      exact h.mail q ch' d' (mem_removed hd')
    · rw [hconn] at hq
      rw [hclient] at hui
      by_cases hqp : q = p
      · subst hqp
        rw [Function.update_self] at hui
        rcases netReceive_info hmp h (List.mem_of_getElem? hd) hreceive hui with hold | hseat
        · exact h.info q ui hq hold
        · exact hseat
      · rw [Function.update_of_ne hqp] at hui
        exact h.info q ui hq hui
  | thread p e =>
    obtain ⟨hno, m, os, hclient, hnet, -⟩ := threaded_thread hs
    refine ⟨r, ?_, fun i p m _ hi => hi⟩
    rw [hnet]
    refine ⟨h.sim, h.connected, h.mail, fun q ui hq hui => ?_⟩
    by_cases hqp : q = p
    · subst hqp
      simp only [Function.update_self, clientStep_info hclient hno] at hui
      exact h.info q ui hq hui
    · simp only [Function.update_of_ne hqp] at hui
      exact h.info q ui hq hui

end MasterRelay.Game
