import MasterRelay.Game.Authority
import MasterRelay.Lib.Channel

/-!
# The world the clients see

What clients print against what masters send, over every run of the closed system. ENet sequences
the packets of a channel: one that comes after a later one is discarded, so what arrives on the
stream channel is always the head of what is under way (`InSequence`), and packets only get lost.

Three lists of packets: the states clients send, those the server broadcasts, and those one client
prints. From each to the next goes a lossy channel that keeps order (`Lib/Channel.lean`): the stream
channel of the master, which is the only one that carries states, and the one to the client.

* `replicates_step`, `replicates_run`: the two channels over a run (`Replicates`).
* **`replicas_follow`**: what a client prints is a subsequence of what masters have sent.
-/

namespace MasterRelay.Game

open MasterRelay.Client
open MasterRelay.Lib.Channel
open MasterRelay.Lib.MsgPack
open MasterRelay.Lib.Runs
open MasterRelay.Protocol
open MasterRelay.Server

variable {P : Type}

/-- A state leaves a client. -/
def stateSent : ClosedOutput P → Option Bytes
  | .server _ => none
  | .client _ o => leaves .stream o
  | .printed _ _ => none

/-- The server broadcasts. -/
def stateBroadcast : ClosedOutput P → Option Bytes
  | .server (.send _ _ _ _ _) => none
  | .server (.broadcast _ d _ _) => some d
  | .client _ _ => none
  | .printed _ _ => none

/-- The packets of the states that have left clients, in order. -/
def statesSent (tr : List (ClosedMove P)) : List Bytes := (outputs tr).filterMap stateSent

/-- The packets the server has broadcast, in order. -/
def statesBroadcast (tr : List (ClosedMove P)) : List Bytes :=
  (outputs tr).filterMap stateBroadcast

/-- The states that have come off the stream channel: it delivers in sequence. -/
def InSequence (x : ClosedMove P) : Prop :=
  (∀ p i env, x.event = .arrive p .stream i env → i = 0) ∧
    ∀ p i env, x.event = .deliver p .stream i env → i = 0

variable [DecidableEq P]

/-- The states a client has printed, in order. -/
def statesPrinted (p : P) (tr : List (ClosedMove P)) : List GameState :=
  (outputs tr).filterMap (printedBy p)

/-- **From the masters to the server, and from the server to each client.** -/
structure Replicates (mp : Msgpack) (tr : List (ClosedMove P)) (w : Closed P) : Prop where
  up : ∀ p, Delivers (statesBroadcast tr) (w.sent p .stream) (statesSent tr)
  down : ∀ p, Delivers ((statesPrinted p tr).map (statePacket mp)) (w.net.flight p .stream)
    (statesBroadcast tr)

variable {mp : Msgpack} {tr : List (ClosedMove P)} {w w' : Closed P} {r : ServerRoster P}
  {e : ClosedEvent P} {out : List (ClosedOutput P)}

omit [DecidableEq P] in
theorem outputs_snoc (x : ClosedMove P) : outputs (tr ++ [x]) = outputs tr ++ x.out := by
  simp [outputs]

omit [DecidableEq P] in
theorem statesSent_snoc (x : ClosedMove P) :
    statesSent (tr ++ [x]) = statesSent tr ++ x.out.filterMap stateSent := by
  rw [statesSent, outputs_snoc, List.filterMap_append, statesSent]

omit [DecidableEq P] in
theorem statesBroadcast_snoc (x : ClosedMove P) :
    statesBroadcast (tr ++ [x]) = statesBroadcast tr ++ x.out.filterMap stateBroadcast := by
  rw [statesBroadcast, outputs_snoc, List.filterMap_append, statesBroadcast]

theorem statesPrinted_snoc (p : P) (x : ClosedMove P) :
    statesPrinted p (tr ++ [x]) = statesPrinted p tr ++ x.out.filterMap (printedBy p) := by
  rw [statesPrinted, outputs_snoc, List.filterMap_append, statesPrinted]

theorem replicates_init : Replicates mp [] (Closed.init : Closed P) where
  up _ := delivers_nil
  down _ := delivers_nil

/-! ## What each event does to the lists -/

/-- Nothing leaves anybody, and packets only get lost. -/
theorem replicates_quiet (h : Replicates mp tr w)
    (hsent : ∀ p, (w'.sent p .stream).Sublist (w.sent p .stream))
    (hflight : ∀ p, (w'.net.flight p .stream).Sublist (w.net.flight p .stream)) :
    Replicates mp (tr ++ [⟨w, e, [], w'⟩]) w' where
  up p := by
    rw [statesBroadcast_snoc, statesSent_snoc, List.filterMap_nil, List.filterMap_nil,
      List.append_nil, List.append_nil]
    exact (h.up p).lose (hsent p)
  down p := by
    rw [statesBroadcast_snoc, statesPrinted_snoc, List.filterMap_nil, List.filterMap_nil,
      List.append_nil, List.append_nil]
    exact (h.down p).lose (hflight p)

omit [DecidableEq P] in
theorem stateSent_client (p : P) (o : List ClientOutput) :
    (o.map (ClosedOutput.client p)).filterMap stateSent = o.filterMap (leaves .stream) := by
  rw [List.filterMap_map]
  rfl

omit [DecidableEq P] in
theorem stateBroadcast_client (p : P) (o : List ClientOutput) :
    (o.map (ClosedOutput.client p)).filterMap stateBroadcast = [] := by
  rw [List.filterMap_map]
  exact List.filterMap_eq_nil_iff.mpr fun _ _ => rfl

theorem printedBy_client (p q : P) (o : List ClientOutput) :
    (o.map (ClosedOutput.client p)).filterMap (printedBy q) = [] := by
  rw [List.filterMap_map]
  exact List.filterMap_eq_nil_iff.mpr fun _ _ => rfl

/-- A client sends. -/
theorem replicates_client (h : Replicates mp tr w) {p : P} {o : List ClientOutput}
    (hsent : w'.sent = launchFrom w p o) (hflight : w'.net.flight = w.net.flight) :
    Replicates mp (tr ++ [⟨w, e, o.map (.client p), w'⟩]) w' where
  up q := by
    rw [statesBroadcast_snoc, statesSent_snoc, stateBroadcast_client, stateSent_client,
      List.append_nil, hsent, launchFrom]
    split_ifs with hconn
    · by_cases hqp : q = p
      · subst hqp
        rw [Function.update_self]
        exact (h.up q).put _
      · rw [Function.update_of_ne hqp]
        exact (h.up q).skip _
    · exact (h.up q).skip _
  down q := by
    rw [statesBroadcast_snoc, statesPrinted_snoc, stateBroadcast_client, printedBy_client,
      List.append_nil, List.append_nil, hflight]
    exact h.down q

/-- The channels of one peer after a packet is taken out. -/
theorem sublist_removed (f : P → ChannelId → List Bytes) (p q : P) (ch : ChannelId) (i : Nat) :
    (Function.update f p (remove ch i (f p)) q .stream).Sublist (f q .stream) := by
  by_cases hqp : q = p
  · subst hqp
    rw [Function.update_self, remove]
    by_cases hch : .stream = ch
    · subst hch
      rw [Function.update_self]
      exact List.eraseIdx_sublist _ _
    · rw [Function.update_of_ne hch]
  · rw [Function.update_of_ne hqp]

theorem sublist_cleared (f : P → ChannelId → List Bytes) (p q : P) :
    (Function.update f p (fun _ => []) q .stream).Sublist (f q .stream) := by
  by_cases hqp : q = p
  · subst hqp
    rw [Function.update_self]
    exact List.nil_sublist _
  · rw [Function.update_of_ne hqp]

/-- The head of a channel, and what is left of it. -/
theorem removed_head {f : P → ChannelId → List Bytes} {p : P} {d : Bytes}
    (hd : (f p .stream)[0]? = some d) : ∃ rest, f p .stream = d :: rest ∧
      Function.update f p (remove .stream 0 (f p)) p .stream = rest := by
  cases hf : f p .stream with
  | nil => simp [hf] at hd
  | cons d' rest =>
    rw [hf] at hd
    cases hd
    refine ⟨rest, rfl, ?_⟩
    rw [Function.update_self, remove, Function.update_self, hf]
    rfl

omit [DecidableEq P] in
theorem stateSent_server (os : List (Output P)) :
    (os.map ClosedOutput.server).filterMap stateSent = [] := by
  rw [List.filterMap_map]
  exact List.filterMap_eq_nil_iff.mpr fun _ _ => rfl

theorem printedBy_server (p : P) (os : List (Output P)) :
    (os.map ClosedOutput.server).filterMap (printedBy p) = [] := by
  rw [List.filterMap_map]
  exact List.filterMap_eq_nil_iff.mpr fun _ _ => rfl

/-- The server sends nothing on the stream channel. -/
theorem replicates_server (h : Replicates mp tr w) {os : List (Output P)}
    (hos : ∀ o ∈ os, ∃ q c d reliable forced, o = .send q c d reliable forced ∧ c ≠ .stream)
    (hsent : ∀ p, (w'.sent p .stream).Sublist (w.sent p .stream))
    (hflight : w'.net.flight = launchAll w.net.connected os w.net.flight) :
    Replicates mp (tr ++ [⟨w, e, os.map .server, w'⟩]) w' := by
  have hbroadcast : (os.map ClosedOutput.server).filterMap stateBroadcast = [] := by
    refine List.filterMap_eq_nil_iff.mpr fun o ho => ?_
    obtain ⟨o', ho', rfl⟩ := List.mem_map.mp ho
    obtain ⟨q, c, d, reliable, forced, rfl, -⟩ := hos o' ho'
    rfl
  have hstream : ∀ q, launchAll w.net.connected os w.net.flight q .stream =
      w.net.flight q .stream := by
    intro q
    have hnone : os.filterMap (arrives q .stream) = [] := by
      refine List.filterMap_eq_nil_iff.mpr fun o ho => ?_
      obtain ⟨q', c, d, reliable, forced, rfl, hc⟩ := hos o ho
      exact if_neg fun hq => hc hq.2
    dsimp only [launchAll]
    split_ifs
    · rw [launch, hnone, List.append_nil]
    · rfl
  constructor
  · intro p
    rw [statesBroadcast_snoc, statesSent_snoc, hbroadcast, stateSent_server, List.append_nil,
      List.append_nil]
    exact (h.up p).lose (hsent p)
  · intro p
    rw [statesBroadcast_snoc, statesPrinted_snoc, hbroadcast, printedBy_server, List.append_nil,
      List.append_nil, hflight, hstream]
    exact h.down p

/-- **The server broadcasts the oldest state of the master**: nobody else has one under way. -/
theorem replicates_broadcast (hh : Honest mp tr w r) (h : Replicates mp tr w) {p : P} {d : Bytes}
    (hd : (w.sent p .stream)[0]? = some d)
    (hsent : w'.sent = Function.update w.sent p (remove .stream 0 (w.sent p)))
    (hflight : w'.net.flight =
      launchAll w.net.connected [.broadcast .stream d false false] w.net.flight) :
    Replicates mp (tr ++ [⟨w, e, [.server (.broadcast .stream d false false)], w'⟩]) w' := by
  obtain ⟨rest, hqueue, hrest⟩ := removed_head hd
  obtain ⟨gs, -, hseat, -⟩ := hh.sent p .stream d (List.mem_of_getElem? hd)
  have hup := (hqueue ▸ h.up p).take
  constructor
  · intro q
    rw [statesBroadcast_snoc, statesSent_snoc, hsent]
    show Delivers (statesBroadcast tr ++ [d]) _ (statesSent tr ++ [])
    rw [List.append_nil]
    by_cases hqp : q = p
    · subst hqp
      rw [hrest]
      exact hup
    · have hnone : w.sent q .stream = [] := by
        refine List.eq_nil_iff_forall_not_mem.mpr fun d' hd' => ?_
        obtain ⟨gs', -, hseat', -⟩ := hh.sent q .stream d' hd'
        obtain ⟨hpq, -⟩ := Seat.mk.inj (Option.some.inj (hseat.symm.trans hseat'))
        exact hqp hpq.symm
      rw [Function.update_of_ne hqp, hnone]
      exact hup.lose (List.nil_sublist _)
  · intro q
    rw [statesBroadcast_snoc, statesPrinted_snoc, hflight]
    show Delivers ((statesPrinted q tr ++ []).map _) _ (statesBroadcast tr ++ [d])
    rw [List.append_nil]
    dsimp only [launchAll]
    split_ifs
    · exact (h.down q).put [d]
    · exact (h.down q).skip [d]

theorem replicates_arrive (hmp : mp.Lawful) (hh : Honest mp tr w r) (h : Replicates mp tr w) {p : P}
    {ch : ChannelId} {i : Nat} {env : Env P}
    (hrd : ∃ past stale, env.reader = .buffer past stale) (horder : ch = .stream → i = 0)
    (hs : (closed mp).step w (.arrive p ch i env) = some (w', out)) :
    Replicates mp (tr ++ [⟨w, .arrive p ch i env, out, w'⟩]) w' := by
  obtain ⟨-, d, t', os, hd, hserver, -, hw, hsent, rfl⟩ := closed_arrive hs
  have hremoved : ∀ q, (w'.sent q .stream).Sublist (w.sent q .stream) := by
    rw [hsent]
    exact fun q => sublist_removed w.sent p q ch i
  have hflight : w'.net.flight = launchAll w.net.connected os w.net.flight := by rw [hw]
  have hgenuine := hh.sent p ch d (List.mem_of_getElem? hd)
  rcases made_receive hmp (made_of_genuine hgenuine) hrd hserver with
    ⟨rfl, hall⟩ | ⟨rfl, rfl | rfl⟩ | ⟨rfl, rfl | ⟨q, rfl⟩⟩
  · refine replicates_server h (fun o ho => ?_) hremoved hflight
    obtain ⟨q, ty, payload, -, rfl⟩ := hall o ho
    exact ⟨q, _, _, _, _, rfl, by simp⟩
  · exact replicates_server h (by simp) hremoved hflight
  · obtain rfl := horder rfl
    exact replicates_broadcast hh h hd hsent hflight
  · exact replicates_server h (by simp) hremoved hflight
  · refine replicates_server h (fun o ho => ?_) hremoved hflight
    exact ⟨q, _, _, _, _, List.mem_singleton.mp ho, by simp⟩

theorem replicates_deliver (hmp : mp.Lawful) (hh : Honest mp tr w r) (h : Replicates mp tr w)
    {p : P} {ch : ChannelId} {i : Nat} {env : ClientEnv}
    (hrd : ∃ past stale, env.net.reader = .buffer past stale) (horder : ch = .stream → i = 0)
    (hs : (closed mp).step w (.deliver p ch i env) = some (w', out)) :
    Replicates mp (tr ++ [⟨w, .deliver p ch i env, out, w'⟩]) w' := by
  obtain ⟨⟨o, hnet⟩, hsent, hout⟩ := closed_deliver hs
  obtain ⟨-, d, s, hd, -, hw⟩ := network_deliver hnet
  have hflight : w'.net.flight = Function.update w.net.flight p (remove ch i (w.net.flight p)) := by
    rw [hw]
  rw [hd, Option.bind_some] at hout
  cases hprint : printGameState mp env (w.net.client p) d with
  | none =>
    rw [hprint] at hout
    subst hout
    refine replicates_quiet h (fun q => by rw [hsent]) fun q => ?_
    rw [hflight]
    exact sublist_removed w.net.flight p q ch i
  | some printed =>
    -- the state that is printed is the head of the stream channel
    obtain ⟨rfl, rfl, -⟩ := forwarded_printed hmp (hh.flight p ch d (List.mem_of_getElem? hd)) hrd
      hprint
    obtain rfl := horder rfl
    obtain ⟨rest, hqueue, hrest⟩ := removed_head hd
    rw [hprint] at hout
    subst hout
    constructor
    · intro q
      rw [statesBroadcast_snoc, statesSent_snoc, hsent]
      show Delivers (statesBroadcast tr ++ []) _ (statesSent tr ++ [])
      rw [List.append_nil, List.append_nil]
      exact h.up q
    · intro q
      rw [statesBroadcast_snoc, statesPrinted_snoc, hflight]
      show Delivers (List.map _ (_ ++ [ClosedOutput.printed p printed].filterMap (printedBy q))) _
        (statesBroadcast tr ++ [])
      rw [List.append_nil, List.filterMap_cons, printedBy]
      by_cases hqp : q = p
      · subst hqp
        rw [if_pos rfl, hrest, List.filterMap_nil, List.map_append]
        exact (hqueue ▸ h.down q).take
      · rw [if_neg (Ne.symm hqp), List.filterMap_nil, List.append_nil, Function.update_of_ne hqp]
        exact h.down q

/-- **Every event keeps the two channels.** -/
theorem replicates_step (hmp : mp.Lawful) (hh : Honest mp tr w r) (h : Replicates mp tr w)
    (hs : (closed mp).step w e = some (w', out)) (hreads : ReadsBuffers ⟨w, e, out, w'⟩)
    (horder : InSequence ⟨w, e, out, w'⟩) : Replicates mp (tr ++ [⟨w, e, out, w'⟩]) w' := by
  cases e with
  | connect p =>
    obtain ⟨hnet, hsent, rfl⟩ := closed_connect hs
    obtain ⟨-, hw⟩ := network_connect hnet
    refine replicates_quiet h (fun q => ?_) fun q => ?_
    · rw [hsent]
      exact sublist_cleared w.sent p q
    · rw [hw]
      exact sublist_cleared w.net.flight p q
  | request p env =>
    obtain ⟨hnet, hsent, rfl⟩ := closed_request hs
    exact replicates_client h hsent (by rw [hnet])
  | arrive p ch i env =>
    refine replicates_arrive hmp hh h (hreads.1 p ch i env rfl) ?_ hs
    rintro rfl
    exact horder.1 p i env rfl
  | lose p ch i =>
    obtain ⟨rfl, rfl⟩ := closed_lose hs
    exact replicates_quiet h (fun q => sublist_removed w.sent p q ch i) fun q => List.Sublist.refl _
  | disconnect p =>
    obtain ⟨⟨o, hnet⟩, hsent, rfl⟩ := closed_disconnect hs
    obtain ⟨t', os, -, hw⟩ := network_disconnect hnet
    refine replicates_quiet h (fun q => ?_) fun q => ?_
    · rw [hsent]
      exact sublist_cleared w.sent p q
    · rw [hw]
      exact sublist_cleared w.net.flight p q
  | deliver p ch i env =>
    refine replicates_deliver hmp hh h (hreads.2 p ch i env rfl) ?_ hs
    rintro rfl
    exact horder.2 p i env rfl
  | drop p ch i =>
    obtain ⟨⟨o, hnet⟩, hsent, rfl⟩ := closed_drop hs
    obtain ⟨-, hw⟩ := network_drop hnet
    refine replicates_quiet h (fun q => by rw [hsent]) fun q => ?_
    rw [hw]
    exact sublist_removed w.net.flight p q ch i
  | tick p env c =>
    obtain ⟨o, s, hnet, -, hsent, rfl⟩ := closed_tick hs
    obtain ⟨s', -, hw⟩ := network_tick hnet
    exact replicates_client h hsent (by rw [hw])

/-- **Over every run.** -/
theorem replicates_run (hmp : mp.Lawful) (hr : Run (closed mp) .init tr w)
    (hreads : ∀ x ∈ tr, ReadsBuffers x) (horder : ∀ x ∈ tr, InSequence x) : Replicates mp tr w := by
  refine (hr.trace (I := fun tr w => Run (closed mp) .init tr w ∧
    ((∀ x ∈ tr, ReadsBuffers x) → (∀ x ∈ tr, InSequence x) → Replicates mp tr w)) ?_
    ⟨Run.nil _, fun _ _ => replicates_init⟩).2 hreads horder
  rintro tr w e w' out ⟨hr, ih⟩ hs
  refine ⟨hr.append (Run.single hs), fun hreads horder => ?_⟩
  have hreads' : ∀ x ∈ tr, ReadsBuffers x := fun x hx => hreads x (List.mem_append_left _ hx)
  have hlast : ⟨w, e, out, w'⟩ ∈ tr ++ [⟨w, e, out, w'⟩] :=
    List.mem_append_right _ List.mem_cons_self
  obtain ⟨r, hh⟩ := honest_run hmp hr hreads'
  exact replicates_step hmp hh (ih hreads' fun x hx => horder x (List.mem_append_left _ hx)) hs
    (hreads _ hlast) (horder _ hlast)

/-- **Replicas follow.** In every run of the closed system from the start (where a new connection
belongs to a client that has just started) whose stream channels deliver in sequence: the states
printed at a peer, over all its connections, are some of those that masters have sent, in the order
they were sent, and none of them more often than it was sent. -/
theorem replicas_follow (hmp : mp.Lawful) (hr : Run (closed mp) .init tr w)
    (hreads : ∀ x ∈ tr, ReadsBuffers x) (horder : ∀ x ∈ tr, InSequence x) (p : P) :
    ((statesPrinted p tr).map (statePacket mp)).Sublist (statesBroadcast tr) ∧
      (statesBroadcast tr).Sublist (statesSent tr) := by
  have h := replicates_run hmp hr hreads horder
  exact ⟨(h.down p).sublist, (h.up p).sublist⟩

/-- The session delivers in sequence. -/
theorem session_inSequence {tr : List (ClosedMove Nat)} (hev : tr.map Step.event = session) :
    ∀ x ∈ tr, InSequence x := by
  intro x hx
  have hmem := List.mem_map_of_mem (f := Step.event) hx
  rw [hev] at hmem
  constructor
  · intro p i env he
    rw [he] at hmem
    simp only [session, List.mem_cons, ClosedEvent.arrive.injEq, List.not_mem_nil, reduceCtorEq,
      false_and, and_false, false_or, or_false] at hmem
    exact hmem.2.2.1
  · intro p i env he
    rw [he] at hmem
    simp only [session, List.mem_cons, ClosedEvent.deliver.injEq, List.not_mem_nil, reduceCtorEq,
      false_and, and_false, false_or, or_false] at hmem
    exact hmem.2.2.1

/-- The slave is shown the one state the master has sent. -/
theorem replicas_follow_session : ∃ tr, ∃ w : Closed Nat, Run (closed reference) .init tr w ∧
    statesPrinted 2 tr = [⟨0, ⟨true, 0, -1⟩, ⟨true, 1, 0⟩, .zero, .zero⟩] ∧
    ((statesPrinted 2 tr).map (statePacket reference)).Sublist (statesSent tr) := by
  obtain ⟨tr, w, hr, hev, hQ⟩ := run_of_exec (closed reference) .init session
    (fun tr _ => decide
      (statesPrinted 2 tr = [⟨0, ⟨true, 0, -1⟩, ⟨true, 1, 0⟩, .zero, .zero⟩])) (by decide +kernel)
  obtain ⟨hbroadcast, hsent⟩ := replicas_follow reference_lawful hr (session_readsBuffers hev)
    (session_inSequence hev) 2
  exact ⟨tr, w, hr, of_decide_eq_true hQ, hbroadcast.trans hsent⟩

end MasterRelay.Game
