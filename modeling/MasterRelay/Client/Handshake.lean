import MasterRelay.Client.Connection
import Mathlib.Data.List.ReduceOption

/-!
# The events of the handshake

The loop of `handle_cmd_connect_to_host` that waits for the connection tests `is_connected` after
the next `enet_host_service`, not after the `switch` that sets it. Unless nothing comes for as long
as that call waits, it takes one event more than the `CONNECT`, looks at it for its type at most,
and drops it; `handle_net_events_loop` never sees it.

* `waitConnect_fetches`: the calls of the loop, with what each yields.
* `taken_connect`, `taken_noConnect`: the events that are taken.
* `eventAfterConnect`: the event that is lost, and what becomes of the peer.
* **`swallowsNothing_iff`**: nothing is lost exactly where the `CONNECT` is the last event to come.
-/

namespace MasterRelay.Client

open MasterRelay.Lib.Runs
open MasterRelay.Protocol

variable {H Q : Type}

/-- What each `enet_host_service` of the loop of `handle_cmd_connect_to_host` yields, until the
loop ends. -/
def waitFetches : Bool → List ENetEventType → List (Option ENetEventType)
  | _, [] => [none]
  | true, ev :: _ => [some ev]
  | false, ev :: evs => some ev :: waitFetches (decide (ev = .connect)) evs

/-- The `CONNECT` gets to its loop. -/
def NetEnv.waits (env : NetEnv H Q) (msg : ConnectMsg) : Bool :=
  env.hostCreate.isSome && env.checkHost msg.host && env.addressSetHost msg.host &&
    (env.hostConnect msg.host msg.port).isSome

/-- The events `handle_cmd_connect_to_host` takes from its host. -/
def NetEnv.eventsTaken (env : NetEnv H Q) (msg : ConnectMsg) : List ENetEventType :=
  if env.waits msg then (waitFetches false env.service).reduceOption else []

/-- The events that are still there when it returns. -/
def NetEnv.eventsLeft (env : NetEnv H Q) (msg : ConnectMsg) : List ENetEventType :=
  env.service.drop (env.eventsTaken msg).length

/-- The last `CONNECT` or `DISCONNECT` of the events. -/
def lastConnectionEvent (evs : List ENetEventType) : Option ENetEventType :=
  (evs.filter fun ev => ev == .connect || ev == .disconnect).getLast?

/-- **Connecting swallows nothing**: no event is taken after a `CONNECT`, all that come after the
first one are left, and a `CLIENT_PEER` that is published was not disconnected. -/
structure SwallowsNothing (env : NetEnv H Q) (msg : ConnectMsg) : Prop where
  taken : ∀ before after, env.eventsTaken msg = before ++ .connect :: after → after = []
  left : env.waits msg = true → ∀ before after, env.service = before ++ .connect :: after →
    .connect ∉ before → env.eventsLeft msg = after
  published : ∀ s : Handles H Q, s.clientPeer = none →
    (handleCmdConnectToHost env msg s).1.clientPeer ≠ none →
      lastConnectionEvent (env.eventsTaken msg) = some .connect

/-! ## What the loop takes -/

/-- Each call of the loop yields an event, or is its last. -/
theorem waitConnect_fetches (client : H) : ∀ (b : Bool) (evs : List ENetEventType),
    (waitConnect (Q := Q) client b evs).2 =
      (waitFetches b evs).map fun _ => .hostService (some client)
  | true, [] => rfl
  | false, [] => rfl
  | true, _ :: _ => rfl
  | false, ev :: evs => by
    rw [waitConnect, waitFetches, List.map_cons, ← waitConnect_fetches client _ evs]

/-- The loop ends one event after the first `CONNECT`, or when none comes. -/
theorem taken_connect {before : List ENetEventType} (after : List ENetEventType)
    (h : .connect ∉ before) :
    (waitFetches false (before ++ .connect :: after)).reduceOption =
      before ++ .connect :: after.take 1 := by
  induction before with
  | nil =>
    cases after with
    | nil => rfl
    | cons ev after => rfl
  | cons ev before ih =>
    rw [List.mem_cons, not_or] at h
    have hne : decide (ev = .connect) = false := decide_eq_false (Ne.symm h.1)
    rw [List.cons_append, waitFetches, hne, List.reduceOption_cons_of_some, ih h.2,
      List.cons_append]

theorem taken_noConnect {evs : List ENetEventType} (h : .connect ∉ evs) :
    (waitFetches false evs).reduceOption = evs := by
  induction evs with
  | nil => rfl
  | cons ev evs ih =>
    rw [List.mem_cons, not_or] at h
    have hne : decide (ev = .connect) = false := decide_eq_false (Ne.symm h.1)
    rw [waitFetches, hne, List.reduceOption_cons_of_some, ih h.2]

variable {env : NetEnv H Q} {msg : ConnectMsg} {before after : List ENetEventType}

/-- The command connects where it gets to its loop and a `CONNECT` comes. -/
theorem connects_iff : env.connects msg = true ↔
    env.waits msg = true ∧ .connect ∈ env.service := by
  rw [NetEnv.connects, ← NetEnv.waits, Bool.and_eq_true, List.contains_iff_mem]

/-- **The event after the `CONNECT`** is taken; the peer is published, also where that event was its
`DISCONNECT`. -/
theorem eventAfterConnect (hwaits : env.waits msg = true)
    (hevs : env.service = before ++ .connect :: after) (hfirst : .connect ∉ before) :
    env.connects msg = true ∧ env.eventsTaken msg = before ++ .connect :: after.take 1 ∧
      env.eventsLeft msg = after.drop 1 := by
  have htaken : env.eventsTaken msg = before ++ .connect :: after.take 1 := by
    rw [NetEnv.eventsTaken, if_pos hwaits, hevs, taken_connect after hfirst]
  refine ⟨?_, htaken, ?_⟩
  · rw [connects_iff, hevs]
    exact ⟨hwaits, List.mem_append_right _ List.mem_cons_self⟩
  · have hsplit : before ++ .connect :: after =
        (before ++ .connect :: after.take 1) ++ after.drop 1 := by
      rw [List.append_assoc, List.cons_append, List.take_append_drop]
    rw [NetEnv.eventsLeft, htaken, hevs, hsplit, List.drop_left]

/-! ## When nothing is swallowed -/

/-- Where the first `CONNECT` is the last event, nothing comes after it. -/
theorem after_nil {evs : List ENetEventType} (hlast : .connect ∉ evs.dropLast)
    (hevs : evs = before ++ .connect :: after) : after = [] := by
  by_contra hne
  refine hlast ?_
  rw [hevs, List.dropLast_append_of_ne_nil (List.cons_ne_nil _ _), List.dropLast_cons_of_ne_nil hne]
  exact List.mem_append_right _ List.mem_cons_self

theorem lastConnectionEvent_connect (before : List ENetEventType) :
    lastConnectionEvent (before ++ [.connect]) = some .connect := by
  rw [lastConnectionEvent, List.filter_append]
  exact List.getLast?_concat

/-- A `CONNECT` that does not get a `CONNECT` event leaves `CLIENT_PEER` alone. -/
theorem peer_unpublished (hno : env.connects msg = false) (s : Handles H Q) :
    (handleCmdConnectToHost env msg s).1.clientPeer = s.clientPeer := by
  rcases (connectToHost_cases env msg s).1 with ⟨hok, -⟩ | ⟨-, hsame⟩
  · exact absurd hok (by simp [hno])
  · rw [hsame]

/-- A command that does not connect has no `CONNECT` to take an event after. -/
theorem swallowsNothing_unconnected (hno : env.connects msg = false) : SwallowsNothing env msg := by
  have hnone : env.waits msg = true → .connect ∉ env.service := fun hwaits hmem =>
    Bool.eq_false_iff.mp hno (connects_iff.mpr ⟨hwaits, hmem⟩)
  have htaken : .connect ∉ env.eventsTaken msg := by
    unfold NetEnv.eventsTaken
    split_ifs with hwaits
    · rw [taken_noConnect (hnone hwaits)]
      exact hnone hwaits
    · exact List.not_mem_nil
  refine ⟨fun b a htk => ?_, fun hwaits b a hsplit _ => ?_, fun s hs hpub => ?_⟩
  · exact absurd (htk ▸ List.mem_append_right _ List.mem_cons_self) htaken
  · exact absurd (hsplit ▸ List.mem_append_right _ List.mem_cons_self) (hnone hwaits)
  · exact absurd ((peer_unpublished hno s).trans hs) hpub

/-- **When nothing is swallowed**: the command fails before its loop, or no event comes after a
`CONNECT` until `enet_host_service` runs into its timeout. -/
theorem swallowsNothing_iff (env : NetEnv H Q) (msg : ConnectMsg) :
    SwallowsNothing env msg ↔ (env.waits msg = true → .connect ∉ env.service.dropLast) := by
  constructor
  · intro h hwaits hmem
    obtain ⟨before, after, hevs, hfirst⟩ :=
      List.eq_append_cons_of_mem (List.dropLast_subset _ hmem)
    obtain ⟨-, htaken, -⟩ := eventAfterConnect hwaits hevs hfirst
    -- nothing else is taken, so nothing else has come
    have hnil : after = [] := by
      have hone := h.taken _ _ htaken
      rcases after with _ | ⟨ev, rest⟩
      · rfl
      · cases hone
    rw [hevs, hnil, List.dropLast_concat] at hmem
    exact hfirst hmem
  · intro hlast
    by_cases hconnects : env.connects msg = true
    · obtain ⟨hwaits, hmem⟩ := connects_iff.mp hconnects
      obtain ⟨before, after, hevs, hfirst⟩ := List.eq_append_cons_of_mem hmem
      obtain ⟨-, htaken, hleft⟩ := eventAfterConnect hwaits hevs hfirst
      obtain rfl := after_nil (hlast hwaits) hevs
      refine ⟨fun b a htk => ?_, fun _ b a hsplit _ => ?_, fun s _ _ => ?_⟩
      · rw [htaken] at htk
        exact after_nil (by rwa [List.take_nil, List.dropLast_concat]) htk
      · rw [hleft, after_nil (hlast hwaits) hsplit]
        rfl
      · rw [htaken]
        exact lastConnectionEvent_connect before
    · exact swallowsNothing_unconnected (Bool.eq_false_iff.mpr hconnects)

/-- **An answer right behind the `CONNECT` is lost**, and a peer that has been disconnected by then
is published. -/
theorem handshake_swallows :
    ¬ SwallowsNothing { NetEnv.ideal with service := [.connect, .receive] }
      ⟨"127.0.0.1", 7777⟩ ∧
    (NetEnv.eventsTaken { NetEnv.ideal with service := [.connect, .disconnect] }
        ⟨"127.0.0.1", 7777⟩ = [.connect, .disconnect] ∧
      (handleCmdConnectToHost { NetEnv.ideal with service := [.connect, .disconnect] }
        ⟨"127.0.0.1", 7777⟩ .init).1.clientPeer = some 0) := by
  refine ⟨fun h => ?_, by decide +kernel, by decide +kernel⟩
  have hone := h.taken [] [.receive] (by decide +kernel)
  cases hone

end MasterRelay.Client
