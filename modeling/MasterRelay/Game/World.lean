import MasterRelay.Client.Threads
import MasterRelay.Server.Loop

/-!
# The server and one client

The server together with the client at one of its peers. What the server sends to that peer is under
way, channel by channel, until it is delivered or lost; packets of a channel may overtake each other
(three of the four channels carry unreliable packets). What reaches the server is left open: any
peer sends any bytes at any time, the client among them.

`arrives_cases` says what the server puts on each channel; `deliver_cases`, `thread_cases` and
`flight_step` say what a step does. `inputs_wereSent`: a player input under way was sent to the
server by some peer.
-/

namespace MasterRelay.Game

open MasterRelay.Client
open MasterRelay.Lib.MsgPack
open MasterRelay.Lib.Runs
open MasterRelay.Protocol
open MasterRelay.Server

/-- The registry, the packets under way to the client, and the client. -/
structure World (P : Type) where
  table : Table P
  flight : ChannelId → List Bytes
  client : ClientState

/-- An event of the server, the fate of a packet, or a step of one of the client's threads. -/
inductive WorldEvent (P : Type) where
  | server (e : Event P)
  | deliver (ch : ChannelId) (i : Nat) (env : ClientEnv)
  | drop (ch : ChannelId) (i : Nat)
  | thread (e : ClientEvent)

variable {P : Type}

/-- Nobody is registered, and the client has just started. -/
def World.init : World P := ⟨initTable, fun _ => [], .init⟩

variable [DecidableEq P]

/-- What an output of the server puts on a channel to `m`. -/
def arrives (m : P) (ch : ChannelId) : Output P → Option Bytes
  | .send p c data _ _ => if p = m ∧ c = ch then some data else none
  | .broadcast c data _ _ => if c = ch then some data else none

/-- The packets under way after the server has sent `out`. -/
def launch (m : P) (out : List (Output P)) (flight : ChannelId → List Bytes) :
    ChannelId → List Bytes :=
  fun ch => flight ch ++ out.filterMap (arrives m ch)

/-- The packets under way without the `i`-th of a channel. -/
def remove (ch : ChannelId) (i : Nat) (flight : ChannelId → List Bytes) : ChannelId → List Bytes :=
  Function.update flight ch ((flight ch).eraseIdx i)

/-- One event, with the client at peer `m`. Its threads receive nothing but what is under way; a
poll that finds nothing changes nothing. -/
def worldStep (mp : Msgpack) (m : P) (w : World P) :
    WorldEvent P → Option (World P × List ClientOutput)
  | .server e => (serverStep mp w.table e).map fun r => (⟨r.1, launch m r.2 w.flight, w.client⟩, [])
  | .deliver ch i env =>
    match (w.flight ch)[i]? with
    | none => some (w, [])
    | some data =>
      (clientStep mp w.client (.receive env data)).map fun r =>
        (⟨w.table, remove ch i w.flight, r.1⟩, r.2)
  | .drop ch i => some (⟨w.table, remove ch i w.flight, w.client⟩, [])
  | .thread e =>
    match e with
    | .receive _ _ => none
    | _ => (clientStep mp w.client e).map fun r => (⟨w.table, w.flight, r.1⟩, r.2)

/-- **The server and the client at peer `m`.** -/
def world (mp : Msgpack) (m : P) : System (World P) (WorldEvent P) ClientOutput := ⟨worldStep mp m⟩

variable {mp : Msgpack} {m : P} {w w' : World P} {e : WorldEvent P} {out : List ClientOutput}

/-- **All a step of the server can put on a channel.** -/
theorem arrives_cases {t t' : Table P} {e : Event P} {out : List (Output P)}
    (hs : (server mp).step t e = some (t', out)) {ch : ChannelId} {d : Bytes}
    (hd : d ∈ out.filterMap (arrives m ch)) :
    (ch = .critical ∧ ∃ ty payload, (ty = .resUserInfo ∨ ty = .slaveConnected) ∧
        d = frame ty payload) ∨
      (ch = .stream ∧ ∃ payload, d = frame .gameStateUpd payload) ∨
      ch = .streamPuppetInputs ∧ ∃ env peer payload, e = .receive env peer d ∧
        d = frame .playerInput payload := by
  obtain ⟨o, ho, harr⟩ := List.mem_filterMap.mp hd
  rcases server_outputs hs o ho with ⟨ty, p, payload, hty, rfl⟩ | ⟨payload, rfl⟩ |
    ⟨env, peer, payload, p, rfl, rfl⟩ <;> simp only [arrives] at harr <;> split_ifs at harr with hch
  · obtain rfl := Option.some.inj harr
    exact .inl ⟨hch.2.symm, ty, payload, hty, rfl⟩
  · obtain rfl := Option.some.inj harr
    exact .inr (.inl ⟨hch.symm, payload, rfl⟩)
  · obtain rfl := Option.some.inj harr
    exact .inr (.inr ⟨hch.2.symm, env, peer, payload, rfl, rfl⟩)

theorem mem_remove {ch ch' : ChannelId} {i : Nat} {flight : ChannelId → List Bytes} {d : Bytes}
    (h : d ∈ remove ch i flight ch') : d ∈ flight ch' := by
  unfold remove at h
  by_cases hch : ch' = ch
  · subst hch
    rw [Function.update_self] at h
    exact List.mem_of_mem_eraseIdx h
  · rwa [Function.update_of_ne hch] at h

/-- What a delivery does: the packet is gone and the client has handled it, or there was none. -/
theorem deliver_cases {ch : ChannelId} {i : Nat} {env : ClientEnv}
    (hs : (world mp m).step w (.deliver ch i env) = some (w', out)) :
    ∃ c, w' = ⟨w.table, remove ch i w.flight, c⟩ ∧
      ((w.flight ch)[i]? = none ∧ c = w.client ∨ ∃ d, (w.flight ch)[i]? = some d ∧
        (client mp).step w.client (.receive env d) = some (c, out)) := by
  simp only [world, worldStep] at hs
  split at hs
  · rename_i hnone
    cases hs
    have hsame : remove ch i w.flight = w.flight := by
      rw [remove, List.eraseIdx_of_length_le (List.getElem?_eq_none_iff.mp hnone),
        Function.update_eq_self]
    exact ⟨w.client, by rw [hsame], .inl ⟨hnone, rfl⟩⟩
  · rename_i d hd
    obtain ⟨⟨c, o⟩, hr, heq⟩ := Option.map_eq_some_iff.mp hs
    cases heq
    exact ⟨c, rfl, .inr ⟨d, hd, hr⟩⟩

/-- What a step of one of the client's threads does. -/
theorem thread_cases {ce : ClientEvent}
    (hs : (world mp m).step w (.thread ce) = some (w', out)) :
    ∃ c, w' = ⟨w.table, w.flight, c⟩ ∧ (client mp).step w.client ce = some (c, out) ∧
      ∀ env data, ce ≠ .receive env data := by
  simp only [world, worldStep] at hs
  split at hs
  · cases hs
  · rename_i hno
    obtain ⟨⟨c, o⟩, hr, heq⟩ := Option.map_eq_some_iff.mp hs
    cases heq
    exact ⟨c, rfl, hr, hno⟩

/-- **What a step does to the packets under way**: the server adds some, or some go. -/
theorem flight_step (hs : (world mp m).step w e = some (w', out)) :
    (∃ se t' os, e = .server se ∧ (server mp).step w.table se = some (t', os) ∧
      w' = ⟨t', launch m os w.flight, w.client⟩) ∨
    ∀ ch, ∀ d ∈ w'.flight ch, d ∈ w.flight ch := by
  cases e with
  | server se =>
    obtain ⟨⟨t', os⟩, hr, heq⟩ := Option.map_eq_some_iff.mp hs
    cases heq
    exact .inl ⟨se, t', os, rfl, hr, rfl⟩
  | deliver ch i env =>
    obtain ⟨c, rfl, -⟩ := deliver_cases hs
    exact .inr fun _ _ hd => mem_remove hd
  | drop ch i =>
    cases hs
    exact .inr fun _ _ hd => mem_remove hd
  | thread ce =>
    obtain ⟨c, rfl, -⟩ := thread_cases hs
    exact .inr fun _ _ hd => hd

/-- Some peer sent the packet to the server. -/
def WasSent (tr : List (Step (World P) (WorldEvent P) ClientOutput)) (d : Bytes) : Prop :=
  ∃ x ∈ tr, ∃ env peer, x.event = .server (.receive env peer d)

/-- **A player input under way was sent by some peer.** -/
theorem inputs_wereSent {tr : List (Step (World P) (WorldEvent P) ClientOutput)}
    (hr : Run (world mp m) .init tr w) : ∀ ch payload,
      frame .playerInput payload ∈ w.flight ch → WasSent tr (frame .playerInput payload) := by
  refine hr.trace (I := fun tr w => ∀ ch payload,
    frame .playerInput payload ∈ w.flight ch → WasSent tr (frame .playerInput payload)) ?_ ?_
  · intro tr w e w' out ih hs ch payload hd
    have hold : frame .playerInput payload ∈ w.flight ch →
        WasSent (tr ++ [⟨w, e, out, w'⟩]) (frame .playerInput payload) := by
      intro h
      obtain ⟨x, hx, hrest⟩ := ih ch payload h
      exact ⟨x, List.mem_append_left _ hx, hrest⟩
    rcases flight_step hs with ⟨se, t', os, rfl, hserver, rfl⟩ | hsub
    · rcases List.mem_append.mp hd with h | h
      · exact hold h
      · -- a new packet of this type is the one the server has just received
        rcases arrives_cases hserver h with ⟨-, ty, p, hty, heq⟩ | ⟨-, p, heq⟩ |
          ⟨-, env, peer, p, rfl, -⟩
        · rcases hty with rfl | rfl <;> cases heq
        · cases heq
        · exact ⟨_, List.mem_append_right _ List.mem_cons_self, env, peer, rfl⟩
    · exact hold (hsub ch _ hd)
  · intro ch payload hd
    exact absurd hd List.not_mem_nil

end MasterRelay.Game
