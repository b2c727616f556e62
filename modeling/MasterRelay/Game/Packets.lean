import MasterRelay.Game.Authority
import MasterRelay.Protocol.Sizes

/-!
# How long the packets under way are

`try_enet_peer_send` asks for the longest packet a host takes, the relay and the broadcast do not.
In the closed system it does not matter: what is packed is short, and what is relayed was packed by
a client.

* `server_short`, `tick_short`, `request_short`: what is sent.
* **`packets_short`**: what is under way, in every run and for every encoding.
-/

namespace MasterRelay.Game

open MasterRelay.Client
open MasterRelay.Lib.MsgPack
open MasterRelay.Lib.Runs
open MasterRelay.Protocol
open MasterRelay.Server

variable {P : Type}

/-- The longest packet. -/
def packetLimit : Nat := 384

/-! ## What is sent -/

variable {mp : Msgpack}

theorem answer_short (hmp : mp.Lawful) (ty : MessageType) (ui : UserInfo) :
    (frame ty (some (userInfoBytes mp ui))).length ≤ packetLimit := by
  have hsize := userInfoBytes_size hmp ui
  simp only [frame, List.length_cons, Option.getD_some, packetLimit]
  omega

theorem input_short (hmp : mp.Lawful) (pi : PlayerInput) :
    (inputPacket mp pi).length ≤ packetLimit := by
  have hsize := inputPacket_size hmp pi
  unfold packetLimit
  omega

/-- What a call of a client sends is short. -/
theorem tick_short (hmp : mp.Lawful) {env : ClientEnv} {s s' : Shared} {c : TickCall}
    {os : List ClientOutput} (h : tryExecuteTick mp env s c = some (s', os)) {ch : ChannelId}
    {d : Bytes} (hd : d ∈ os.filterMap (leaves ch)) : d.length ≤ packetLimit := by
  rcases tick_sends h ch with hnone | ⟨-, ui, gs, -, -, hstate⟩ | ⟨-, ui, -, -, hinput⟩
  · rw [hnone] at hd
    exact absurd hd List.not_mem_nil
  · rw [hstate] at hd
    rw [List.mem_singleton.mp hd]
    exact frame_gameState_size hmp gs
  · rw [hinput] at hd
    rw [List.mem_singleton.mp hd]
    exact input_short hmp _

/-- So is a request. -/
theorem request_short (env : ClientEnv) {ch : ChannelId} {d : Bytes}
    (hd : d ∈ ((requestUserInfo env).map ClientOutput.sent).filterMap (leaves ch)) :
    d.length ≤ packetLimit := by
  rcases request_sends env ch with hnone | ⟨-, hone⟩
  · rw [hnone] at hd
    exact absurd hd List.not_mem_nil
  · rw [hone] at hd
    rw [List.mem_singleton.mp hd]
    decide

variable [DecidableEq P]

/-- What the server sends is short where the packet it received is. -/
theorem server_short (hmp : mp.Lawful) {t t' : Table P} {env : Env P} {p : P} {data : Bytes}
    {os : List (Output P)} (hs : (server mp).step t (.receive env p data) = some (t', os))
    (hdata : data.length ≤ packetLimit) : ∀ o ∈ os, o.data.length ≤ packetLimit := by
  intro o ho
  rcases onReceive_cases hs with ⟨-, hreg⟩ | ⟨-, -, rfl | ⟨payload, gs, -, -, rfl⟩ |
    ⟨payload, master, q, -, -, -, rfl⟩⟩
  · rcases handlePlayerRegister_cases hreg with ⟨-, -, rfl⟩ | ⟨i, m, -, -, -, -, rfl⟩
    · exact absurd ho List.not_mem_nil
    · rcases announce_cases mp env t' p i m with h | h | ⟨master, q, -, -, -, h⟩
      · exact absurd (h ▸ ho) List.not_mem_nil
      · rw [h, List.mem_singleton] at ho
        rw [ho]
        exact answer_short hmp _ _
      · rw [h, List.mem_pair] at ho
        rcases ho with rfl | rfl <;> exact answer_short hmp _ _
  · exact absurd ho List.not_mem_nil
  · rw [List.mem_singleton.mp ho]
    exact frame_gameState_size hmp gs
  · rw [List.mem_singleton.mp ho]
    exact hdata

/-! ## What is under way -/

/-- **Every packet under way is short**, in both directions. -/
structure Short (w : Closed P) : Prop where
  sent : ∀ p ch, ∀ d ∈ w.sent p ch, d.length ≤ packetLimit
  flight : ∀ p ch, ∀ d ∈ w.net.flight p ch, d.length ≤ packetLimit

variable {w w' : Closed P} {e : ClosedEvent P} {out : List (ClosedOutput P)}
  {tr : List (ClosedMove P)}

/-- What the server has put under way was among what it sent. -/
theorem arrives_data {q : P} {ch : ChannelId} {o : Output P} {d : Bytes}
    (h : arrives q ch o = some d) : o.data = d := by
  cases o with
  | send p c data reliable forced =>
    simp only [arrives] at h
    split_ifs at h
    exact Option.some.inj h
  | broadcast c data reliable forced =>
    simp only [arrives] at h
    split_ifs at h
    exact Option.some.inj h

/-- **Every event keeps them short.** -/
theorem short_step (hmp : mp.Lawful) (h : Short w)
    (hs : (closed mp).step w e = some (w', out)) : Short w' := by
  cases e with
  | connect p =>
    obtain ⟨hnet, hsent, -⟩ := closed_connect hs
    obtain ⟨-, hw⟩ := network_connect hnet
    refine ⟨fun q ch d hd => ?_, fun q ch d hd => ?_⟩
    · rw [hsent] at hd
      exact h.sent q ch d (mem_cleared hd).2
    · rw [hw] at hd
      exact h.flight q ch d (mem_cleared hd).2
  | request p env =>
    obtain ⟨hnet, hsent, -⟩ := closed_request hs
    refine ⟨fun q ch d hd => ?_, fun q ch d hd => h.flight q ch d (hnet ▸ hd)⟩
    rw [hsent] at hd
    rcases mem_launchFrom hd with hold | ⟨-, -, hnew⟩
    · exact h.sent q ch d hold
    · exact request_short env hnew
  | arrive p ch i env =>
    obtain ⟨-, d₀, t', os, hd₀, hserver, -, hw, hsent, -⟩ := closed_arrive hs
    refine ⟨fun q ch' d hd => ?_, fun q ch' d hd => ?_⟩
    · rw [hsent] at hd
      exact h.sent q ch' d (mem_removed hd)
    · rw [hw] at hd
      rcases mem_launchAll hd with hold | hnew
      · exact h.flight q ch' d hold
      · obtain ⟨o, ho, harrives⟩ := List.mem_filterMap.mp hnew
        rw [← arrives_data harrives]
        exact server_short hmp hserver (h.sent p ch d₀ (List.mem_of_getElem? hd₀)) o ho
  | lose p ch i =>
    obtain ⟨rfl, -⟩ := closed_lose hs
    exact ⟨fun q ch' d hd => h.sent q ch' d (mem_removed hd), h.flight⟩
  | disconnect p =>
    obtain ⟨⟨o, hnet⟩, hsent, -⟩ := closed_disconnect hs
    obtain ⟨t', os, -, hw⟩ := network_disconnect hnet
    refine ⟨fun q ch d hd => ?_, fun q ch d hd => ?_⟩
    · rw [hsent] at hd
      exact h.sent q ch d (mem_cleared hd).2
    · rw [hw] at hd
      exact h.flight q ch d (mem_cleared hd).2
  | deliver p ch i env =>
    obtain ⟨⟨o, hnet⟩, hsent, -⟩ := closed_deliver hs
    obtain ⟨-, d₀, s, -, -, hw⟩ := network_deliver hnet
    refine ⟨fun q ch' d hd => h.sent q ch' d (hsent ▸ hd), fun q ch' d hd => ?_⟩
    rw [hw] at hd
    exact h.flight q ch' d (mem_removed hd)
  | drop p ch i =>
    obtain ⟨⟨o, hnet⟩, hsent, -⟩ := closed_drop hs
    obtain ⟨-, hw⟩ := network_drop hnet
    refine ⟨fun q ch' d hd => h.sent q ch' d (hsent ▸ hd), fun q ch' d hd => ?_⟩
    rw [hw] at hd
    exact h.flight q ch' d (mem_removed hd)
  | tick p env c =>
    obtain ⟨o, s, hnet, htick, hsent, -⟩ := closed_tick hs
    obtain ⟨s', -, hw⟩ := network_tick hnet
    refine ⟨fun q ch d hd => ?_, fun q ch d hd => ?_⟩
    · rw [hsent] at hd
      rcases mem_launchFrom hd with hold | ⟨-, -, hnew⟩
      · exact h.sent q ch d hold
      · exact tick_short hmp htick hnew
    · rw [hw] at hd
      exact h.flight q ch d hd

/-- **Packets are short.** In every run of the closed system from the start (where a new connection
belongs to a client that has just started), whatever encodings msgpack-c chooses, whatever fails and
whatever is typed: no packet under way, to the server or from it, is longer than 384 bytes. -/
theorem packets_short (hmp : mp.Lawful) (hr : Run (closed mp) .init tr w) :
    (∀ p ch, ∀ d ∈ w.sent p ch, d.length ≤ packetLimit) ∧
      ∀ p ch, ∀ d ∈ w.net.flight p ch, d.length ≤ packetLimit := by
  have hshort := hr.invariantWhere (I := Short) (P := fun _ => True)
    (fun _ _ _ _ h _ hs => short_step hmp h hs) (fun _ _ => trivial)
    ⟨fun _ _ _ hd => absurd hd List.not_mem_nil, fun _ _ _ hd => absurd hd List.not_mem_nil⟩
  exact ⟨hshort.sent, hshort.flight⟩

/-- The master's own state is still under way to it. -/
theorem packets_short_session : ∃ tr, ∃ w : Closed Nat, Run (closed reference) .init tr w ∧
    ∃ d ∈ w.net.flight 1 .stream, d.length ≤ packetLimit := by
  obtain ⟨tr, w, hr, -, hQ⟩ := run_of_exec (closed reference) .init session
    (fun _ w => decide (w.net.flight 1 .stream ≠ [])) (by decide +kernel)
  obtain ⟨d, hd⟩ := List.exists_mem_of_ne_nil _ (of_decide_eq_true hQ)
  exact ⟨tr, w, hr, d, hd, (packets_short reference_lawful hr).2 1 .stream d hd⟩

end MasterRelay.Game
