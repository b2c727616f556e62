import MasterRelay.Game.Agreement

/-!
# The closed system

The server and all its clients, where the peers run the client too: what reaches the server is what
a client has sent to it. The packets under way from a peer to the server have channels like those
under way to it, the critical one reliable and in order. What the people at the clients do is left
open (when they connect, register, leave and what they type), and so are packing, sending and the
fate of packets.

A packet of a client that is not connected goes nowhere, and a disconnect discards what is under way
in both directions. As in `Game/Network.lean`, every new connection belongs to a client that has
just started.

* `closed_network`: a run of the closed system is a run of the open one.
* `tick_sends`: all a call of `try_execute_tick` can send, and on which channel.
-/

namespace MasterRelay.Game

open MasterRelay.Client
open MasterRelay.Lib.MsgPack
open MasterRelay.Lib.Runs
open MasterRelay.Protocol
open MasterRelay.Server

/-! ## The client, seen from outside -/

/-- `case REQ_USER_INFO` of `net_bg_thread`: what it sends. -/
def requestUserInfo (env : ClientEnv) : List (Output Unit) :=
  match env.clientPeer with
  | none => []
  | some _ =>
    match ifbPtclTrySendMsgPacket env.net .reqUserInfo .critical none env.clientPeer true true with
    | .error _ => []
    | .ok o => [o]

/-- What `handle_on_game_state_updated_from_server` prints. -/
structure Printed where
  myId : Int32
  isMaster : Bool
  gameState : GameState
  deriving DecidableEq, Repr

/-- `handle_on_game_state_updated_from_server`. -/
def handleOnGameStateUpdatedFromServer (s : Shared) (gameState : GameState) : Printed :=
  ⟨(s.myUserInfo.map fun ui => ui.id.toInt32).getD (-1), s.myUserInfo.any UserInfo.isMaster,
    gameState⟩

/-- `case IFB_MSG_TYPE_GAME_STATE_UPD` of `handle_net_events_loop`. -/
def printGameState (mp : Msgpack) (env : ClientEnv) (s : Shared) (data : Bytes) : Option Printed :=
  match ifbPtclTryParseMessageByType data with
  | .ok (.gameStateUpd, payload) =>
    match ifbTryUnpackGameState mp env.net.reader payload with
    | .ok gameState => some (handleOnGameStateUpdatedFromServer s gameState)
    | .error _ => none
  | _ => none

/-- The packet of a game state. -/
def statePacket (mp : Msgpack) (gs : GameState) : Bytes :=
  frame .gameStateUpd (some (gameStateBytes mp gs))

/-- What an output of a client puts on a channel to the server. -/
def leaves (ch : ChannelId) : ClientOutput → Option Bytes
  | .sent o => arrives () ch o
  | .returned _ => none

/-! ## The system -/

/-- The server and its clients, and the packets under way from each peer to the server. -/
structure Closed (P : Type) where
  net : Network P
  sent : P → ChannelId → List Bytes

/-- What a person does, the fate of a packet in either direction, or a call of
`try_execute_tick`. -/
inductive ClosedEvent (P : Type) where
  | connect (p : P)
  | request (p : P) (env : ClientEnv)
  | arrive (p : P) (ch : ChannelId) (i : Nat) (env : Env P)
  | lose (p : P) (ch : ChannelId) (i : Nat)
  | disconnect (p : P)
  | deliver (p : P) (ch : ChannelId) (i : Nat) (env : ClientEnv)
  | drop (p : P) (ch : ChannelId) (i : Nat)
  | tick (p : P) (env : ClientEnv) (c : TickCall)

/-- What leaves the server or a client, or is printed. -/
inductive ClosedOutput (P : Type) where
  | server (o : Output P)
  | client (p : P) (o : ClientOutput)
  | printed (p : P) (s : Printed)

variable {P : Type}

/-- Nobody is connected, and nothing is under way. -/
def Closed.init : Closed P := ⟨.init, fun _ _ => []⟩

variable [DecidableEq P]

/-- The packets under way to the server after the client at `p` has sent `out`: those of a client
that is not connected go nowhere. -/
def launchFrom (w : Closed P) (p : P) (out : List ClientOutput) : P → ChannelId → List Bytes :=
  if w.net.connected p then
    Function.update w.sent p fun ch => w.sent p ch ++ out.filterMap (leaves ch)
  else w.sent

/-- One event. -/
def closedStep (mp : Msgpack) (w : Closed P) :
    ClosedEvent P → Option (Closed P × List (ClosedOutput P))
  | .connect p => (networkStep mp w.net (.connect p)).map fun r =>
      (⟨r.1, Function.update w.sent p fun _ => []⟩, [])
  | .request p env =>
    let out := (requestUserInfo env).map .sent
    some ({ w with sent := launchFrom w p out }, out.map (.client p))
  | .arrive p ch i env =>
    -- the critical channel keeps its order
    if w.net.connected p = false ∨ ch = .critical ∧ i ≠ 0 then none
    else
      match (w.sent p ch)[i]? with
      | none => none
      | some data => (serverStep mp w.net.table (.receive env p data)).map fun r =>
        (⟨{ w.net with table := r.1, flight := launchAll w.net.connected r.2 w.net.flight },
          Function.update w.sent p (remove ch i (w.sent p))⟩, r.2.map .server)
  | .lose p ch i =>
    -- and loses nothing
    if ch = .critical then none
    else some ({ w with sent := Function.update w.sent p (remove ch i (w.sent p)) }, [])
  | .disconnect p => (networkStep mp w.net (.disconnect p)).map fun r =>
      (⟨r.1, Function.update w.sent p fun _ => []⟩, [])
  | .deliver p ch i env => (networkStep mp w.net (.deliver p ch i env)).map fun r =>
      ({ w with net := r.1 }, (((w.net.flight p ch)[i]?.bind
        (printGameState mp env (w.net.client p))).map (.printed p)).toList)
  | .drop p ch i => (networkStep mp w.net (.drop p ch i)).map fun r => ({ w with net := r.1 }, [])
  | .tick p env c => (networkStep mp w.net (.tick p env c)).map fun r =>
      (⟨r.1, launchFrom w p r.2⟩, r.2.map (.client p))

/-- **The closed system**, where every new connection brings a client that has just started. -/
def closed (mp : Msgpack) : System (Closed P) (ClosedEvent P) (ClosedOutput P) := ⟨closedStep mp⟩

variable {mp : Msgpack} {w w' : Closed P} {out : List (ClosedOutput P)}

/-! ## What each event does -/

theorem closed_connect {p : P} (hs : (closed mp).step w (.connect p) = some (w', out)) :
    (network mp).step w.net (.connect p) = some (w'.net, []) ∧
      w'.sent = Function.update w.sent p (fun _ => []) ∧ out = [] := by
  obtain ⟨⟨n, o⟩, hnet, heq⟩ := Option.map_eq_some_iff.mp hs
  cases heq
  refine ⟨?_, rfl, rfl⟩
  have hout : o = [] := by
    simp only [networkStep] at hnet
    split_ifs at hnet
    cases hnet
    rfl
  exact hout ▸ hnet

theorem closed_request {p : P} {env : ClientEnv}
    (hs : (closed mp).step w (.request p env) = some (w', out)) :
    w'.net = w.net ∧ w'.sent = launchFrom w p ((requestUserInfo env).map .sent) ∧
      out = ((requestUserInfo env).map ClientOutput.sent).map (.client p) := by
  cases hs
  exact ⟨rfl, rfl, rfl⟩

theorem closed_arrive {p : P} {ch : ChannelId} {i : Nat} {env : Env P}
    (hs : (closed mp).step w (.arrive p ch i env) = some (w', out)) :
    (ch = .critical → i = 0) ∧ ∃ d t' os, (w.sent p ch)[i]? = some d ∧
      (server mp).step w.net.table (.receive env p d) = some (t', os) ∧
      (network mp).step w.net (.receive env p d) = some (w'.net, []) ∧
      w'.net = { w.net with table := t', flight := launchAll w.net.connected os w.net.flight } ∧
      w'.sent = Function.update w.sent p (remove ch i (w.sent p)) ∧ out = os.map .server := by
  simp only [closed, closedStep] at hs
  split_ifs at hs with hguard
  obtain ⟨hconn, horder⟩ := not_or.mp hguard
  split at hs
  · cases hs
  · rename_i d hd
    obtain ⟨⟨t', os⟩, hserver, heq⟩ := Option.map_eq_some_iff.mp hs
    cases heq
    refine ⟨fun hch => ?_, d, t', os, hd, hserver, ?_, rfl, rfl, rfl⟩
    · by_contra hi
      exact horder ⟨hch, hi⟩
    · simp only [network, networkStep, eq_true_of_ne_false hconn, if_true, hserver,
        Option.map_some]

theorem closed_lose {p : P} {ch : ChannelId} {i : Nat}
    (hs : (closed mp).step w (.lose p ch i) = some (w', out)) :
    w' = { w with sent := Function.update w.sent p (remove ch i (w.sent p)) } ∧ out = [] := by
  simp only [closed, closedStep] at hs
  split_ifs at hs
  cases hs
  exact ⟨rfl, rfl⟩

theorem closed_disconnect {p : P} (hs : (closed mp).step w (.disconnect p) = some (w', out)) :
    (∃ o, (network mp).step w.net (.disconnect p) = some (w'.net, o)) ∧
      w'.sent = Function.update w.sent p (fun _ => []) ∧ out = [] := by
  obtain ⟨⟨n, o⟩, hnet, heq⟩ := Option.map_eq_some_iff.mp hs
  cases heq
  exact ⟨⟨o, hnet⟩, rfl, rfl⟩

theorem closed_deliver {p : P} {ch : ChannelId} {i : Nat} {env : ClientEnv}
    (hs : (closed mp).step w (.deliver p ch i env) = some (w', out)) :
    (∃ o, (network mp).step w.net (.deliver p ch i env) = some (w'.net, o)) ∧ w'.sent = w.sent ∧
      out = (((w.net.flight p ch)[i]?.bind
        (printGameState mp env (w.net.client p))).map (.printed p)).toList := by
  obtain ⟨⟨n, o⟩, hnet, heq⟩ := Option.map_eq_some_iff.mp hs
  cases heq
  exact ⟨⟨o, hnet⟩, rfl, rfl⟩

theorem closed_drop {p : P} {ch : ChannelId} {i : Nat}
    (hs : (closed mp).step w (.drop p ch i) = some (w', out)) :
    (∃ o, (network mp).step w.net (.drop p ch i) = some (w'.net, o)) ∧ w'.sent = w.sent ∧
      out = [] := by
  obtain ⟨⟨n, o⟩, hnet, heq⟩ := Option.map_eq_some_iff.mp hs
  cases heq
  exact ⟨⟨o, hnet⟩, rfl, rfl⟩

theorem closed_tick {p : P} {env : ClientEnv} {c : TickCall}
    (hs : (closed mp).step w (.tick p env c) = some (w', out)) :
    ∃ o s, (network mp).step w.net (.tick p env c) = some (w'.net, o) ∧
      tryExecuteTick mp env (w.net.client p) c = some (s, o) ∧
      w'.sent = launchFrom w p o ∧ out = o.map (.client p) := by
  obtain ⟨⟨n, o⟩, hnet, heq⟩ := Option.map_eq_some_iff.mp hs
  cases heq
  obtain ⟨s, htick, -⟩ := network_tick (w := w.net) hnet
  exact ⟨o, s, hnet, htick, rfl, rfl⟩

/-- What the server sends, it sends on a packet that arrives. -/
theorem closed_server_output {e : ClosedEvent P} {o : Output P}
    (hs : (closed mp).step w e = some (w', out)) (ho : .server o ∈ out) :
    ∃ p ch i env d t' os, e = .arrive p ch i env ∧ (w.sent p ch)[i]? = some d ∧
      (server mp).step w.net.table (.receive env p d) = some (t', os) ∧ o ∈ os := by
  cases e with
  | connect p =>
    obtain ⟨-, -, rfl⟩ := closed_connect hs
    exact absurd ho List.not_mem_nil
  | request p env =>
    obtain ⟨-, -, rfl⟩ := closed_request hs
    obtain ⟨o', -, heq⟩ := List.mem_map.mp ho
    cases heq
  | arrive p ch i env =>
    obtain ⟨-, d, t', os, hd, hserver, -, -, -, rfl⟩ := closed_arrive hs
    obtain ⟨o', ho', heq⟩ := List.mem_map.mp ho
    cases heq
    exact ⟨p, ch, i, env, d, t', os, rfl, hd, hserver, ho'⟩
  | lose p ch i =>
    obtain ⟨-, rfl⟩ := closed_lose hs
    exact absurd ho List.not_mem_nil
  | disconnect p =>
    obtain ⟨-, -, rfl⟩ := closed_disconnect hs
    exact absurd ho List.not_mem_nil
  | deliver p ch i env =>
    obtain ⟨-, -, rfl⟩ := closed_deliver hs
    obtain ⟨s, -, heq⟩ := Option.map_eq_some_iff.mp (Option.mem_toList.mp ho)
    cases heq
  | drop p ch i =>
    obtain ⟨-, -, rfl⟩ := closed_drop hs
    exact absurd ho List.not_mem_nil
  | tick p env c =>
    obtain ⟨o', s, -, -, -, rfl⟩ := closed_tick hs
    obtain ⟨o', -, heq⟩ := List.mem_map.mp ho
    cases heq

/-- What a client prints, it prints of a packet that is delivered to it. -/
theorem closed_printed_output {e : ClosedEvent P} {p : P} {s : Printed}
    (hs : (closed mp).step w e = some (w', out)) (ho : .printed p s ∈ out) :
    ∃ ch i env d, e = .deliver p ch i env ∧ (w.net.flight p ch)[i]? = some d ∧
      printGameState mp env (w.net.client p) d = some s := by
  cases e with
  | connect q =>
    obtain ⟨-, -, rfl⟩ := closed_connect hs
    exact absurd ho List.not_mem_nil
  | request q env =>
    obtain ⟨-, -, rfl⟩ := closed_request hs
    obtain ⟨o', -, heq⟩ := List.mem_map.mp ho
    cases heq
  | arrive q ch i env =>
    obtain ⟨-, d, t', os, -, -, -, -, -, rfl⟩ := closed_arrive hs
    obtain ⟨o', -, heq⟩ := List.mem_map.mp ho
    cases heq
  | lose q ch i =>
    obtain ⟨-, rfl⟩ := closed_lose hs
    exact absurd ho List.not_mem_nil
  | disconnect q =>
    obtain ⟨-, -, rfl⟩ := closed_disconnect hs
    exact absurd ho List.not_mem_nil
  | deliver q ch i env =>
    obtain ⟨-, -, rfl⟩ := closed_deliver hs
    obtain ⟨s', hs', heq⟩ := Option.map_eq_some_iff.mp (Option.mem_toList.mp ho)
    cases heq
    obtain ⟨d, hd, hprint⟩ := Option.bind_eq_some_iff.mp hs'
    exact ⟨ch, i, env, d, rfl, hd, hprint⟩
  | drop q ch i =>
    obtain ⟨-, -, rfl⟩ := closed_drop hs
    exact absurd ho List.not_mem_nil
  | tick q env c =>
    obtain ⟨o', s, -, -, -, rfl⟩ := closed_tick hs
    obtain ⟨o', -, heq⟩ := List.mem_map.mp ho
    cases heq

/-- A step of the closed system is a step of the open one, or none; the disconnects are the same. -/
theorem closed_step_network {e : ClosedEvent P} (hs : (closed mp).step w e = some (w', out)) :
    w'.net = w.net ∨ ∃ e' o, (network mp).step w.net e' = some (w'.net, o) ∧
      ∀ q, e' = .disconnect q → e = .disconnect q := by
  cases e with
  | connect p => exact .inr ⟨_, _, (closed_connect hs).1, by simp⟩
  | request p env => exact .inl (closed_request hs).1
  | arrive p ch i env =>
    obtain ⟨-, d, t', os, -, -, hnet, -⟩ := closed_arrive hs
    exact .inr ⟨_, _, hnet, by simp⟩
  | lose p ch i =>
    obtain ⟨rfl, -⟩ := closed_lose hs
    exact .inl rfl
  | disconnect p =>
    obtain ⟨⟨o, hnet⟩, -⟩ := closed_disconnect hs
    exact .inr ⟨_, _, hnet, by simp⟩
  | deliver p ch i env =>
    obtain ⟨⟨o, hnet⟩, -⟩ := closed_deliver hs
    exact .inr ⟨_, _, hnet, by simp⟩
  | drop p ch i =>
    obtain ⟨⟨o, hnet⟩, -⟩ := closed_drop hs
    exact .inr ⟨_, _, hnet, by simp⟩
  | tick p env c =>
    obtain ⟨o, s, hnet, -⟩ := closed_tick hs
    exact .inr ⟨_, _, hnet, by simp⟩

/-- The seats are kept and the peers informed. -/
theorem closed_informed (hmp : mp.Lawful) {r : ServerRoster P} (h : Informed mp w.net r)
    {e : ClosedEvent P} (hs : (closed mp).step w e = some (w', out)) :
    ∃ r', Informed mp w'.net r' ∧ ∀ i p m, e ≠ .disconnect p → r.seat i = some ⟨p, m⟩ →
      r'.seat i = some ⟨p, m⟩ := by
  rcases closed_step_network hs with hsame | ⟨e', o, hnet, hleave⟩
  · exact ⟨r, hsame ▸ h, fun i p m _ hi => hi⟩
  · exact ⟨_, informed_step hmp h hnet, fun i p m hstay hi =>
      networkRoster_keeps hi fun he => hstay (hleave p he)⟩

/-- The steps of the closed system. -/
abbrev ClosedMove (P : Type) : Type := Step (Closed P) (ClosedEvent P) (ClosedOutput P)

/-- **A run of the closed system is one of the open system.** -/
theorem closed_network {tr : List (ClosedMove P)} (hr : Run (closed mp) .init tr w) :
    Reachable (network mp) .init w.net := by
  refine hr.invariantWhere (I := fun w => Reachable (network mp) .init w.net)
    (P := fun _ => True) ?_ (fun _ _ => trivial) ⟨[], Run.nil _⟩
  rintro w e w' out ⟨tu, hrun⟩ - hs
  rcases closed_step_network hs with hsame | ⟨e', o, hnet, -⟩
  · exact ⟨tu, hsame ▸ hrun⟩
  · exact ⟨_, hrun.append (Run.single hnet)⟩

/-! ## What a client sends -/

/-- What a registration sends. -/
theorem request_sends (env : ClientEnv) (ch : ChannelId) :
    ((requestUserInfo env).map ClientOutput.sent).filterMap (leaves ch) = [] ∨
      ch = .critical ∧ ((requestUserInfo env).map ClientOutput.sent).filterMap (leaves ch) =
        [frame .reqUserInfo none] := by
  unfold requestUserInfo
  split
  · exact .inl rfl
  · split
    · exact .inl rfl
    · rename_i o hsend
      obtain ⟨p, -, rfl⟩ := trySend_eq_ok hsend
      by_cases hch : ch = .critical
      · subst hch
        exact .inr ⟨rfl, rfl⟩
      · refine .inl ?_
        simp [leaves, arrives, Ne.symm hch]

/-- What a call of a master that is ready sends. -/
theorem sendGameState_sends (env : ClientEnv) (gs : GameState) (ch : ChannelId) :
    (sendGameState mp env gs).filterMap (leaves ch) = [] ∨
      ch = .stream ∧ (sendGameState mp env gs).filterMap (leaves ch) = [statePacket mp gs] := by
  unfold sendGameState
  split
  · exact .inl rfl
  · rename_i sbuf hpack
    obtain rfl := packed_eq_ok (emits_gameState gs) hpack
    split
    · exact .inl rfl
    · rename_i o hsend
      obtain ⟨p, -, rfl⟩ := trySend_eq_ok hsend
      by_cases hch : ch = .stream
      · subst hch
        exact .inr ⟨rfl, rfl⟩
      · refine .inl ?_
        simp [leaves, arrives, Ne.symm hch]

/-- What a slave's call sends. -/
theorem slaveTick_sends {env : ClientEnv} {s : Shared} {ui : UserInfo} {input : UserInput}
    {sent : List (Output Unit)} (hui : s.myUserInfo = some ui)
    (h : handleCmdSlaveTick mp env s input = some sent) (ch : ChannelId) :
    (sent.map ClientOutput.sent ++ [ClientOutput.returned (.ok ())]).filterMap (leaves ch) = [] ∨
      ch = .streamPuppetInputs ∧
        (sent.map ClientOutput.sent ++ [ClientOutput.returned (.ok ())]).filterMap (leaves ch) =
          [inputPacket mp ⟨ui.id, input.x, input.y⟩] := by
  unfold handleCmdSlaveTick at h
  rw [hui] at h
  dsimp only at h
  split at h
  · cases h
    exact .inl rfl
  · rename_i sbuf hpack
    obtain rfl := packed_eq_ok (emits_playerInput _) hpack
    split at h
    · cases h
      exact .inl rfl
    · rename_i o hsend
      cases h
      obtain ⟨p, -, rfl⟩ := trySend_eq_ok hsend
      by_cases hch : ch = .streamPuppetInputs
      · subst hch
        exact .inr ⟨rfl, rfl⟩
      · refine .inl ?_
        simp [leaves, arrives, Ne.symm hch]

/-- **All a call of `try_execute_tick` can send**: nothing, a master's state, or a slave's input. -/
theorem tick_sends {env : ClientEnv} {s s' : Shared} {c : TickCall} {o : List ClientOutput}
    (h : tryExecuteTick mp env s c = some (s', o)) (ch : ChannelId) :
    o.filterMap (leaves ch) = [] ∨
      (ch = .stream ∧ ∃ ui gs, s.myUserInfo = some ui ∧ ui.isMaster = true ∧
        o.filterMap (leaves ch) = [statePacket mp gs]) ∨
      ch = .streamPuppetInputs ∧ ∃ ui, s.myUserInfo = some ui ∧ ui.isMaster = false ∧
        o.filterMap (leaves ch) = [inputPacket mp ⟨ui.id, c.userInput.x, c.userInput.y⟩] := by
  rcases tryExecuteTick_cases h with ⟨-, err, rfl⟩ |
    ⟨ui, gs, inputs, hui, hmaster, -, -, -, rfl⟩ | ⟨ui, sent, hui, hslave, hsent, -, rfl⟩
  · exact .inl rfl
  · rcases sendGameState_sends env _ ch with hnone | ⟨rfl, hstate⟩
    · exact .inl hnone
    · exact .inr (.inl ⟨rfl, ui, _, hui, hmaster, hstate⟩)
  · rcases slaveTick_sends hui hsent ch with hnone | ⟨rfl, hinput⟩
    · exact .inl hnone
    · exact .inr (.inr ⟨rfl, ui, hui, hslave, hinput⟩)

end MasterRelay.Game
