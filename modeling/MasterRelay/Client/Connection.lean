import MasterRelay.Lib.Runs
import MasterRelay.Protocol.Send

/-!
# The ENet handles of the client

`CLIENT_HOST`, `CLIENT_PEER` and `IS_DISCONNECTED` under the loop of `net_bg_thread`. One turn of
the loop is one step: a poll, if there is a host, and at most one command. The outputs of a step are
the calls of ENet it makes, with the handles it passes; what ENet does with a NULL handle is not the
program's, so the step goes on.

The other threads use the handles in `try_execute_tick` only. They hand `CLIENT_PEER` to
`try_enet_peer_send`, which looks at it first, and their packets are not forced, so they do not use
`CLIENT_HOST`.

`handles_cases` says which steps pass NULL: those that execute a `DISCONNECT_N_FREE` without a host.
**`handles_valid_iff`**: over a run, no call passes NULL exactly when a `CONNECT` has succeeded
before each `DISCONNECT_N_FREE` that is executed.
-/

namespace MasterRelay.Client

open MasterRelay.Lib.MsgPack
open MasterRelay.Lib.Runs
open MasterRelay.Protocol

/-- `ENetEventType`. -/
inductive ENetEventType where
  | none
  | connect
  | disconnect
  | receive
  deriving DecidableEq, Repr

/-- `strct_msg_connect`. -/
structure ConnectMsg where
  host : String
  port : Int
  deriving DecidableEq, Repr

/-- `strct_client_command_msg`; `none` is a NULL `data`. -/
inductive ClientCommand where
  | connect (data : Option ConnectMsg)
  | disconnectNFree
  | reqUserInfo
  deriving DecidableEq, Repr

/-- A call of ENet with the handles it gets, or returns for `enet_host_create`; `none` is NULL. -/
inductive ENetCall (H Q : Type) where
  | hostCreate (res : Option H)
  | hostConnect (host : H)
  | peerTimeout (peer : Q)
  | hostService (host : Option H)
  | peerReset (peer : Q)
  | peerDisconnect (peer : Option Q)
  | hostDestroy (host : Option H)
  | hostFlush (host : Option H)
  | peerSend (peer : Option Q)
  deriving DecidableEq, Repr

/-- The call passes NULL. -/
def ENetCall.passesNull {H Q : Type} : ENetCall H Q → Bool
  | .hostService host => host.isNone
  | .peerDisconnect peer => peer.isNone
  | .hostDestroy host => host.isNone
  | .hostFlush host => host.isNone
  | .peerSend peer => peer.isNone
  | _ => false

/-- What the net thread learns from outside in one turn: the results of the functions
`handle_cmd_connect_to_host` calls, and the events `enet_host_service` yields in a row to the
command that is handled, until it yields none. -/
structure NetEnv (H Q : Type) where
  hostCreate : Option H
  checkHost : String → Bool
  addressSetHost : String → Bool
  hostConnect : String → Int → Option Q
  service : List ENetEventType
  send : Env Q

/-- The handles. -/
structure Handles (H Q : Type) where
  clientHost : Option H
  clientPeer : Option Q
  isDisconnected : Bool

variable {H Q : Type}

/-- Before the threads start. -/
def Handles.init : Handles H Q := ⟨none, none, false⟩

/-- The calls of `try_enet_peer_send`. -/
def peerSendCalls (env : Env Q) (peer : Option Q) (channel : ChannelId) (packet : Option Bytes) :
    List (ENetCall H Q) :=
  match peer, packet with
  | some p, some data =>
    if (env.peer p).state = enetPeerStateConnected ∧ channel.toNat < (env.peer p).channelCount ∧
        data.length ≤ (env.peer p).maximumPacketSize then [.peerSend peer]
    else []
  | _, _ => []

/-- The calls of `ifb_ptcl_try_send_msg_packet`. -/
def sendMsgCalls (env : Env Q) (t : MessageType) (channel : ChannelId) (sbuf : Option Bytes)
    (peer : Option Q) (host : Option H) (reliable forced : Bool) : List (ENetCall H Q) :=
  if isSuitableMsgType t && env.malloc t then
    peerSendCalls env peer channel (enetPacketCreate env t (frame t sbuf)) ++
      match ifbPtclTrySendMsgPacket env t channel sbuf peer reliable forced with
      | .ok _ => if forced then [.hostFlush host] else []
      | .error _ => []
  else []

/-- The loop of `handle_cmd_disconnect_n_free`. -/
def waitDisconnect (host : Option H) : List ENetEventType → List (ENetCall H Q)
  | [] => [.hostService host]
  | ev :: evs => .hostService host :: if ev = .disconnect then [] else waitDisconnect host evs

/-- `handle_cmd_disconnect_n_free`. -/
def handleCmdDisconnectNFree (env : NetEnv H Q) (s : Handles H Q) :
    Handles H Q × List (ENetCall H Q) :=
  if s.isDisconnected then (s, [])
  else (⟨none, none, true⟩,
    .peerDisconnect s.clientPeer :: waitDisconnect s.clientHost env.service ++
      [.hostDestroy s.clientHost])

/-- The loop of `handle_cmd_connect_to_host` that waits for the connection: `is_connected` at its
end, and its calls. -/
def waitConnect (client : H) : Bool → List ENetEventType → Bool × List (ENetCall H Q)
  | isConnected, [] => (isConnected, [.hostService (some client)])
  | true, _ :: _ => (true, [.hostService (some client)])
  | false, ev :: evs =>
    let r := waitConnect client (decide (ev = .connect)) evs
    (r.1, .hostService (some client) :: r.2)

/-- `handle_cmd_connect_to_host`. -/
def handleCmdConnectToHost (env : NetEnv H Q) (msg : ConnectMsg) (s : Handles H Q) :
    Handles H Q × List (ENetCall H Q) :=
  match env.hostCreate with
  | none => (s, [.hostCreate none])
  | some client =>
    if !env.checkHost msg.host then (s, [.hostCreate (some client)])
    else if !env.addressSetHost msg.host then (s, [.hostCreate (some client)])
    else
      match env.hostConnect msg.host msg.port with
      | none => (s, [.hostCreate (some client), .hostConnect client])
      | some peer =>
        let calls := [.hostCreate (some client), .hostConnect client, .peerTimeout peer]
        let r := waitConnect client false env.service
        if r.1 then
          ({ s with clientHost := some client, clientPeer := some peer }, calls ++ r.2)
        else (s, calls ++ r.2 ++ [.peerReset peer])

/-- The `switch` over the command. -/
def handleCommand (env : NetEnv H Q) (s : Handles H Q) :
    ClientCommand → Handles H Q × List (ENetCall H Q)
  | .connect none => (s, [])
  | .connect (some msg) => handleCmdConnectToHost env msg s
  | .disconnectNFree => handleCmdDisconnectNFree env s
  | .reqUserInfo =>
    match s.clientPeer with
    | none => (s, [])
    | some _ => (s, sendMsgCalls env.send .reqUserInfo .critical none s.clientPeer s.clientHost
        true true)

/-- The call of `handle_net_events_loop`. -/
def pollCalls (s : Handles H Q) : List (ENetCall H Q) :=
  if s.clientHost.isSome then [.hostService s.clientHost] else []

/-- One turn of the loop of `net_bg_thread`, where `ifb_safe_queue_try_pop` gave `popped`: nothing,
or a command message, which may be NULL. -/
def netTurn (env : NetEnv H Q) (popped : Option (Option ClientCommand)) (s : Handles H Q) :
    Handles H Q × List (ENetCall H Q) :=
  if s.isDisconnected then (s, [])
  else
    match popped with
    | none => (s, pollCalls s)
    | some none => (s, pollCalls s)
    | some (some cmd) =>
      ((handleCommand env s cmd).1, pollCalls s ++ (handleCommand env s cmd).2)

/-- A turn of the net thread, or a call of `try_execute_tick` that gets to sending what it has
packed. -/
inductive NetEvent (H Q : Type) where
  | turn (env : NetEnv H Q) (popped : Option (Option ClientCommand))
  | tick (env : Env Q) (t : MessageType) (channel : ChannelId) (sbuf : Bytes)

/-- One step. -/
def handlesStep (s : Handles H Q) : NetEvent H Q → Option (Handles H Q × List (ENetCall H Q))
  | .turn env popped => some (netTurn env popped s)
  | .tick env t channel sbuf => some (s, sendMsgCalls env t channel (some sbuf) s.clientPeer
      s.clientHost false false)

/-- **The handles.** -/
def netThread : System (Handles H Q) (NetEvent H Q) (ENetCall H Q) := ⟨handlesStep⟩

/-! ## What a step does to the handles -/

/-- The `CONNECT` succeeds. -/
def NetEnv.connects (env : NetEnv H Q) (msg : ConnectMsg) : Bool :=
  env.hostCreate.isSome && env.checkHost msg.host && env.addressSetHost msg.host &&
    (env.hostConnect msg.host msg.port).isSome && env.service.contains .connect

/-- The step executes a `CONNECT` that succeeds. -/
def ConnectsToHost (x : Step (Handles H Q) (NetEvent H Q) (ENetCall H Q)) : Prop :=
  ∃ env msg, x.event = .turn env (some (some (.connect (some msg)))) ∧
    x.pre.isDisconnected = false ∧ env.connects msg = true

/-- The step executes a `DISCONNECT_N_FREE`. -/
def DisconnectsAndFrees (x : Step (Handles H Q) (NetEvent H Q) (ENetCall H Q)) : Prop :=
  ∃ env, x.event = .turn env (some (some .disconnectNFree)) ∧ x.pre.isDisconnected = false

/-- The two handles are set and cleared together, and stay cleared after a disconnect. -/
structure HandlesAgree (s : Handles H Q) : Prop where
  together : s.clientHost.isSome = s.clientPeer.isSome
  freed : s.isDisconnected = true → s.clientHost = none

/-- `is_connected` at the end of the wait: a `CONNECT` event came. -/
theorem waitConnect_result (client : H) : ∀ (b : Bool) (evs : List ENetEventType),
    (waitConnect (Q := Q) client b evs).1 = (b || evs.contains .connect)
  | true, [] => rfl
  | false, [] => rfl
  | true, _ :: _ => rfl
  | false, ev :: evs => by
    show (waitConnect (Q := Q) client (decide (ev = .connect)) evs).1 = _
    rw [waitConnect_result client _ evs, Bool.false_or, List.contains_cons]
    cases ev <;> rfl

theorem waitConnect_calls (client : H) : ∀ (b : Bool) (evs : List ENetEventType),
    ∀ c ∈ (waitConnect (Q := Q) client b evs).2, c = .hostService (some client)
  | true, [], _, hc => List.mem_singleton.mp hc
  | false, [], _, hc => List.mem_singleton.mp hc
  | true, _ :: _, _, hc => List.mem_singleton.mp hc
  | false, ev :: evs, c, hc => by
    rcases List.mem_cons.mp hc with rfl | hc'
    · rfl
    · exact waitConnect_calls client _ evs c hc'

theorem waitDisconnect_calls (host : Option H) (evs : List ENetEventType) :
    ∀ c ∈ waitDisconnect (Q := Q) host evs, c = .hostService host := by
  induction evs with
  | nil => exact fun c hc => List.mem_singleton.mp hc
  | cons ev evs ih =>
    intro c hc
    rcases List.mem_cons.mp hc with rfl | hc'
    · rfl
    · split_ifs at hc'
      · exact absurd hc' List.not_mem_nil
      · exact ih c hc'

/-- **Sending passes no NULL**, where a forced packet has a host. -/
theorem sendMsgCalls_valid {env : Env Q} {t : MessageType} {channel : ChannelId}
    {sbuf : Option Bytes} {peer : Option Q} {host : Option H} {reliable forced : Bool}
    (hhost : forced = true → peer.isSome = true → host.isSome = true) :
    ∀ c ∈ sendMsgCalls env t channel sbuf peer host reliable forced, c.passesNull = false := by
  intro c hc
  unfold sendMsgCalls at hc
  split at hc
  · rcases List.mem_append.mp hc with hc' | hc'
    · -- `try_enet_peer_send` looks at the peer first
      unfold peerSendCalls at hc'
      split at hc'
      · split_ifs at hc'
        · rw [List.mem_singleton.mp hc']
          rfl
        · exact absurd hc' List.not_mem_nil
      · exact absurd hc' List.not_mem_nil
    · split at hc'
      · rename_i o hok
        split_ifs at hc' with hforced
        · obtain ⟨p, rfl, -⟩ := trySend_eq_ok hok
          rw [List.mem_singleton.mp hc']
          exact Option.isNone_eq_false_iff.mpr (hhost hforced rfl)
        · exact absurd hc' List.not_mem_nil
      · exact absurd hc' List.not_mem_nil
  · exact absurd hc List.not_mem_nil

/-- **All a `CONNECT` can do**: publish both handles when it succeeds, and nothing otherwise; it
passes the handles it has just got. -/
theorem connectToHost_cases (env : NetEnv H Q) (msg : ConnectMsg) (s : Handles H Q) :
    ((env.connects msg = true ∧ ∃ host peer,
        (handleCmdConnectToHost env msg s).1 = ⟨some host, some peer, s.isDisconnected⟩) ∨
      env.connects msg = false ∧ (handleCmdConnectToHost env msg s).1 = s) ∧
    ∀ c ∈ (handleCmdConnectToHost env msg s).2, c.passesNull = false := by
  have hwait : ∀ client : H, ∀ c ∈ (waitConnect (Q := Q) client false env.service).2,
      c.passesNull = false := by
    intro client c hc
    rw [waitConnect_calls client false env.service c hc]
    rfl
  unfold NetEnv.connects handleCmdConnectToHost
  cases hcreate : env.hostCreate with
  | none =>
    exact ⟨.inr ⟨rfl, rfl⟩, by simp [ENetCall.passesNull]⟩
  | some client =>
    cases hcheck : env.checkHost msg.host with
    | false => exact ⟨.inr ⟨rfl, rfl⟩, by simp [ENetCall.passesNull]⟩
    | true =>
      cases hset : env.addressSetHost msg.host with
      | false => exact ⟨.inr ⟨rfl, rfl⟩, by simp [ENetCall.passesNull]⟩
      | true =>
        cases hconnect : env.hostConnect msg.host msg.port with
        | none => exact ⟨.inr ⟨rfl, rfl⟩, by simp [ENetCall.passesNull]⟩
        | some peer =>
          have hresult := waitConnect_result (Q := Q) client false env.service
          rw [Bool.false_or] at hresult
          have hcalls : ∀ c ∈ [ENetCall.hostCreate (some client), .hostConnect client,
              .peerTimeout peer] ++ (waitConnect client false env.service).2,
              c.passesNull = false := by
            intro c hc
            rcases List.mem_append.mp hc with hc' | hc'
            · simp only [List.mem_cons, List.not_mem_nil, or_false] at hc'
              rcases hc' with rfl | rfl | rfl <;> rfl
            · exact hwait client c hc'
          cases hcontains : env.service.contains .connect with
          | true =>
            rw [hcontains] at hresult
            simp only [Bool.not_true, Bool.false_eq_true, if_false, hresult, if_true]
            exact ⟨.inl ⟨rfl, client, peer, rfl⟩, hcalls⟩
          | false =>
            rw [hcontains] at hresult
            simp only [Bool.not_true, Bool.false_eq_true, if_false, hresult]
            refine ⟨.inr ⟨rfl, trivial⟩, fun c hc => ?_⟩
            rcases List.mem_append.mp hc with hc' | hc'
            · exact hcalls c hc'
            · rw [List.mem_singleton.mp hc']
              rfl

theorem pollCalls_valid (s : Handles H Q) : ∀ c ∈ pollCalls s, c.passesNull = false := by
  intro c hc
  unfold pollCalls at hc
  split_ifs at hc with hhost
  · rw [List.mem_singleton.mp hc]
    exact Option.isNone_eq_false_iff.mpr hhost
  · exact absurd hc List.not_mem_nil

/-- The calls of `handle_cmd_disconnect_n_free`: all with the two handles, and valid when they
are. -/
theorem disconnectNFree_calls (env : NetEnv H Q) {s : Handles H Q} (h : HandlesAgree s)
    (hnot : s.isDisconnected = false) :
    (∀ c ∈ (handleCmdDisconnectNFree env s).2, c.passesNull = false) ↔
      s.clientHost.isSome = true := by
  unfold handleCmdDisconnectNFree
  rw [if_neg (Bool.eq_false_iff.mp hnot)]
  constructor
  · intro hall
    have hpeer := hall (.peerDisconnect s.clientPeer) List.mem_cons_self
    rw [h.together]
    exact Option.isNone_eq_false_iff.mp hpeer
  · intro hhost c hc
    have hpeer : s.clientPeer.isSome = true := h.together ▸ hhost
    rcases List.mem_append.mp hc with hc' | hc'
    · rcases List.mem_cons.mp hc' with rfl | hc''
      · exact Option.isNone_eq_false_iff.mpr hpeer
      · rw [waitDisconnect_calls _ _ c hc'']
        exact Option.isNone_eq_false_iff.mpr hhost
    · rw [List.mem_singleton.mp hc']
      exact Option.isNone_eq_false_iff.mpr hhost

variable {s s' : Handles H Q} {e : NetEvent H Q} {out : List (ENetCall H Q)}

/-- **All a command can do**: leave the handles alone, publish both, or clear both for good. -/
theorem handleCommand_cases (h : HandlesAgree s) (hnot : s.isDisconnected = false)
    (env : NetEnv H Q) (cmd : ClientCommand) :
    ((handleCommand env s cmd).1 = s ∧
      (∀ msg, cmd = .connect (some msg) → env.connects msg = false) ∧ cmd ≠ .disconnectNFree ∧
      ∀ c ∈ (handleCommand env s cmd).2, c.passesNull = false) ∨
    (∃ msg host peer, cmd = .connect (some msg) ∧ env.connects msg = true ∧
      (handleCommand env s cmd).1 = ⟨some host, some peer, false⟩ ∧
      ∀ c ∈ (handleCommand env s cmd).2, c.passesNull = false) ∨
    cmd = .disconnectNFree ∧ (handleCommand env s cmd).1 = ⟨none, none, true⟩ ∧
      ((∀ c ∈ (handleCommand env s cmd).2, c.passesNull = false) ↔
        s.clientHost.isSome = true) := by
  cases cmd with
  | connect data =>
    cases data with
    | none => exact .inl ⟨rfl, by simp, by simp, fun c hc => absurd hc List.not_mem_nil⟩
    | some msg =>
      obtain ⟨⟨hok, host, peer, heq⟩ | ⟨hok, heq⟩, hcalls⟩ := connectToHost_cases env msg s
      · rw [hnot] at heq
        exact .inr (.inl ⟨msg, host, peer, rfl, hok, heq, hcalls⟩)
      · refine .inl ⟨heq, fun msg' he => ?_, by simp, hcalls⟩
        cases he
        exact hok
  | disconnectNFree =>
    refine .inr (.inr ⟨rfl, ?_, disconnectNFree_calls env h hnot⟩)
    show (handleCmdDisconnectNFree env s).1 = _
    rw [handleCmdDisconnectNFree, if_neg (Bool.eq_false_iff.mp hnot)]
  | reqUserInfo =>
    refine .inl ?_
    unfold handleCommand
    cases hpeer : s.clientPeer with
    | none => exact ⟨rfl, by simp, by simp, fun c hc => absurd hc List.not_mem_nil⟩
    | some p =>
      refine ⟨rfl, by simp, by simp, sendMsgCalls_valid fun _ _ => ?_⟩
      rw [h.together, hpeer]
      rfl

/-- **All a step can do to the handles**, and what it passes. -/
theorem handles_cases (h : HandlesAgree s) (hs : netThread.step s e = some (s', out)) :
    (s' = s ∧ ¬ ConnectsToHost ⟨s, e, out, s'⟩ ∧ ¬ DisconnectsAndFrees ⟨s, e, out, s'⟩ ∧
      ∀ c ∈ out, c.passesNull = false) ∨
    ((∃ host peer, s' = ⟨some host, some peer, false⟩) ∧ ConnectsToHost ⟨s, e, out, s'⟩ ∧
      ¬ DisconnectsAndFrees ⟨s, e, out, s'⟩ ∧ ∀ c ∈ out, c.passesNull = false) ∨
    s' = ⟨none, none, true⟩ ∧ DisconnectsAndFrees ⟨s, e, out, s'⟩ ∧
      ((∀ c ∈ out, c.passesNull = false) ↔ s.clientHost.isSome = true) := by
  have hpolled : ∀ calls : List (ENetCall H Q), (∀ c ∈ pollCalls s ++ calls, c.passesNull = false) ↔
      ∀ c ∈ calls, c.passesNull = false := by
    intro calls
    rw [List.forall_mem_append]
    exact ⟨And.right, fun hc => ⟨pollCalls_valid s, hc⟩⟩
  cases e with
  | tick env t channel sbuf =>
    cases hs
    refine .inl ⟨rfl, ?_, ?_, sendMsgCalls_valid (fun hf => absurd hf Bool.false_ne_true)⟩
    · rintro ⟨env', msg, he, -⟩
      cases he
    · rintro ⟨env', he, -⟩
      cases he
  | turn env popped =>
    have hturn : netTurn env popped s = (s', out) := Option.some.inj hs
    unfold netTurn at hturn
    by_cases hdis : s.isDisconnected = true
    · -- the loop does nothing any more
      rw [if_pos hdis] at hturn
      obtain ⟨rfl, rfl⟩ := Prod.mk.inj hturn
      refine .inl ⟨rfl, ?_, ?_, fun c hc => absurd hc List.not_mem_nil⟩
      · rintro ⟨env', msg, -, hnot, -⟩
        exact absurd hdis (Bool.eq_false_iff.mp hnot)
      · rintro ⟨env', -, hnot⟩
        exact absurd hdis (Bool.eq_false_iff.mp hnot)
    · rw [if_neg hdis] at hturn
      have hnot : s.isDisconnected = false := Bool.eq_false_iff.mpr hdis
      rcases popped with _ | _ | cmd
      · obtain ⟨rfl, rfl⟩ := Prod.mk.inj hturn
        refine .inl ⟨rfl, ?_, ?_, pollCalls_valid s⟩
        · rintro ⟨env', msg, he, -⟩
          cases he
        · rintro ⟨env', he, -⟩
          cases he
      · obtain ⟨rfl, rfl⟩ := Prod.mk.inj hturn
        refine .inl ⟨rfl, ?_, ?_, pollCalls_valid s⟩
        · rintro ⟨env', msg, he, -⟩
          cases he
        · rintro ⟨env', he, -⟩
          cases he
      · obtain ⟨hpost, rfl⟩ := Prod.mk.inj hturn
        rw [hpolled]
        rcases handleCommand_cases h hnot env cmd with ⟨heq, hfail, hne, hcalls⟩ |
          ⟨msg, host, peer, rfl, hok, heq, hcalls⟩ | ⟨rfl, heq, hcalls⟩
        · refine .inl ⟨hpost.symm.trans heq, ?_, ?_, hcalls⟩
          · rintro ⟨env', msg, he, -, hok⟩
            cases he
            exact absurd hok (by simp [hfail msg rfl])
          · rintro ⟨env', he, -⟩
            cases he
            exact hne rfl
        · refine .inr (.inl ⟨⟨host, peer, hpost.symm.trans heq⟩, ⟨env, msg, rfl, hnot, hok⟩, ?_,
            hcalls⟩)
          rintro ⟨env', he, -⟩
          cases he
        · exact .inr (.inr ⟨hpost.symm.trans heq, ⟨env, rfl, hnot⟩, hcalls⟩)

/-- A step keeps the handles together. -/
theorem handlesAgree_step (h : HandlesAgree s) (hs : netThread.step s e = some (s', out)) :
    HandlesAgree s' := by
  rcases handles_cases h hs with ⟨rfl, -⟩ | ⟨⟨host, peer, rfl⟩, -⟩ | ⟨rfl, -⟩
  · exact h
  · exact ⟨rfl, fun hd => by cases hd⟩
  · exact ⟨rfl, fun _ => rfl⟩

/-- **There is a host when a `CONNECT` has succeeded**, until the disconnect. -/
theorem host_run {tr : List (Step (Handles H Q) (NetEvent H Q) (ENetCall H Q))}
    (hr : Run netThread .init tr s) : HandlesAgree s ∧
      (s.isDisconnected = false → (s.clientHost.isSome = true ↔ ∃ y ∈ tr, ConnectsToHost y)) := by
  refine hr.trace (I := fun tr s => HandlesAgree s ∧
    (s.isDisconnected = false → (s.clientHost.isSome = true ↔ ∃ y ∈ tr, ConnectsToHost y))) ?_ ?_
  · rintro tr s e s' out ⟨h, hhost⟩ hs
    refine ⟨handlesAgree_step h hs, fun hnot => ?_⟩
    have hsnoc : (∃ y ∈ tr ++ [⟨s, e, out, s'⟩], ConnectsToHost y) ↔
        (∃ y ∈ tr, ConnectsToHost y) ∨ ConnectsToHost ⟨s, e, out, s'⟩ := by
      simp only [List.mem_append, List.mem_singleton, or_and_right, exists_or, exists_eq_left]
    rw [hsnoc]
    rcases handles_cases h hs with ⟨rfl, hconn, -⟩ | ⟨⟨host, peer, rfl⟩, hconn, -⟩ | ⟨rfl, -⟩
    · rw [hhost hnot]
      exact (or_iff_left hconn).symm
    · exact iff_of_true rfl (.inr hconn)
    · cases hnot
  · exact ⟨⟨rfl, fun hd => by cases hd⟩, fun _ => iff_of_false (by simp [Handles.init]) (by simp)⟩

/-- **When the handles are valid.** In a run from the start, no call of ENet gets a NULL handle if
and only if every `DISCONNECT_N_FREE` that is executed comes after a `CONNECT` that succeeded. -/
theorem handles_valid_iff {tr : List (Step (Handles H Q) (NetEvent H Q) (ENetCall H Q))}
    (hr : Run netThread .init tr s) : (∀ x ∈ tr, ∀ c ∈ x.out, c.passesNull = false) ↔
      ∀ t₁ x t₂, tr = t₁ ++ x :: t₂ → DisconnectsAndFrees x → ∃ y ∈ t₁, ConnectsToHost y := by
  -- one step of the run, after the steps before it
  have hstep : ∀ t₁ x t₂, tr = t₁ ++ x :: t₂ → ((∀ c ∈ x.out, c.passesNull = false) ↔
      (DisconnectsAndFrees x → ∃ y ∈ t₁, ConnectsToHost y)) := by
    rintro t₁ x t₂ rfl
    obtain ⟨hr₁, hs, -⟩ := hr.split
    obtain ⟨h, hhost⟩ := host_run hr₁
    rcases handles_cases h hs with ⟨-, -, hfree, hcalls⟩ | ⟨-, -, hfree, hcalls⟩ |
      ⟨-, hfree, hcalls⟩
    · exact iff_of_true hcalls fun hf => absurd hf hfree
    · exact iff_of_true hcalls fun hf => absurd hf hfree
    · have hnot : x.pre.isDisconnected = false := hfree.elim fun _ hf => hf.2
      rw [hcalls, hhost hnot]
      exact ⟨fun hconn _ => hconn, fun hconn => hconn hfree⟩
  constructor
  · intro hall t₁ x t₂ htr
    exact (hstep t₁ x t₂ htr).mp (hall x (htr ▸ List.mem_append_right _ List.mem_cons_self))
  · intro hall x hx
    obtain ⟨t₁, t₂, htr⟩ := List.append_of_mem hx
    exact (hstep t₁ x t₂ htr).mpr (hall t₁ x t₂ htr)

/-- Everything `handle_cmd_connect_to_host` calls succeeds. -/
def NetEnv.ideal : NetEnv Nat Nat :=
  ⟨some 0, fun _ => true, fun _ => true, fun _ _ => some 0, [.connect], .ideal⟩

/-- Connecting, registering, a tick and the exit. -/
theorem handles_valid_session : ∃ tr s, Run (netThread (H := Nat) (Q := Nat)) .init tr s ∧
    s.isDisconnected = true ∧ ∀ x ∈ tr, ∀ c ∈ x.out, c.passesNull = false := by
  obtain ⟨tr, s, hr, hev, hQ⟩ := run_of_exec (netThread (H := Nat) (Q := Nat)) .init
    [.turn .ideal (some (some (.connect (some ⟨"127.0.0.1", 7777⟩)))),
      .turn .ideal (some (some .reqUserInfo)), .tick .ideal .playerInput .streamPuppetInputs [],
      .turn .ideal (some (some .disconnectNFree))]
    (fun _ s => s.isDisconnected) (by decide +kernel)
  refine ⟨tr, s, hr, hQ, (handles_valid_iff hr).mpr ?_⟩
  cases hr with
  | nil => cases hev
  | cons hs hrest =>
    obtain ⟨rfl, -⟩ := List.cons.inj hev
    rintro t₁ x t₂ htr ⟨env, he, -⟩
    cases t₁ with
    | nil =>
      obtain ⟨rfl, -⟩ := List.cons.inj htr
      cases he
    | cons y t₁ =>
      obtain ⟨rfl, -⟩ := List.cons.inj htr
      exact ⟨_, List.mem_cons_self, .ideal, ⟨"127.0.0.1", 7777⟩, rfl, rfl, rfl⟩

/-- The exit before a connection: all its calls get NULL. -/
theorem exitUnconnected_passesNull : ∃ tr s, Run (netThread (H := Nat) (Q := Nat)) .init tr s ∧
    outputs tr = [.peerDisconnect none, .hostService none, .hostDestroy none] ∧
    ¬ ∀ x ∈ tr, ∀ c ∈ x.out, c.passesNull = false := by
  have hs : (netThread (H := Nat) (Q := Nat)).step .init
      (.turn { NetEnv.ideal with service := [] } (some (some .disconnectNFree))) =
        some (⟨none, none, true⟩,
          [.peerDisconnect none, .hostService none, .hostDestroy none]) := rfl
  refine ⟨_, _, Run.single hs, rfl, fun hall => ?_⟩
  have hpeer := hall _ (List.mem_singleton_self _) (.peerDisconnect none) List.mem_cons_self
  cases hpeer

end MasterRelay.Client
