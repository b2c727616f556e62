import MasterRelay.Client.Connection
import MasterRelay.Lib.Ledger

/-!
# The hosts a client keeps alive

Every `CONNECT` creates a host. `handle_cmd_disconnect_n_free` destroys the one in `CLIENT_HOST`;
the error exits of `handle_cmd_connect_to_host` print and return without destroying theirs, and
nothing looks whether there is a host already.

The ledger of the hosts is read off the calls of ENet (`hostUses`).

* `connect_uses`, `connect_host`: the host a `CONNECT` creates, and the one it publishes.
* `settle_command`, `hosts_step`: a step keeps the ledger at `CLIENT_HOST` exactly where it creates
  no host, or creates one while there is none and publishes it.
* **`liveHosts_iff`**: the same over runs.
* `liveHosts_second`: two successful `CONNECT`s.
-/

namespace MasterRelay.Client

open MasterRelay.Lib.Ledger
open MasterRelay.Lib.MsgPack
open MasterRelay.Lib.Runs
open MasterRelay.Protocol

variable {H Q : Type}

/-- What a call does with hosts. -/
def hostUses : ENetCall H Q → List (Use H)
  | .hostCreate (some host) => [.acquire host]
  | .hostDestroy (some host) => [.release host]
  | _ => []

/-- The host the globals hold on to. -/
def heldHost (s : Handles H Q) : Multiset H := (s.clientHost.map fun host => {host}).getD 0

/-- The ledger of the hosts is what the globals hold on to: no host when `CLIENT_HOST` is NULL, and
`CLIENT_HOST` alone otherwise. -/
def HostsHeld [DecidableEq H] (tr : List (Step (Handles H Q) (NetEvent H Q) (ENetCall H Q)))
    (s : Handles H Q) : Prop :=
  settle 0 ((outputs tr).flatMap hostUses) = some (heldHost s)

/-- A `CONNECT` the step executes finds no host, and succeeds, when it creates one. -/
def ConnectsOnce (x : Step (Handles H Q) (NetEvent H Q) (ENetCall H Q)) : Prop :=
  ∀ env msg, x.event = .turn env (some (some (.connect (some msg)))) →
    x.pre.isDisconnected = false → env.hostCreate ≠ none →
    x.pre.clientHost = none ∧ env.connects msg = true

/-! ## The hosts of one command -/

theorem uses_nil {calls : List (ENetCall H Q)} (h : ∀ c ∈ calls, hostUses c = []) :
    calls.flatMap hostUses = [] :=
  List.flatMap_eq_nil_iff.mpr h

theorem pollCalls_uses (s : Handles H Q) : (pollCalls s).flatMap hostUses = [] := by
  unfold pollCalls
  split_ifs <;> rfl

theorem sendMsgCalls_uses (env : Env Q) (t : MessageType) (channel : ChannelId)
    (sbuf : Option Bytes) (peer : Option Q) (host : Option H) (reliable forced : Bool) :
    (sendMsgCalls env t channel sbuf peer host reliable forced).flatMap hostUses = [] := by
  refine uses_nil fun c hc => ?_
  unfold sendMsgCalls at hc
  split at hc
  · rcases List.mem_append.mp hc with hc' | hc'
    · unfold peerSendCalls at hc'
      split at hc'
      · split_ifs at hc'
        · rw [List.mem_singleton.mp hc']
          rfl
        · exact absurd hc' List.not_mem_nil
      · exact absurd hc' List.not_mem_nil
    · split at hc'
      · split_ifs at hc'
        · rw [List.mem_singleton.mp hc']
          rfl
        · exact absurd hc' List.not_mem_nil
      · exact absurd hc' List.not_mem_nil
  · exact absurd hc List.not_mem_nil

/-- **A `CONNECT` uses one host**: the one it creates, which it destroys on no exit. -/
theorem connect_uses (env : NetEnv H Q) (msg : ConnectMsg) (s : Handles H Q) :
    (handleCmdConnectToHost env msg s).2.flatMap hostUses =
      (env.hostCreate.map fun host => [Use.acquire host]).getD [] := by
  have hwait : ∀ client : H, (waitConnect (Q := Q) client false env.service).2.flatMap hostUses =
      [] := by
    intro client
    refine uses_nil fun c hc => ?_
    rw [waitConnect_calls client false env.service c hc]
    rfl
  unfold handleCmdConnectToHost
  cases env.hostCreate with
  | none => rfl
  | some client =>
    dsimp only
    cases env.hostConnect msg.host msg.port with
    | none => split_ifs <;> rfl
    | some peer =>
      dsimp only
      split_ifs
      · rfl
      · rfl
      · rw [List.flatMap_append, hwait]
        rfl
      · rw [List.flatMap_append, List.flatMap_append, hwait]
        rfl

/-- The host a `CONNECT` leaves in `CLIENT_HOST`. -/
theorem connect_host (env : NetEnv H Q) (msg : ConnectMsg) (s : Handles H Q) :
    (handleCmdConnectToHost env msg s).1.clientHost =
      if env.connects msg then env.hostCreate else s.clientHost := by
  unfold NetEnv.connects handleCmdConnectToHost
  cases env.hostCreate with
  | none => rfl
  | some client =>
    cases env.checkHost msg.host with
    | false => rfl
    | true =>
      cases env.addressSetHost msg.host with
      | false => rfl
      | true =>
        cases env.hostConnect msg.host msg.port with
        | none => rfl
        | some peer =>
          have hresult := waitConnect_result (Q := Q) client false env.service
          rw [Bool.false_or] at hresult
          cases hcontains : env.service.contains .connect with
          | true =>
            rw [hcontains] at hresult
            simp only [Bool.not_true, Bool.false_eq_true, if_false, hresult, if_true]
            rfl
          | false =>
            rw [hcontains] at hresult
            simp only [Bool.not_true, Bool.false_eq_true, if_false, hresult]
            rfl

/-- A disconnect destroys the host of the globals. -/
theorem disconnect_uses (env : NetEnv H Q) {s : Handles H Q} (hnot : s.isDisconnected = false) :
    (handleCmdDisconnectNFree env s).2.flatMap hostUses =
      (s.clientHost.map fun host => [Use.release host]).getD [] := by
  have hwait : ∀ host : Option H,
      (waitDisconnect (Q := Q) host env.service).flatMap hostUses = [] := by
    intro host
    refine uses_nil fun c hc => ?_
    rw [waitDisconnect_calls _ _ c hc]
    rfl
  rw [handleCmdDisconnectNFree, if_neg (Bool.eq_false_iff.mp hnot)]
  show ([ENetCall.peerDisconnect s.clientPeer] ++ waitDisconnect s.clientHost env.service ++
    [ENetCall.hostDestroy s.clientHost]).flatMap hostUses = _
  rw [List.flatMap_append, List.flatMap_append, hwait]
  cases s.clientHost <;> rfl

/-! ## The ledger -/

variable [DecidableEq H] {s s' : Handles H Q} {e : NetEvent H Q} {out : List (ENetCall H Q)}

/-- A host more is live than the globals hold on to, unless they held on to none and publish it. -/
theorem settle_connect (env : NetEnv H Q) (msg : ConnectMsg) (s : Handles H Q) :
    settle (heldHost s) ((handleCmdConnectToHost env msg s).2.flatMap hostUses) =
        some (heldHost (handleCmdConnectToHost env msg s).1) ↔
      (env.hostCreate ≠ none → s.clientHost = none ∧ env.connects msg = true) := by
  rw [connect_uses]
  unfold heldHost
  rw [connect_host]
  cases hcreate : env.hostCreate with
  | none =>
    have hfails : env.connects msg = false := by simp [NetEnv.connects, hcreate]
    simp [settle, hfails]
  | some host =>
    simp only [Option.map_some, Option.getD_some, settle, Option.some.injEq, ne_eq, reduceCtorEq,
      not_false_eq_true, forall_const]
    constructor
    · intro h
      by_cases hok : env.connects msg = true
      · rw [if_pos hok] at h
        cases hhost : s.clientHost with
        | none => exact ⟨rfl, hok⟩
        | some old =>
          rw [hhost] at h
          exact absurd (congrArg Multiset.card h) (by simp)
      · rw [if_neg hok] at h
        exact absurd (congrArg Multiset.card h) (by simp)
    · rintro ⟨hnone, hok⟩
      rw [if_pos hok, hnone]
      rfl

/-- **What a command does to the ledger**: it stays with `CLIENT_HOST`, unless a `CONNECT` finds a
host or fails with the one it has created. -/
theorem settle_command (env : NetEnv H Q) (cmd : ClientCommand) (hnot : s.isDisconnected = false) :
    settle (heldHost s) ((handleCommand env s cmd).2.flatMap hostUses) =
        some (heldHost (handleCommand env s cmd).1) ↔
      (∀ msg, cmd = .connect (some msg) → env.hostCreate ≠ none →
        s.clientHost = none ∧ env.connects msg = true) := by
  cases cmd with
  | connect data =>
    cases data with
    | none => exact iff_of_true rfl fun _ he => by cases he
    | some msg =>
      refine (settle_connect env msg s).trans ⟨fun h msg' he => ?_, fun h => h msg rfl⟩
      cases he
      exact h
  | disconnectNFree =>
    refine iff_of_true ?_ fun _ he => by cases he
    show settle _ ((handleCmdDisconnectNFree env s).2.flatMap hostUses) =
      some (heldHost (handleCmdDisconnectNFree env s).1)
    rw [disconnect_uses env hnot, handleCmdDisconnectNFree, if_neg (Bool.eq_false_iff.mp hnot)]
    unfold heldHost
    cases s.clientHost with
    | none => rfl
    | some host => simp [settle]
  | reqUserInfo =>
    refine iff_of_true ?_ fun _ he => by cases he
    unfold handleCommand
    cases s.clientPeer with
    | none => rfl
    | some p =>
      dsimp only
      rw [sendMsgCalls_uses]
      rfl

/-- **What a step does to the ledger**: it stays with `CLIENT_HOST` exactly where a `CONNECT` finds
no host and succeeds. -/
theorem hosts_step (hs : netThread.step s e = some (s', out)) :
    settle (heldHost s) (out.flatMap hostUses) = some (heldHost s') ↔
      ConnectsOnce ⟨s, e, out, s'⟩ := by
  have hother : out.flatMap hostUses = [] → s' = s → ConnectsOnce ⟨s, e, out, s'⟩ →
      (settle (heldHost s) (out.flatMap hostUses) = some (heldHost s') ↔
        ConnectsOnce ⟨s, e, out, s'⟩) := by
    rintro huses rfl hx
    rw [huses]
    exact iff_of_true rfl hx
  cases e with
  | tick env t channel sbuf =>
    cases hs
    exact hother (sendMsgCalls_uses _ _ _ _ _ _ _ _) rfl fun _ _ he => by cases he
  | turn env popped =>
    have hturn : netTurn env popped s = (s', out) := Option.some.inj hs
    unfold netTurn at hturn
    by_cases hdis : s.isDisconnected = true
    · rw [if_pos hdis] at hturn
      obtain ⟨rfl, rfl⟩ := Prod.mk.inj hturn
      exact hother rfl rfl fun _ _ _ hnot => absurd hdis (Bool.eq_false_iff.mp hnot)
    · rw [if_neg hdis] at hturn
      have hnot : s.isDisconnected = false := Bool.eq_false_iff.mpr hdis
      rcases popped with _ | _ | cmd
      · obtain ⟨rfl, rfl⟩ := Prod.mk.inj hturn
        exact hother (pollCalls_uses s) rfl fun _ _ he => by cases he
      · obtain ⟨rfl, rfl⟩ := Prod.mk.inj hturn
        exact hother (pollCalls_uses s) rfl fun _ _ he => by cases he
      · obtain ⟨rfl, rfl⟩ := Prod.mk.inj hturn
        rw [List.flatMap_append, pollCalls_uses, List.nil_append, settle_command env cmd hnot]
        constructor
        · intro h env' msg he _
          cases he
          exact h msg rfl
        · rintro h msg rfl
          exact h env msg rfl hnot

/-- **When a client keeps one host alive.** Over a run of the net thread, the live hosts are
`CLIENT_HOST`, or none where it is NULL, at every point, if and only if every executed `CONNECT`
that creates a host finds `CLIENT_HOST` NULL and succeeds. -/
theorem liveHosts_iff {tr : List (Step (Handles H Q) (NetEvent H Q) (ENetCall H Q))}
    (hr : Run netThread .init tr s) :
    Always netThread .init HostsHeld tr ↔ ∀ x ∈ tr, ConnectsOnce x := by
  refine hr.always_iff rfl ?_
  intro tr s e s' out _ h hs
  unfold HostsHeld at h ⊢
  rw [outputs, List.flatMap_append, List.flatMap_append, settle_append]
  rw [outputs] at h
  rw [h, Option.bind_some, ← hosts_step hs]
  simp

/-- A client that connects holds on to its host. -/
theorem liveHosts_iff_connected : ∃ tr s, Run (netThread (H := Nat) (Q := Nat)) .init tr s ∧
    s.clientHost = some 0 ∧ HostsHeld tr s := by
  have hr : Run (netThread (H := Nat) (Q := Nat)) .init _ ⟨some 0, some 0, false⟩ :=
    Run.single (e := .turn .ideal (some (some (.connect (some ⟨"127.0.0.1", 7777⟩))))) rfl
  refine ⟨_, _, hr, rfl, (liveHosts_iff hr).mpr (fun x hx => ?_) _ [] _ (List.append_nil _).symm hr⟩
  obtain rfl := List.mem_singleton.mp hx
  intro env msg he _ _
  cases he
  exact ⟨rfl, rfl⟩

/-- **A second `CONNECT`** leaves the first host alive, and one whose name is not resolved leaves
its own. -/
theorem liveHosts_second :
    (∃ tr s, Run (netThread (H := Nat) (Q := Nat)) .init tr s ∧ s.clientHost = some 1 ∧
      settle 0 ((outputs tr).flatMap hostUses) = some {0, 1} ∧ ¬ HostsHeld tr s) ∧
    ∃ tr s, Run (netThread (H := Nat) (Q := Nat)) .init tr s ∧ s.clientHost = none ∧
      settle 0 ((outputs tr).flatMap hostUses) = some {0} ∧ ¬ HostsHeld tr s := by
  constructor
  · obtain ⟨tr, s, hr, -, hQ⟩ := run_of_exec (netThread (H := Nat) (Q := Nat)) .init
      [.turn .ideal (some (some (.connect (some ⟨"127.0.0.1", 7777⟩)))),
        .turn { NetEnv.ideal with hostCreate := some 1 }
          (some (some (.connect (some ⟨"127.0.0.1", 7777⟩))))]
      (fun tr s => decide (s.clientHost = some 1 ∧
        settle 0 ((outputs tr).flatMap hostUses) = some {0, 1})) (by decide +kernel)
    obtain ⟨hhost, hlive⟩ := of_decide_eq_true hQ
    refine ⟨tr, s, hr, hhost, hlive, fun hheld => ?_⟩
    rw [HostsHeld, hlive, heldHost, hhost] at hheld
    exact absurd hheld (by decide)
  · obtain ⟨tr, s, hr, -, hQ⟩ := run_of_exec (netThread (H := Nat) (Q := Nat)) .init
      [.turn { NetEnv.ideal with checkHost := fun _ => false }
        (some (some (.connect (some ⟨"unknown", 7777⟩))))]
      (fun tr s => decide (s.clientHost = none ∧
        settle 0 ((outputs tr).flatMap hostUses) = some {0})) (by decide +kernel)
    obtain ⟨hhost, hlive⟩ := of_decide_eq_true hQ
    refine ⟨tr, s, hr, hhost, hlive, fun hheld => ?_⟩
    rw [HostsHeld, hlive, heldHost, hhost] at hheld
    exact absurd hheld (by decide)

end MasterRelay.Client
