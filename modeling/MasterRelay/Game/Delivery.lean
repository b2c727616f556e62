import MasterRelay.Client.Threads
import MasterRelay.Server.Relay

/-!
# The way of a player input

Three processes: a slave's call of `try_execute_tick` packs its input and sends it, the server
relays the packet, and the master's net thread stores the input.

* `slave_sends`, `master_stores` and the server's `onReceive_playerInput` are the three steps.
* `playerInput_delivered` puts them together.

The slave's id is the one in its `MY_USER_INFO`, and the master is the one in the server's registry;
the server reads neither the id nor the input.
-/

namespace MasterRelay.Game

open MasterRelay.Client
open MasterRelay.Lib.MsgPack
open MasterRelay.Lib.Runs
open MasterRelay.Protocol
open MasterRelay.Server

variable {mp : Msgpack}

/-- The inputs with the one of slave `k` replaced. -/
def storeInput (inputs : Fin othersCount → PlayerInput) (k : Fin othersCount) (input : UserInput) :
    Fin othersCount → PlayerInput :=
  Function.update inputs k { inputs k with x := input.x, y := input.y }

/-- A slave's call sends its input, and nothing else. -/
theorem slave_sends {env : ClientEnv} {s : ClientState} {θ : Thread} {c : TickCall} {ui : UserInfo}
    (hui : s.shared.myUserInfo = some ui) (htick : s.tick θ = .slaveTick c)
    (henv : env.net.Allocates) (hpeer : env.clientPeer = some ())
    (hsend : env.net.Accepts () .streamPuppetInputs
      (inputPacket mp ⟨ui.id, c.userInput.x, c.userInput.y⟩).length) :
    (client mp).step s (.tickSection env θ) =
      some ({ s with tick := Function.update s.tick θ .idle },
        [.sent (.send () .streamPuppetInputs
          (inputPacket mp ⟨ui.id, c.userInput.x, c.userInput.y⟩) false false),
          .returned (.ok ())]) := by
  have hpack :
      packed env.net (ifbTryPackPlayerInput mp ⟨ui.id, c.userInput.x, c.userInput.y⟩) = _ :=
    packed_of_allocates henv (emits_playerInput _)
  have htry := trySend_of_accepts false false rfl henv hsend
  simp only [client, clientStep, htick, tickSection, handleCmdSlaveTick, hui, hpack, hpeer, htry,
    Option.map_some, List.map_cons, List.map_nil, List.cons_append, List.nil_append]
  rfl

/-- The master stores a slave's input under its id. -/
theorem master_stores (hmp : mp.Lawful) {env : ClientEnv} {m : ClientState} (hnet : m.net = .idle)
    {info : UserInfo} (hinfo : m.shared.myUserInfo = some info) (hmaster : info.isMaster = true)
    {inputs : Fin othersCount → PlayerInput} (hinputs : m.shared.lastPlayerInputs = some inputs)
    (k : Fin othersCount) (input : UserInput) :
    (client mp).step m
        (.receive env (inputPacket mp ⟨UInt32.ofNat (k + 1), input.x, input.y⟩)) =
      some ({ m with shared :=
        { m.shared with lastPlayerInputs := some (storeInput inputs k input) } }, []) := by
  have hunpack := unpack_playerInputBytes hmp env.net.reader
    ⟨UInt32.ofNat (k + 1), input.x, input.y⟩ []
  rw [List.append_nil] at hunpack
  have hk : slaveIndex (UInt32.ofNat (k + 1)) = some k := slaveIndex_eq_some.mpr rfl
  have hany : m.shared.myUserInfo.any UserInfo.isMaster = true := by
    rw [hinfo, Option.any_some, hmaster]
  simp only [client, clientStep, hnet, if_true, netReceive, parse_inputPacket hmp, hany, hunpack,
    updateGamesStateBySlaveInput, hk, hinputs, Option.map_some, storeInput]

variable {P : Type} [DecidableEq P]

/-- **A player input arrives.** A slave's call makes one packet of its input; the server sends it to
the master's peer and to nobody else, as it came, and keeps its registry; the master stores the two
coordinates under the slave's id and changes nothing else. The decoder gives back whatever was
packed, whatever follows it. -/
theorem playerInput_delivered (hmp : mp.Lawful)
    {envS : ClientEnv} {s : ClientState} {θ : Thread} {c : TickCall} {k : Fin othersCount}
    (hs : s.shared.myUserInfo = some ⟨UInt32.ofNat (k + 1), false⟩)
    (htick : s.tick θ = .slaveTick c) (hS : envS.net.Allocates)
    (hpeer : envS.clientPeer = some ())
    (hsend : envS.net.Accepts () .streamPuppetInputs
      (inputPacket mp ⟨UInt32.ofNat (k + 1), c.userInput.x, c.userInput.y⟩).length)
    {env : Env P} {t : Table P} {master : Slot} (ht : Reachable (server mp) initTable t)
    (hmaster : tryGetMasterClient t = .ok master) (henv : env.Allocates)
    (hrelay : ∀ p, env.peerSend p .streamPuppetInputs = 0) (peer : P)
    (envM : ClientEnv) {m : ClientState} (hnet : m.net = .idle) {info : UserInfo}
    (hinfo : m.shared.myUserInfo = some info) (hisMaster : info.isMaster = true)
    {inputs : Fin othersCount → PlayerInput} (hinputs : m.shared.lastPlayerInputs = some inputs) :
    (∃ data p, (t master).peer = some p ∧
      (client mp).step s (.tickSection envS θ) =
        some ({ s with tick := Function.update s.tick θ .idle },
          [.sent (.send () .streamPuppetInputs data false false), .returned (.ok ())]) ∧
      (server mp).step t (.receive env peer data) =
        some (t, [.send p .streamPuppetInputs data false false]) ∧
      (client mp).step m (.receive envM data) =
        some ({ m with shared :=
          { m.shared with lastPlayerInputs := some (storeInput inputs k c.userInput) } }, [])) ∧
    ∀ (pi : PlayerInput) (rd : Reader) (r : Bytes), ∃ sbuf,
      packed envS.net (ifbTryPackPlayerInput mp pi) = .ok sbuf ∧
      ifbTryUnpackPlayerInput mp rd (some (sbuf ++ r)) = .ok pi := by
  constructor
  · obtain ⟨r, hsim⟩ := reachable_sim ht
    obtain ⟨p, hp⟩ := master_peer hsim.proper hmaster
    have hparse := parse_inputPacket hmp ⟨UInt32.ofNat (k + 1), c.userInput.x, c.userInput.y⟩
    have hstep : onReceive mp env t peer _ = _ :=
      onReceive_playerInput henv peer hparse hmaster hp (hrelay p)
    exact ⟨_, p, hp, slave_sends hs htick hS hpeer hsend, hstep,
      master_stores hmp hnet hinfo hisMaster hinputs k c.userInput⟩
  · intro pi rd r
    exact ⟨playerInputBytes mp pi, packed_of_allocates hS (emits_playerInput pi),
      unpack_playerInputBytes hmp rd pi r⟩

/-- A slave before it sends. -/
def sendingSlave : ClientState :=
  ⟨⟨some ⟨1, false⟩, none, none⟩, .idle, fun _ => .slaveTick ⟨0, ⟨-5, 7⟩⟩⟩

/-- Two peers, a master and a slave. -/
theorem playerInput_delivered_twoPeers : ∃ t : Table Nat, ∃ data p,
    (client reference).step sendingSlave (.tickSection .ideal .main) =
      some ({ sendingSlave with tick := Function.update sendingSlave.tick .main .idle },
        [.sent (.send () .streamPuppetInputs data false false), .returned (.ok ())]) ∧
    (server reference).step t (.receive .ideal 2 data) =
      some (t, [.send p .streamPuppetInputs data false false]) ∧
    ((client reference).step newMaster (.receive .ideal data)).any
      fun r => decide (r.1.shared.lastPlayerInputs.map (· 0) = some ⟨1, -5, 7⟩) := by
  obtain ⟨tr, t, hr, -, hQ⟩ := run_of_exec (server reference) (initTable : Table Nat)
    (leaveFirst.take 2) (fun _ t => (tryGetMasterClient t).isOk) (by decide +kernel)
  obtain ⟨master, hmaster⟩ : ∃ i, tryGetMasterClient t = .ok i := by
    cases h : tryGetMasterClient t with
    | error e => rw [h] at hQ; cases hQ
    | ok i => exact ⟨i, rfl⟩
  have hsend : ClientEnv.ideal.net.Accepts () .streamPuppetInputs
      (inputPacket reference ⟨1, -5, 7⟩).length :=
    ideal_accepts () _ (by decide +kernel)
  have htick : sendingSlave.tick .main = .slaveTick ⟨0, ⟨-5, 7⟩⟩ := rfl
  obtain ⟨⟨data, p, -, h₁, h₂, h₃⟩, -⟩ := playerInput_delivered reference_lawful (k := 0)
    (s := sendingSlave) rfl htick ideal_allocates rfl hsend ⟨tr, hr⟩ hmaster ideal_allocates
    (fun _ => rfl) 2 ClientEnv.ideal (m := newMaster) rfl rfl rfl rfl
  exact ⟨t, data, p, h₁, h₂, by rw [h₃]; rfl⟩

end MasterRelay.Game
