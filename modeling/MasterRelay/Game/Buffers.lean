import MasterRelay.Client.Buffers
import MasterRelay.Server.Buffers
import MasterRelay.Server.Relay

/-!
# The buffers of both programs

A game state costs a buffer on its way: one in the master that sends it and one in the server that
broadcasts it. Everything else that packs destroys what it has packed into.

* **`buffers_balanced_iff`**: each of the four functions, and runs of both programs.
* `buffers_kept`: the two functions where everything succeeds.
-/

namespace MasterRelay.Game

open MasterRelay.Client
open MasterRelay.Lib.Ledger
open MasterRelay.Lib.Runs
open MasterRelay.Protocol
open MasterRelay.Server

variable {P : Type} [DecidableEq P]

/-- **When the buffers are balanced.** For every state, input and outcome of packing and sending:

* `handle_player_register` and `handle_cmd_slave_tick` leave the ledger as it was;
* `handle_game_state_updated_by_master` never does, unless it does not return at all;
* `try_execute_tick` does, unless it sends the state of a master.

So a run of the server leaves one buffer for each game state it handles, and a run of a client's
threads one for each it sends. -/
theorem buffers_balanced_iff (mp : Msgpack) :
    (∀ (env : Env P) (t : Table P) peer,
      ReturnsBalanced (handlePlayerRegisterLogged mp env t peer)) ∧
    (∀ env s input, ReturnsBalanced (handleCmdSlaveTickLogged mp env s input)) ∧
    (∀ (env : Env P) gs,
      ReturnsBalanced (handleGameStateUpdatedByMasterLogged mp env gs) ↔ BroadcastFaults env) ∧
    (∀ env s c, ReturnsBalanced (tryExecuteTickLogged mp env s c) ↔ ¬ SendsTick mp env s c) ∧
    (∀ (t t' : Table P) tr, Run (server mp) t tr t' →
      settle 0 (tr.flatMap fun x => (serverCalls mp x.pre x.event).flatMap sbufferUses) =
        some (Multiset.replicate (tr.countP (handlesGameState mp))
          .handleGameStateUpdatedByMaster)) ∧
    ∀ m m' tr, Run (client mp) m tr m' →
      settle 0 (tr.flatMap fun x => (clientCalls mp x.pre x.event).flatMap sbufferUses) =
        some (Multiset.replicate ((outputs tr).countP isGameStatePacket) .tryExecuteTick) :=
  ⟨fun env t peer _ _ live => playerRegister_settle mp env t peer live,
    fun env s input _ _ live => slaveTick_settle mp env s input live,
    fun env gs => gameState_balanced_iff mp env gs,
    fun env s c => executeTick_balanced_iff mp env s c,
    fun _ _ tr _ => serverBuffers_run mp tr, fun _ _ _ hr => clientBuffers_run hr⟩

/-- Two updates leave two buffers in the server. -/
theorem buffers_balanced_iff_twoUpdates : ∃ tr, ∃ t : Table Nat,
    Run (server reference) initTable tr t ∧
    settle 0 (tr.flatMap fun x => (serverCalls reference x.pre x.event).flatMap sbufferUses) =
      some (Multiset.replicate 2 .handleGameStateUpdatedByMaster) := by
  obtain ⟨tr, t, hr, -, hQ⟩ := run_of_exec (server reference) initTable
    [.receive (Env.ideal : Env Nat) 1
        (frame .gameStateUpd (some (gameStateBytes reference .zero))),
      .receive .ideal 1 (frame .gameStateUpd (some (gameStateBytes reference .zero)))]
    (fun tr _ => decide (tr.countP (handlesGameState reference) = 2)) (by decide +kernel)
  have hlive := (buffers_balanced_iff reference).2.2.2.2.1 initTable t tr hr
  exact ⟨tr, t, hr, of_decide_eq_true hQ ▸ hlive⟩

/-- **Where everything succeeds**, the server keeps the buffer of a game state, and so does the
master that sends one. -/
theorem buffers_kept :
    ¬ ReturnsBalanced (handleGameStateUpdatedByMasterLogged reference (Env.ideal : Env Nat) .zero) ∧
    ¬ ReturnsBalanced (tryExecuteTickLogged reference .ideal newMaster.shared ⟨1, ⟨0, 0⟩⟩) := by
  constructor
  · rw [gameState_balanced_iff]
    intro h
    cases h.notCreated
  · rw [executeTick_balanced_iff, not_not]
    refine ⟨_, _, _, rfl, rfl, by decide, rfl, ?_⟩
    exact ⟨rfl, rfl, rfl, by decide, by decide +kernel, by decide⟩

end MasterRelay.Game
