import MasterRelay.Client.Threads
import MasterRelay.Protocol.RoundTrip
import MasterRelay.Server.Roles

/-!
# Who fits into the world

The server has ten slots, the master's world four positions and three remote inputs. A player whose
id the `switch` of the client does not know is registered, answered and announced all the same; the
master prints its `SLAVE_CONNECTED` and its inputs and forgets them.

* `represented_iff`: a slave has a position and an input of its own exactly when its id is 1, 2 or
  3.
* **`capacity_of_run`**: over every run of the server, whom it answers fits into the world exactly
  when nobody was there before, or slot 0 was taken and one of the slots 1, 2 and 3 was free.
-/

namespace MasterRelay.Game

open MasterRelay.Client
open MasterRelay.Lib.MsgPack
open MasterRelay.Lib.Runs
open MasterRelay.Protocol
open MasterRelay.Server

/-- The `SLAVE_CONNECTED` with this payload sets the flag of exactly one position of a master. -/
def SetsOneFlag (mp : Msgpack) (payload : Bytes) : Prop :=
  ∃! i : Fin 4, ∀ (env : ClientEnv) (info : UserInfo) (gs : GameState)
    (inputs : Fin othersCount → PlayerInput), info.isMaster = true → ∃ gs',
      netReceive mp env ⟨some info, some gs, some inputs⟩ (frame .slaveConnected (some payload)) =
        some (⟨some info, some gs', some inputs⟩, .idle) ∧
      gs'.pos i = { gs.pos i with isExists := true } ∧ ∀ j, j ≠ i → gs'.pos j = gs.pos j

/-- Every player input with this id replaces exactly one entry of a master's inputs. -/
def UpdatesOneInput (mp : Msgpack) (id : UInt32) : Prop :=
  ∃! k : Fin othersCount, ∀ (env : ClientEnv) (info : UserInfo) (gs : GameState)
    (inputs : Fin othersCount → PlayerInput) (data : Bytes) (payload : Option Bytes)
    (pi : PlayerInput), info.isMaster = true →
      ifbPtclTryParseMessageByType data = .ok (.playerInput, payload) →
      ifbTryUnpackPlayerInput mp env.net.reader payload = .ok pi → pi.id = id →
      netReceive mp env ⟨some info, some gs, some inputs⟩ data =
        some (⟨some info, some gs,
          some (Function.update inputs k { inputs k with x := pi.x, y := pi.y })⟩, .idle)

/-- The world has a place for a player told `ui` in this payload. -/
def Represented (mp : Msgpack) (payload : Bytes) (ui : UserInfo) : Prop :=
  ui.isMaster = false → SetsOneFlag mp payload ∧ UpdatesOneInput mp ui.id

variable {mp : Msgpack} {payload : Bytes} {ui : UserInfo}

/-- What a master does with a `SLAVE_CONNECTED`. -/
theorem receive_slaveConnected (hne : payload ≠ []) (hsaid : Says mp payload ui) (env : ClientEnv)
    (s : Shared) : netReceive mp env s (frame .slaveConnected (some payload)) =
      some (handleOnSlaveConnected ui s, .idle) := by
  have hparse : ifbPtclTryParseMessageByType (frame .slaveConnected (some payload)) =
      .ok (.slaveConnected, some payload) := parse_frame rfl hne
  simp only [netReceive, hparse, hsaid env.net.reader]

/-- **One flag** is set exactly for the ids the client knows. -/
theorem setsOneFlag_iff (hne : payload ≠ []) (hsaid : Says mp payload ui) :
    SetsOneFlag mp payload ↔ ∃ k, slaveIndex ui.id = some k := by
  constructor
  · rintro ⟨i, hi, -⟩
    by_contra hnone
    obtain ⟨gs', hr, hset, -⟩ := hi .ideal ⟨0, true⟩ .zero (fun _ => ⟨0, 0, 0⟩) rfl
    rw [receive_slaveConnected hne hsaid] at hr
    have hindex : slaveIndex ui.id = none := by
      rw [Option.eq_none_iff_forall_ne_some]
      exact fun k hk => hnone ⟨k, hk⟩
    -- nothing happened
    simp only [handleOnSlaveConnected, hindex, Option.some.injEq, Prod.mk.injEq, Shared.mk.injEq,
      true_and, and_true] at hr
    subst hr
    exact absurd (congrArg PlayerPos.isExists hset) (by simp [GameState.zero_pos, PlayerPos.zero])
  · rintro ⟨k, hk⟩
    have hconnect : ∀ (env : ClientEnv) (info : UserInfo) (gs : GameState)
        (inputs : Fin othersCount → PlayerInput),
        netReceive mp env ⟨some info, some gs, some inputs⟩ (frame .slaveConnected (some payload)) =
          some (⟨some info, some (connectSlave gs k), some inputs⟩, .idle) := by
      intro env info gs inputs
      rw [receive_slaveConnected hne hsaid]
      simp only [handleOnSlaveConnected, hk]
    refine ⟨k.succ, fun env info gs inputs _ => ⟨_, hconnect env info gs inputs, ?_, ?_⟩, ?_⟩
    · rw [connectSlave_pos, if_pos rfl]
    · intro j hj
      rw [connectSlave_pos, if_neg hj]
    · intro i hi
      obtain ⟨gs', hr, hset, -⟩ := hi .ideal ⟨0, true⟩ .zero (fun _ => ⟨0, 0, 0⟩) rfl
      rw [hconnect] at hr
      cases hr
      by_contra hik
      rw [connectSlave_pos, if_neg hik] at hset
      exact absurd (congrArg PlayerPos.isExists hset) (by simp [GameState.zero_pos, PlayerPos.zero])

/-- **One input** is replaced for the ids the client knows. -/
theorem updatesOneInput_of_index (hmp : mp.Lawful) {id : UInt32} {k : Fin othersCount}
    (hk : slaveIndex id = some k) : UpdatesOneInput mp id := by
  have hupdate : ∀ (env : ClientEnv) (info : UserInfo) (gs : GameState)
      (inputs : Fin othersCount → PlayerInput) (data : Bytes) (p : Option Bytes) (pi : PlayerInput),
      info.isMaster = true → ifbPtclTryParseMessageByType data = .ok (.playerInput, p) →
      ifbTryUnpackPlayerInput mp env.net.reader p = .ok pi → pi.id = id →
      netReceive mp env ⟨some info, some gs, some inputs⟩ data =
        some (⟨some info, some gs,
          some (Function.update inputs k { inputs k with x := pi.x, y := pi.y })⟩, .idle) := by
    intro env info gs inputs data p pi hmaster hparse hpi hid
    have hany : (some info).any UserInfo.isMaster = true := hmaster
    rw [receive_playerInput hany hparse hpi, updateGamesStateBySlaveInput, hid, hk]
    rfl
  refine ⟨k, hupdate, fun k' hk' => ?_⟩
  -- an input that moves, into inputs that do not
  have hparse := parse_inputPacket hmp ⟨id, 1, 0⟩
  have hunpack := unpack_playerInputBytes hmp ClientEnv.ideal.net.reader ⟨id, 1, 0⟩ []
  rw [List.append_nil] at hunpack
  have h := hupdate .ideal ⟨0, true⟩ .zero (fun _ => ⟨0, 0, 0⟩) _ _ _ rfl hparse hunpack rfl
  have h' := hk' .ideal ⟨0, true⟩ .zero (fun _ => ⟨0, 0, 0⟩) _ _ _ rfl hparse hunpack rfl
  rw [h] at h'
  simp only [Option.some.injEq, Prod.mk.injEq, Shared.mk.injEq, and_true, true_and] at h'
  by_contra hne
  have hx := congrArg PlayerInput.x (congrFun h' k)
  rw [Function.update_self, Function.update_of_ne (Ne.symm hne)] at hx
  exact absurd hx (by decide)

/-- **Whom the world represents**: a master, and the slaves 1, 2 and 3. -/
theorem represented_iff (hmp : mp.Lawful) (hne : payload ≠ []) (hsaid : Says mp payload ui) :
    Represented mp payload ui ↔ (ui.isMaster = false → ∃ k, slaveIndex ui.id = some k) := by
  unfold Represented
  refine imp_congr_right fun _ => ?_
  rw [setsOneFlag_iff hne hsaid]
  exact ⟨And.left, fun ⟨k, hk⟩ => ⟨⟨k, hk⟩, updatesOneInput_of_index hmp hk⟩⟩

/-- Nobody is there, or slot 0 is taken and one of the slots 1, 2 and 3 is free. -/
def WorldHasRoom {P : Type} (t : Table P) : Prop :=
  ¬ SomeActive t ∨ isPlayerExistsAndConnected (t masterSlot) = true ∧
    ∃ i : Slot, 1 ≤ (i : Nat) ∧ (i : Nat) ≤ 3 ∧ isPlayerExistsAndConnected (t i) = false

/-- The slot of slave `k`: slot 1 has `pos_2`. -/
def slaveSlot (k : Fin othersCount) : Slot :=
  ⟨k + 1, Nat.lt_of_lt_of_le (Nat.succ_lt_succ k.isLt) (by decide)⟩

/-- The client's index of a slot. -/
theorem slaveIndex_slot {i : Slot} {k : Fin othersCount} :
    slaveIndex (UInt32.ofNat i) = some k ↔ i = slaveSlot k := by
  rw [slaveIndex_eq_some]
  refine ⟨fun h => slot_id_injective (j := slaveSlot k) h, ?_⟩
  rintro rfl
  rfl

/-- The slots whose ids the client knows. -/
theorem slaveSlot_range {i : Slot} : (∃ k, i = slaveSlot k) ↔ 1 ≤ (i : Nat) ∧ (i : Nat) ≤ 3 := by
  constructor
  · rintro ⟨k, rfl⟩
    have := k.isLt
    unfold othersCount at this
    simp only [slaveSlot]
    omega
  · rintro ⟨h1, h3⟩
    refine ⟨⟨i - 1, by unfold othersCount; omega⟩, Fin.ext ?_⟩
    simp only [slaveSlot]
    omega

/-- **When the player that takes the lowest free slot has a place.** -/
theorem hasRoom_iff {P : Type} {t : Table P} {r : ServerRoster P} (h : Sim t r) {i : Slot}
    (hfree : firstSlot freeTest t = some i) :
    ((getActivePlayersCount t == 0) = false → ∃ k, slaveIndex (UInt32.ofNat i) = some k) ↔
      WorldHasRoom t := by
  obtain ⟨hi, hlt⟩ := firstSlot_some hfree
  have hinactive : isPlayerExistsAndConnected (t i) = false := by simpa [freeTest] using hi
  have hbelow : ∀ j < i, isPlayerExistsAndConnected (t j) = true := by
    intro j hj
    simpa [freeTest] using hlt j hj
  simp only [slaveIndex_slot]
  rw [slaveSlot_range, ← Bool.not_eq_true, master_iff_vacant h, Classical.not_not]
  constructor
  · intro hsome
    by_cases hvac : SomeActive t
    · obtain ⟨h1, h3⟩ := hsome hvac
      exact .inr ⟨hbelow _ (Fin.lt_def.mpr h1), i, h1, h3, hinactive⟩
    · exact .inl hvac
  · rintro (hvac | ⟨h0, j, h1, h3, hj⟩) hsome
    · exact absurd hsome hvac
    · have hi0 : (i : Nat) ≠ 0 := by
        intro he
        obtain rfl : i = masterSlot := Fin.ext he
        exact absurd h0 (by simp [hinactive])
      -- slot `i` is the lowest free one
      have hij : ¬ j < i := fun hji => absurd (hbelow j hji) (by simp [hj])
      rw [Fin.lt_def] at hij
      omega

variable {P : Type} [DecidableEq P]

/-- **The server answers whom the world cannot hold.** In every run of the server from the initial
table, a player that is answered with `RES_USER_INFO` has a place in the world if and only if,
before its registration, nobody was there, or slot 0 was taken and one of the slots 1, 2 and 3 was
free. -/
theorem capacity_of_run (hmp : mp.Lawful) {t : Table P}
    {tr : List (Step (Table P) (Event P) (Output P))} (hr : Run (server mp) initTable tr t) :
    ∀ x ∈ tr, ∀ o ∈ x.out, o.data.head? = some MessageType.resUserInfo.toByte →
      ∃ ui, Says mp o.data.tail ui ∧ (Represented mp o.data.tail ui ↔ WorldHasRoom x.pre) := by
  intro x hx o ho hres
  obtain ⟨hs, t₁, t₂, -, hr₁, -⟩ := hr.mem hx
  obtain ⟨r, hsim⟩ := reachable_sim ⟨t₁, hr₁⟩
  obtain ⟨env, peer, data, i, m, -, -, hfree, rfl, -, hdata⟩ := step_announces hs ho (.inl hres)
  have hsaid := says_userInfoBytes hmp ⟨UInt32.ofNat i, getActivePlayersCount x.pre == 0⟩
  rw [hdata]
  refine ⟨_, hsaid, ?_⟩
  rw [represented_iff hmp (userInfoBytes_ne_nil hmp _) hsaid]
  exact hasRoom_iff hsim hfree

/-- Requests of peers `1` to `n`. -/
def requests (n : Nat) : List (Event Nat) :=
  (List.range n).map fun p => .receive .ideal (p + 1) [1]

/-- The second of two peers has a place. -/
theorem capacity_of_run_twoPeers : ∃ (t : Table Nat) (tr : _),
    Run (server reference) initTable tr t ∧ ∃ x ∈ tr, ∃ o ∈ x.out,
      o.data.head? = some MessageType.resUserInfo.toByte ∧ WorldHasRoom x.pre ∧
      ∃ ui, Says reference o.data.tail ui ∧
        (Represented reference o.data.tail ui ↔ WorldHasRoom x.pre) := by
  obtain ⟨tr, t, hr, -, hQ⟩ := run_of_exec (server reference) initTable (requests 2)
    (fun tr _ => tr.any fun x => isPlayerExistsAndConnected (x.pre masterSlot) &&
      !isPlayerExistsAndConnected (x.pre ⟨1, by decide⟩) && x.out.any fun o =>
        decide (o.data.head? = some MessageType.resUserInfo.toByte)) (by decide +kernel)
  obtain ⟨x, hx, hQ'⟩ := List.any_eq_true.mp hQ
  rw [Bool.and_eq_true, Bool.and_eq_true, Bool.not_eq_true'] at hQ'
  obtain ⟨⟨h0, h1⟩, hout⟩ := hQ'
  obtain ⟨o, ho, hres⟩ := List.any_eq_true.mp hout
  have hroom : WorldHasRoom x.pre := .inr ⟨h0, ⟨1, by decide⟩, by decide, by decide, h1⟩
  exact ⟨t, tr, hr, x, hx, o, ho, of_decide_eq_true hres, hroom,
    capacity_of_run reference_lawful hr x hx o ho (of_decide_eq_true hres)⟩

/-- The fifth of five peers is a slave with id 4, and has no place. -/
theorem fifthPeer_notRepresented : ∃ (t : Table Nat) (tr : _),
    Run (server reference) initTable tr t ∧ ∃ x ∈ tr, ∃ o ∈ x.out,
      o.data.head? = some MessageType.resUserInfo.toByte ∧
      ∃ ui, Says reference o.data.tail ui ∧ ¬ Represented reference o.data.tail ui := by
  obtain ⟨tr, t, hr, -, hQ⟩ := run_of_exec (server reference) initTable (requests 5)
    (fun tr _ => tr.any fun x => x.out.any fun o => decide (o = .send 5 .critical
      (frame .resUserInfo (some (userInfoBytes reference ⟨4, false⟩))) true true))
    (by decide +kernel)
  obtain ⟨x, hx, hQ'⟩ := List.any_eq_true.mp hQ
  obtain ⟨o, ho, heq⟩ := List.any_eq_true.mp hQ'
  obtain rfl := of_decide_eq_true heq
  have hsaid := says_userInfoBytes reference_lawful ⟨4, false⟩
  refine ⟨t, tr, hr, x, hx, _, ho, rfl, _, hsaid, fun h => ?_⟩
  obtain ⟨k, hk⟩ :=
    (represented_iff reference_lawful (userInfoBytes_ne_nil reference_lawful _) hsaid).mp h rfl
  rw [show slaveIndex 4 = none from rfl] at hk
  cases hk

end MasterRelay.Game
