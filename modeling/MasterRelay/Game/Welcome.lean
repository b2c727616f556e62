import MasterRelay.Client.Dispatch
import MasterRelay.Game.MasterView
import MasterRelay.Server.Registration

/-!
# One buffer, two receivers

`handle_player_register` packs the user info of a new slave once and sends the buffer twice: to the
slave as `RES_USER_INFO` and to the master as `SLAVE_CONNECTED`. One decoder reads both, and two
handlers take what it reads to different globals.

* `unpack_packed`: the decoder undoes the encoder, whatever follows the packed map.
* `register_slave`: the packets that leave, with one payload.
* **`oneBuffer_bothRead`**: what the slave and the master make of it.
-/

namespace MasterRelay.Game

open MasterRelay.Client
open MasterRelay.Lib.MsgPack
open MasterRelay.Protocol
open MasterRelay.Server

variable {P : Type} {mp : Msgpack} {env : Env P} {t : Table P} {peer q : P} {i master : Slot}

/-- **`ifb_fun_try_unpack_user_info` undoes `ifb_try_pack_user_info`**: what was packed is read
back, with any bytes behind it. -/
theorem unpack_packed (hmp : mp.Lawful) {u : UserInfo} {sbuf : Bytes}
    (h : packed env (ifbTryPackUserInfo mp u) = .ok sbuf) (rd : Reader) (r : Bytes) :
    ifbFunTryUnpackUserInfo mp rd (some (sbuf ++ r)) = .ok u := by
  rw [packed_eq_ok (emits_userInfo u) h]
  exact unpack_userInfoBytes hmp rd u r

/-! ## The registration of a slave -/

theorem masterTest_counts {p : ActivePlayer P} (h : masterTest p = true) : countTest p = true := by
  unfold masterTest isPlayerExistsAndConnected at h
  unfold countTest
  exact (Bool.and_eq_true_iff.mp h).1

theorem masterTest_ofMaster (h : tryGetMasterClient t = .ok master) :
    masterTest (t master) = true := by
  unfold tryGetMasterClient at h
  split at h
  · rename_i j hj
    cases h
    exact (firstSlot_some hj).1
  · cases h

/-- Beside a master a new player is a slave. -/
theorem slave_beside (h : tryGetMasterClient t = .ok master) :
    (getActivePlayersCount t == 0) = false := by
  rw [beq_eq_false_iff_ne, getActivePlayersCount, Ne, List.countP_eq_zero]
  exact fun hnone => hnone master (List.mem_finRange master)
    (masterTest_counts (masterTest_ofMaster h))

/-- A free slot is not the master's. -/
theorem master_ne_free (h : tryGetMasterClient t = .ok master) (hfree : freeTest (t i) = true) :
    master ≠ i := by
  rintro rfl
  have hcounts := masterTest_counts (masterTest_ofMaster h)
  rw [countTest, ← isPlayerExistsAndConnected] at hcounts
  rw [freeTest, hcounts] at hfree
  cases hfree

/-- The registration of a slave leaves the master where it is. -/
theorem master_afterRegister (peer : P) (hfree : freeTest (t i) = true) :
    tryGetMasterClient (Function.update t i (newPlayer peer false)) = tryGetMasterClient t := by
  have hinactive : isPlayerExistsAndConnected (t i) = false := by simpa [freeTest] using hfree
  have htest : ∀ j, masterTest (Function.update t i (newPlayer peer false) j) =
      masterTest (t j) := by
    intro j
    by_cases hj : j = i
    · subst hj
      rw [Function.update_self, masterTest, masterTest, hinactive]
      rfl
    · rw [Function.update_of_ne hj]
  unfold tryGetMasterClient firstSlot
  simp only [htest]

/-- Both packets of the slave in slot `i` can be packed and sent, with the master at peer `q`. -/
structure BothSent (mp : Msgpack) (env : Env P) (peer q : P) (i : Slot) : Prop where
  answered : Answerable mp env peer i false
  announced : env.CanSend .slaveConnected q .critical
    (frame .slaveConnected (some (userInfoBytes mp ⟨UInt32.ofNat i, false⟩))).length

/-- **A slave is registered**: one payload leaves in two packets. -/
theorem register_slave [DecidableEq P] (hnew : isPlayerActive t peer = false)
    (hi : firstSlot freeTest t = some i) (hmalloc : env.mallocPlayer = true)
    (hmaster : tryGetMasterClient t = .ok master) (hq : (t master).peer = some q)
    (hsent : BothSent mp env peer q i) :
    ∃ sbuf, packed env (ifbTryPackUserInfo mp ⟨UInt32.ofNat i, false⟩) = .ok sbuf ∧
      handlePlayerRegister mp env t peer = some (Function.update t i (newPlayer peer false),
        [.send peer .critical (frame .resUserInfo (some sbuf)) true true,
          .send q .critical (frame .slaveConnected (some sbuf)) true true]) := by
  obtain ⟨⟨hroom, hanswer⟩, hannounce⟩ := hsent
  have hneeds : Needs (ifbTryPackUserInfo mp ⟨UInt32.ofNat i, false⟩) 7 := needs_userInfo _
  obtain ⟨sbuf, hpack⟩ := (packed_isOk hneeds).mpr hroom
  have hbytes := packed_eq_ok (emits_userInfo _) hpack
  subst hbytes
  obtain ⟨res, hres⟩ := (trySend_isOk true true rfl).mpr hanswer
  obtain ⟨connected, hconn⟩ := (trySend_isOk true true rfl).mpr hannounce
  obtain ⟨p, hp, rfl⟩ := trySend_eq_ok hres
  obtain ⟨p', hp', rfl⟩ := trySend_eq_ok hconn
  cases hp
  cases hp'
  have hfree := (firstSlot_some hi).1
  refine ⟨_, hpack, ?_⟩
  rw [handlePlayerRegister_new mp env (by simp [hnew]) (by simp [hmalloc]) hi, slave_beside hmaster]
  have hpeer : (Function.update t i (newPlayer peer false) master).peer = some q := by
    rw [Function.update_of_ne (master_ne_free hmaster hfree), hq]
  unfold announce
  simp only [hpack, hres, Bool.false_eq_true, if_false, master_afterRegister peer hfree, hmaster,
    hpeer, hconn]

/-! ## What the two receivers make of it -/

/-- The answer replaces the user info of the slave, and nothing else. -/
theorem handleReceive_toldSlave (hmp : mp.Lawful) (i : Slot) (cenv : ClientEnv) (s : Shared) :
    handleReceive mp cenv s (answer mp i false) = if cenv.mallocUserInfo then
      some { s with myUserInfo := some ⟨UInt32.ofNat i, false⟩ } else none := by
  have hparse : ifbPtclTryParseMessageByType (answer mp i false) = _ :=
    parse_frame rfl (userInfoBytes_ne_nil hmp _)
  have hsaid := says_userInfoBytes hmp ⟨UInt32.ofNat i, false⟩ cenv.net.reader
  have hreceived : received mp cenv.net.reader (answer mp i false) =
      .userInfo ⟨UInt32.ofNat i, false⟩ := by
    simp only [received, hparse, hsaid]
  rw [handleReceive_userInfo hreceived]
  rfl

/-- The announcement flags the position of the slave in the world of the master. -/
theorem handleReceive_toldMaster (hmp : mp.Lawful) {k : Fin othersCount} (hk : (i : Nat) = k + 1)
    (menv : ClientEnv) {s : Shared} {gs : GameState} (hgs : s.currentGameState = some gs) :
    ∃ gs', handleReceive mp menv s (announcement mp i) =
        some { s with currentGameState := some gs' } ∧ gs'.tick = gs.tick ∧
      ∀ j, gs'.pos j = if j = k.succ then { gs.pos j with isExists := true } else gs.pos j := by
  have hindex : slaveIndex (UInt32.ofNat i) = some k := slaveIndex_eq_some.mpr (by rw [hk])
  refine ⟨connectSlave gs k, ?_, connectSlave_tick gs k, connectSlave_pos gs k⟩
  rw [handleReceive_announcement hmp]
  unfold handleOnSlaveConnected
  rw [hgs, hindex]

/-- **One buffer, read by both.** What the encoder of a user info packs, the decoder reads back,
with any bytes behind it. Where a player registers beside a master and both packets can be sent, one
buffer leaves in both: the new client ends with its slot and the role of a slave as its
`MY_USER_INFO`, and a master that has its `CURRENT_GAME_STATE` flags the position of that slot;
neither changes anything else. -/
theorem oneBuffer_bothRead [DecidableEq P] (hmp : mp.Lawful) :
    (∀ (env : Env P) (u : UserInfo) sbuf, packed env (ifbTryPackUserInfo mp u) = .ok sbuf →
      ∀ rd r, ifbFunTryUnpackUserInfo mp rd (some (sbuf ++ r)) = .ok u) ∧
    ∀ (env : Env P) (t : Table P) (peer q : P) (i master : Slot),
      isPlayerActive t peer = false → firstSlot freeTest t = some i → env.mallocPlayer = true →
      tryGetMasterClient t = .ok master → (t master).peer = some q →
      BothSent mp env peer q i → ∃ sbuf,
        packed env (ifbTryPackUserInfo mp ⟨UInt32.ofNat i, false⟩) = .ok sbuf ∧
        handlePlayerRegister mp env t peer = some (Function.update t i (newPlayer peer false),
          [.send peer .critical (frame .resUserInfo (some sbuf)) true true,
            .send q .critical (frame .slaveConnected (some sbuf)) true true]) ∧
        (∀ cenv s, handleReceive mp cenv s (frame .resUserInfo (some sbuf)) =
          if cenv.mallocUserInfo then
            some { s with myUserInfo := some ⟨UInt32.ofNat i, false⟩ } else none) ∧
        ∀ menv s gs (k : Fin othersCount), s.currentGameState = some gs → (i : Nat) = k + 1 →
          ∃ gs', handleReceive mp menv s (frame .slaveConnected (some sbuf)) =
              some { s with currentGameState := some gs' } ∧ gs'.tick = gs.tick ∧
            ∀ j, gs'.pos j =
              if j = k.succ then { gs.pos j with isExists := true } else gs.pos j := by
  refine ⟨fun env u sbuf hpack rd r => unpack_packed hmp hpack rd r, ?_⟩
  intro env t peer q i master hnew hi hmalloc hmaster hq hsent
  obtain ⟨sbuf, hpack, hreg⟩ := register_slave hnew hi hmalloc hmaster hq hsent
  have hbytes := packed_eq_ok (emits_userInfo _) hpack
  subst hbytes
  exact ⟨_, hpack, hreg, fun cenv s => handleReceive_toldSlave hmp i cenv s,
    fun menv s gs k hgs hk => handleReceive_toldMaster hmp hk menv hgs⟩

/-- Peer 2 registers beside the master at peer 1. -/
theorem oneBuffer_bothRead_second : ∃ sbuf,
    handlePlayerRegister reference .ideal (Function.update initTable masterSlot (newPlayer 1 true))
        2 = some (Function.update (Function.update initTable masterSlot (newPlayer 1 true))
          (slaveSlot 0) (newPlayer 2 false),
          [.send 2 .critical (frame .resUserInfo (some sbuf)) true true,
            .send 1 .critical (frame .slaveConnected (some sbuf)) true true]) := by
  have hsent : BothSent reference (Env.ideal : Env Nat) 2 1 (slaveSlot 0) :=
    ⟨⟨by decide, ⟨rfl, rfl, rfl, by decide, by decide +kernel, by decide⟩⟩,
      ⟨rfl, rfl, rfl, by decide, by decide +kernel, by decide⟩⟩
  obtain ⟨sbuf, -, hreg, -⟩ := (oneBuffer_bothRead reference_lawful).2 .ideal
    (Function.update initTable masterSlot (newPlayer 1 true)) 2 1 (slaveSlot 0) masterSlot
    (by decide +kernel) (by decide +kernel) rfl (by decide +kernel) rfl hsent
  exact ⟨sbuf, hreg⟩

end MasterRelay.Game
