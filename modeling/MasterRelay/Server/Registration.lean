import MasterRelay.Server.Loop

/-!
# A registration that fails

`handle_player_register` enters the new player in the table before it packs and sends the answer.
Where packing or sending fails it prints that `try_register_player()` failed and returns; the
player stays. Its next request meets `is_player_active` and is ignored, and where it was the first
the server has a master that does not know.

* `announce_answers`: when the peer is answered.
* **`allOrNothing_iff`**: a request changes nothing or is answered exactly where the answer can be
  packed and sent, or there is nothing to register.
* `failedSend_staysRegistered`: a first player that is registered, is not answered, and never will
  be.
-/

namespace MasterRelay.Server

open MasterRelay.Lib.MsgPack
open MasterRelay.Protocol

variable {P : Type}

/-- A `RES_USER_INFO` to `peer`. -/
def IsAnswer (peer : P) (o : Output P) : Prop :=
  ∃ channel payload reliable forced,
    o = .send peer channel (frame .resUserInfo payload) reliable forced

/-- The answer for the player in slot `i` can be packed, and reaches the queue of `peer`. -/
structure Answerable (mp : Msgpack) (env : Env P) (peer : P) (i : Slot) (isMaster : Bool) :
    Prop where
  room : ∀ b ∈ env.grow.take 7, b = true
  canSend : env.CanSend .resUserInfo peer .critical
    (frame .resUserInfo (some (userInfoBytes mp ⟨UInt32.ofNat i, isMaster⟩))).length

variable {mp : Msgpack} {env : Env P} {peer : P}

/-- **A new player is answered exactly where the answer can be packed and sent.** -/
theorem announce_answers (t : Table P) (i : Slot) (m : Bool) :
    (∃ o ∈ announce mp env t peer i m, IsAnswer peer o) ↔ Answerable mp env peer i m := by
  have hpacked : (∃ b, packed env (ifbTryPackUserInfo mp ⟨UInt32.ofNat i, m⟩) = .ok b) ↔
      ∀ b ∈ env.grow.take 7, b = true := packed_isOk (needs_userInfo _)
  have hsent : (∃ o, ifbPtclTrySendMsgPacket env .resUserInfo .critical
      (some (userInfoBytes mp ⟨UInt32.ofNat i, m⟩)) (some peer) true true = .ok o) ↔
        env.CanSend .resUserInfo peer .critical
          (frame .resUserInfo (some (userInfoBytes mp ⟨UInt32.ofNat i, m⟩))).length :=
    trySend_isOk true true rfl
  constructor
  · rintro ⟨o, ho, -⟩
    unfold announce at ho
    split at ho
    · exact absurd ho List.not_mem_nil
    · rename_i sbuf hpack
      obtain rfl := packed_eq_ok (emits_userInfo _) hpack
      split at ho
      · exact absurd ho List.not_mem_nil
      · rename_i res hres
        exact ⟨hpacked.mp ⟨_, hpack⟩, hsent.mp ⟨res, hres⟩⟩
  · rintro ⟨hroom, hsend⟩
    obtain ⟨sbuf, hpack⟩ := hpacked.mpr hroom
    obtain rfl := packed_eq_ok (emits_userInfo _) hpack
    obtain ⟨res, hres⟩ := hsent.mpr hsend
    obtain ⟨p, hp, rfl⟩ := trySend_eq_ok hres
    cases hp
    have hanswer : IsAnswer peer (.send peer .critical
        (frame .resUserInfo (some (userInfoBytes mp ⟨UInt32.ofNat i, m⟩))) true true) :=
      ⟨_, _, _, _, rfl⟩
    unfold announce
    rw [hpack]
    dsimp only
    rw [hres]
    dsimp only
    -- whatever becomes of the packet to the master
    split
    · exact ⟨_, List.mem_cons_self, hanswer⟩
    · split
      · exact ⟨_, List.mem_cons_self, hanswer⟩
      · split
        · exact ⟨_, List.mem_cons_self, hanswer⟩
        · exact ⟨_, List.mem_cons_self, hanswer⟩

variable [DecidableEq P] {t : Table P}

/-- **All or nothing**: where `handle_player_register` does not answer, the active slots are as they
were, with their peers and roles, and the next request of the peer is treated as this one was. -/
def AllOrNothing (mp : Msgpack) (env : Env P) (t : Table P) (peer : P) : Prop :=
  ∀ t' out, handlePlayerRegister mp env t peer = some (t', out) →
    (∀ o ∈ out, ¬ IsAnswer peer o) →
      seats t' = seats t ∧ isPlayerActive t' peer = isPlayerActive t peer

omit [DecidableEq P] in
theorem seats_free {i : Slot} (h : freeTest (t i) = true) : seats t i = none := by
  have hinactive : isPlayerExistsAndConnected (t i) = false := by simpa [freeTest] using h
  unfold seats seatOf
  rw [hinactive, if_neg Bool.false_ne_true]

/-- The registration of a new player, whatever becomes of the answer. -/
theorem handlePlayerRegister_new (mp : Msgpack) (env : Env P) {i : Slot}
    (hnew : ¬ isPlayerActive t peer = true) (hmalloc : ¬ env.mallocPlayer = false)
    (hi : firstSlot freeTest t = some i) :
    handlePlayerRegister mp env t peer =
      some (Function.update t i (newPlayer peer (getActivePlayersCount t == 0)),
        announce mp env (Function.update t i (newPlayer peer (getActivePlayersCount t == 0)))
          peer i (getActivePlayersCount t == 0)) := by
  rw [Bool.not_eq_false] at hmalloc
  have hreg : ∀ p, tryRegisterPlayer env.mallocPlayer t p = .ok (Function.update t i p, i) := by
    intro p
    unfold tryRegisterPlayer
    rw [hi]
    exact if_pos hmalloc
  unfold handlePlayerRegister
  rw [if_neg hnew]
  dsimp only
  rw [hreg]
  rfl

/-- **Registration is all or nothing exactly where** there is nothing to register (the peer is
active, or no slot is free), the record cannot be allocated (the process faults), or the answer for
the lowest free slot can be packed and sent. -/
theorem allOrNothing_iff (mp : Msgpack) (env : Env P) (t : Table P) (peer : P) :
    AllOrNothing mp env t peer ↔
      isPlayerActive t peer = true ∨ firstSlot freeTest t = none ∨ env.mallocPlayer = false ∨
        ∃ i, firstSlot freeTest t = some i ∧
          Answerable mp env peer i (getActivePlayersCount t == 0) := by
  constructor
  · intro h
    by_contra hno
    rw [not_or, not_or, not_or] at hno
    obtain ⟨hnew, hfree, hmalloc, hanswer⟩ := hno
    obtain ⟨i, hi⟩ := Option.ne_none_iff_exists'.mp hfree
    have hreg := handlePlayerRegister_new mp env hnew hmalloc hi
    -- the player is not answered, so its slot must have been taken before
    obtain ⟨hsame, -⟩ := h _ _ hreg fun o ho hans =>
      hanswer ⟨i, hi, (announce_answers _ _ _).mp ⟨o, ho, hans⟩⟩
    rw [seats_register] at hsame
    have hseat : seats t i = some ⟨peer, getActivePlayersCount t == 0⟩ := by
      rw [← hsame, Function.update_self]
    rw [seats_free (firstSlot_some hi).1] at hseat
    cases hseat
  · rintro hcond t' out hreg hno
    rcases handlePlayerRegister_cases hreg with ⟨-, rfl, -⟩ | ⟨i, m, hnew, hi, rfl, rfl, rfl⟩
    · exact ⟨rfl, rfl⟩
    · rcases hcond with hact | hnone | hmalloc | ⟨j, hj, hanswer⟩
      · exact absurd (hact.symm.trans hnew) (by simp)
      · exact absurd (hi.symm.trans hnone) (by simp)
      · have hfault : ∀ p, tryRegisterPlayer env.mallocPlayer t p = .error .fault := by
          intro p
          unfold tryRegisterPlayer
          rw [hi, hmalloc]
          rfl
        unfold handlePlayerRegister at hreg
        rw [if_neg (by simp [hnew])] at hreg
        dsimp only at hreg
        rw [hfault] at hreg
        cases hreg
      · cases hi.symm.trans hj
        obtain ⟨o, ho, hans⟩ := (announce_answers _ _ _).mpr hanswer
        exact absurd hans (hno o ho)

/-- `enet_peer_send` fails. -/
def sendFails : Env Nat := { Env.ideal with peerSend := fun _ _ => -1 }

/-- **The first player is registered, is not told, and is never answered**: the table has it as the
master, and its next request is ignored although nothing fails any more. -/
theorem failedSend_staysRegistered :
    ¬ AllOrNothing reference sendFails initTable 7 ∧
      ∃ t', handlePlayerRegister reference sendFails initTable 7 = some (t', []) ∧
        tryGetMasterClient t' = .ok masterSlot ∧ (t' masterSlot).peer = some 7 ∧
        handlePlayerRegister reference .ideal t' 7 = some (t', []) := by
  have hreg : handlePlayerRegister reference sendFails initTable 7 =
      some (Function.update initTable masterSlot (newPlayer 7 true), []) := by
    rfl
  refine ⟨fun h => ?_, _, hreg, by decide +kernel, by decide +kernel, by rfl⟩
  obtain ⟨-, hactive⟩ := h _ _ hreg fun o ho => absurd ho List.not_mem_nil
  exact absurd hactive (by decide +kernel)

end MasterRelay.Server
