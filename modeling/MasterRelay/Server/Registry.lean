import MasterRelay.Protocol.Message
import MasterRelay.Server.Roster

/-!
# The registry of the server

`ACTIVE_PLAYERS` of `server.c` and the functions over it. A `Table` is the array: ten records, read
and replaced slot by slot. The source searches it with loops that stop at the first slot passing a
test; the tests differ from function to function, and each keeps its own definition here
(`isPlayerActiveTest`, `getPlayerByPeerTest`, `masterTest`, `freeTest`, `removeTest`, `countTest`).

`initTable` is the array after the first loop of `main`. In the source its pointers are to a local
of that loop; the model gives each slot the zeroed record the loop means.

`seats` reads a table as the seats of a roster. The second half says what each function does to
them on a table of `Proper` records: the different tests find the same slots.
-/

namespace MasterRelay.Server

open MasterRelay.Protocol

/-- `strct_active_player`; `none` is a NULL `peer`. -/
structure ActivePlayer (P : Type) where
  index : Nat
  peer : Option P
  isExists : Bool
  isConnected : Bool
  isMaster : Bool
  deriving DecidableEq, Repr

/-- `ACTIVE_PLAYERS_SIZE`. -/
def activePlayersSize : Nat := 10

/-- A slot of `ACTIVE_PLAYERS`. -/
abbrev Slot := Fin activePlayersSize

/-- Slot 0, the only one a master is ever in. -/
def masterSlot : Slot := ⟨0, by decide⟩

/-- `ACTIVE_PLAYERS`. -/
abbrev Table (P : Type) := Slot → ActivePlayer P

variable {P : Type}

/-- The table the event loop starts with. -/
def initTable : Table P := fun i => ⟨i, none, false, false, false⟩

/-- `is_player_exists_and_connected`, for a record that is there. -/
def isPlayerExistsAndConnected (p : ActivePlayer P) : Bool := p.isExists && p.isConnected

/-- The loops of the source that stop at the first slot passing a test. -/
def firstSlot (test : ActivePlayer P → Bool) (t : Table P) : Option Slot :=
  Fin.find? fun i => test (t i)

section Tests

variable [DecidableEq P]

/-- The test of `is_player_active`. -/
def isPlayerActiveTest (peer : P) (p : ActivePlayer P) : Bool :=
  p.isExists && (decide (p.peer = some peer) && p.isConnected)

/-- The test of `try_get_player_by_peer`. -/
def getPlayerByPeerTest (peer : P) (p : ActivePlayer P) : Bool :=
  isPlayerExistsAndConnected p && decide (p.peer = some peer)

/-- The test of `try_remove_player`. -/
def removeTest (peer : P) (p : ActivePlayer P) : Bool :=
  p.isExists && decide (p.peer = some peer)

end Tests

/-- The test of `try_get_master_client`. -/
def masterTest (p : ActivePlayer P) : Bool := isPlayerExistsAndConnected p && p.isMaster

/-- The test of `try_register_player`. -/
def freeTest (p : ActivePlayer P) : Bool := !isPlayerExistsAndConnected p

/-- The test of `get_active_players_count`. -/
def countTest (p : ActivePlayer P) : Bool := p.isExists && p.isConnected

section Functions

variable [DecidableEq P]

/-- `is_player_active`. -/
def isPlayerActive (t : Table P) (peer : P) : Bool := (firstSlot (isPlayerActiveTest peer) t).isSome

/-- `try_get_player_by_peer`: the slot `*out_player` points at. -/
def tryGetPlayerByPeer (t : Table P) (peer : P) : Option Slot :=
  firstSlot (getPlayerByPeerTest peer) t

/-- `try_remove_player`: `is_connected` and `is_master` stay as they were. (The source prints the
pointer for `%p`.) -/
def tryRemovePlayer (t : Table P) (peer : P) : Except String (Table P) :=
  match firstSlot (removeTest peer) t with
  | some i => .ok (Function.update t i { t i with peer := none, isExists := false })
  | none => .error "player with this ENetPeer pointer '%p' is not found!"

end Functions

/-- `try_get_master_client`: the slot `*out_player` points at. -/
def tryGetMasterClient (t : Table P) : Except String Slot :=
  match firstSlot masterTest t with
  | some i => .ok i
  | none => .error "master client is not found."

/-- `try_register_player`: the new table and `*out_index`. The copy is not checked, so it faults
when `malloc` fails. -/
def tryRegisterPlayer (malloc : Bool) (t : Table P) (player : ActivePlayer P) :
    Except Stop (Table P × Slot) :=
  match firstSlot freeTest t with
  | none => fail "there is no free space for player."
  | some freeIndex =>
    if malloc then .ok (Function.update t freeIndex player, freeIndex) else .error .fault

/-- `get_active_players_count`. -/
def getActivePlayersCount (t : Table P) : Nat :=
  (List.finRange activePlayersSize).countP fun i => countTest (t i)

/-! ## Tables as seats -/

/-- The seat a record stands for. -/
def seatOf (p : ActivePlayer P) : Option (Seat P) :=
  if isPlayerExistsAndConnected p then p.peer.map (⟨·, p.isMaster⟩) else none

/-- The seats of a table. -/
def seats (t : Table P) : Seats activePlayersSize P := fun i => seatOf (t i)

/-- A record the server leaves behind: one that exists is connected and has a peer. -/
def Proper (p : ActivePlayer P) : Prop :=
  p.isExists = true → p.isConnected = true ∧ p.peer.isSome = true

/-- All a proper record can be. -/
theorem proper_cases {p : ActivePlayer P} (h : Proper p) :
    p.isExists = false ∧ seatOf p = none ∨
      ∃ peer, p.isExists = true ∧ p.isConnected = true ∧ p.peer = some peer ∧
        seatOf p = some ⟨peer, p.isMaster⟩ := by
  cases he : p.isExists with
  | false => exact .inl ⟨rfl, by simp [seatOf, isPlayerExistsAndConnected, he]⟩
  | true =>
    obtain ⟨hc, hp⟩ := h he
    obtain ⟨peer, hpeer⟩ := Option.isSome_iff_exists.mp hp
    exact .inr ⟨peer, rfl, hc, hpeer, by
      simp [seatOf, isPlayerExistsAndConnected, he, hc, hpeer]⟩

theorem active_eq_isSome {p : ActivePlayer P} (h : Proper p) :
    isPlayerExistsAndConnected p = (seatOf p).isSome := by
  rcases proper_cases h with ⟨he, hs⟩ | ⟨peer, he, hc, -, hs⟩
  · simp [isPlayerExistsAndConnected, he, hs]
  · simp [isPlayerExistsAndConnected, he, hc, hs]

theorem masterTest_iff {p : ActivePlayer P} (h : Proper p) :
    masterTest p = (seatOf p).any Seat.isMaster := by
  rcases proper_cases h with ⟨he, hs⟩ | ⟨peer, he, hc, -, hs⟩
  · simp [masterTest, isPlayerExistsAndConnected, he, hs]
  · simp [masterTest, isPlayerExistsAndConnected, he, hc, hs]

section Tests

variable [DecidableEq P]

/-- **The tests for a peer agree** on proper records: they look for its seat. -/
theorem peerTests_iff {p : ActivePlayer P} (h : Proper p) (peer : P) :
    (isPlayerActiveTest peer p = true ↔ (seatOf p).map Seat.peer = some peer) ∧
      (getPlayerByPeerTest peer p = true ↔ (seatOf p).map Seat.peer = some peer) ∧
      (removeTest peer p = true ↔ (seatOf p).map Seat.peer = some peer) := by
  rcases proper_cases h with ⟨he, hs⟩ | ⟨peer', he, hc, hp, hs⟩
  · simp [isPlayerActiveTest, getPlayerByPeerTest, removeTest, isPlayerExistsAndConnected, he, hs]
  · simp [isPlayerActiveTest, getPlayerByPeerTest, removeTest, isPlayerExistsAndConnected, he, hc,
      hp, hs]

end Tests

/-! ## The functions on seats -/

variable {t : Table P}

theorem firstSlot_some {test : ActivePlayer P → Bool} {i : Slot} (h : firstSlot test t = some i) :
    test (t i) = true ∧ ∀ j < i, test (t j) = false :=
  Fin.find?_eq_some_iff.mp h

theorem firstSlot_none {test : ActivePlayer P → Bool} (h : firstSlot test t = none) (i : Slot) :
    test (t i) = false :=
  Fin.find?_eq_none_iff.mp h i

theorem firstSlot_isSome {test : ActivePlayer P → Bool} :
    (firstSlot test t).isSome = true ↔ ∃ i, test (t i) = true :=
  Fin.isSome_find?_iff

/-- `get_active_players_count() == 0`. -/
theorem count_eq_zero (ht : ∀ i, Proper (t i)) :
    (getActivePlayersCount t == 0) = (seats t).vacant := by
  rw [Bool.eq_iff_iff, beq_iff_eq, getActivePlayersCount, List.countP_eq_zero, vacant_iff]
  refine ⟨fun h i => ?_, fun h i _ => ?_⟩
  · have hi := h i (List.mem_finRange i)
    rw [countTest, ← isPlayerExistsAndConnected, active_eq_isSome (ht i)] at hi
    exact Option.not_isSome_iff_eq_none.mp hi
  · rw [countTest, ← isPlayerExistsAndConnected, active_eq_isSome (ht i)]
    exact Option.not_isSome_iff_eq_none.mpr (h i)

/-- `get_active_players_count() < ACTIVE_PLAYERS_SIZE`: `try_register_player` finds a slot. -/
theorem count_lt_size :
    getActivePlayersCount t < activePlayersSize ↔ firstSlot freeTest t ≠ none := by
  have hlen : (List.finRange activePlayersSize).length = activePlayersSize := List.length_finRange
  have hle : getActivePlayersCount t ≤ (List.finRange activePlayersSize).length :=
    List.countP_le_length
  have hfull : getActivePlayersCount t = (List.finRange activePlayersSize).length ↔
      firstSlot freeTest t = none := by
    rw [getActivePlayersCount, List.countP_eq_length, firstSlot, Fin.find?_eq_none_iff]
    refine ⟨fun h i => ?_, fun h i _ => ?_⟩
    · have hi := h i (List.mem_finRange i)
      rw [countTest, ← isPlayerExistsAndConnected] at hi
      rw [freeTest, hi]
      rfl
    · have hi := h i
      rw [freeTest, Bool.not_eq_false'] at hi
      rw [countTest, ← isPlayerExistsAndConnected, hi]
  rw [Ne, ← hfull]
  omega

theorem firstSlot_freeTest (ht : ∀ i, Proper (t i)) : firstSlot freeTest t = (seats t).free := by
  refine congrArg Fin.find? (funext fun i => ?_)
  rw [freeTest, active_eq_isSome (ht i), Option.not_isSome]
  rfl

theorem firstSlot_masterTest (ht : ∀ i, Proper (t i)) :
    firstSlot masterTest t = (seats t).leader :=
  congrArg Fin.find? (funext fun i => masterTest_iff (ht i))

theorem tryGetMasterClient_ok (ht : ∀ i, Proper (t i)) {i : Slot} :
    tryGetMasterClient t = .ok i ↔ (seats t).leader = some i := by
  unfold tryGetMasterClient
  rw [firstSlot_masterTest ht]
  cases (seats t).leader <;> simp

/-- The master that is found has a peer. -/
theorem master_peer (ht : ∀ i, Proper (t i)) {i : Slot} (h : tryGetMasterClient t = .ok i) :
    ∃ p, (t i).peer = some p := by
  unfold tryGetMasterClient at h
  split at h
  · rename_i j hj
    cases h
    have hmaster := (firstSlot_some hj).1
    rcases proper_cases (ht i) with ⟨he, -⟩ | ⟨p, -, -, hp, -⟩
    · simp [masterTest, isPlayerExistsAndConnected, he] at hmaster
    · exact ⟨p, hp⟩
  · cases h

/-- A registration takes the first free slot. -/
theorem tryRegisterPlayer_ok {malloc : Bool} {t' : Table P} {player : ActivePlayer P} {i : Slot}
    (h : tryRegisterPlayer malloc t player = .ok (t', i)) :
    firstSlot freeTest t = some i ∧ t' = Function.update t i player := by
  unfold tryRegisterPlayer at h
  split at h
  · cases h
  · rename_i j hj
    split_ifs at h
    cases h
    exact ⟨hj, rfl⟩

/-- It is refused only where there is none. -/
theorem tryRegisterPlayer_err {malloc : Bool} {player : ActivePlayer P} {err : Option String}
    (h : tryRegisterPlayer malloc t player = .error (.err err)) : firstSlot freeTest t = none := by
  unfold tryRegisterPlayer at h
  split at h
  · rename_i hnone
    exact hnone
  · split_ifs at h
    cases h

/-- The record `handle_player_register` registers. -/
def newPlayer (peer : P) (isMaster : Bool) : ActivePlayer P := ⟨0, some peer, true, true, isMaster⟩

theorem proper_newPlayer (peer : P) (m : Bool) : Proper (newPlayer peer m) := by
  simp [Proper, newPlayer]

/-- A registered record is a seat taken. -/
theorem seats_register (t : Table P) (i : Slot) (peer : P) (m : Bool) :
    seats (Function.update t i (newPlayer peer m)) =
      Function.update (seats t) i (some ⟨peer, m⟩) := by
  funext j
  by_cases h : j = i
  · subst h
    simp [seats, seatOf, newPlayer, isPlayerExistsAndConnected]
  · simp [seats, Function.update_of_ne h]

section Functions

variable [DecidableEq P]

theorem isPlayerActive_iff (ht : ∀ i, Proper (t i)) (peer : P) :
    isPlayerActive t peer = true ↔ ∃ i, (seats t).peerAt i = some peer := by
  rw [isPlayerActive, firstSlot_isSome]
  exact exists_congr fun i => (peerTests_iff (ht i) peer).1

/-- A removed record is a seat left. -/
theorem seats_remove (ht : ∀ i, Proper (t i)) {r : Roster activePlayersSize P}
    (hr : r.seat = seats t) {peer : P} {i : Slot} (h : firstSlot (removeTest peer) t = some i) :
    seats (Function.update t i { t i with peer := none, isExists := false }) =
      (seats t).leave peer := by
  have hi : (seats t).peerAt i = some peer :=
    (peerTests_iff (ht i) peer).2.2.mp (firstSlot_some h).1
  funext j
  unfold Seats.leave
  by_cases hj : j = i
  · subst hj
    rw [if_pos hi]
    simp [seats, seatOf, isPlayerExistsAndConnected]
  · -- no other slot holds the peer
    have hne : (seats t).peerAt j ≠ some peer :=
      fun hp => hj (r.distinct j i peer (hr ▸ hp) (hr ▸ hi))
    rw [if_neg hne]
    simp [seats, Function.update_of_ne hj]

/-- A peer that is not found has no seat. -/
theorem leave_of_notFound (ht : ∀ i, Proper (t i)) {peer : P}
    (h : firstSlot (removeTest peer) t = none) : (seats t).leave peer = seats t := by
  funext j
  have hj : (seats t).peerAt j ≠ some peer := fun hp =>
    absurd ((peerTests_iff (ht j) peer).2.2.mpr hp) (by simp [firstSlot_none h j])
  unfold Seats.leave
  rw [if_neg hj]

end Functions

end MasterRelay.Server
