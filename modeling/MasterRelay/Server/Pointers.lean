import MasterRelay.Lib.Blocks
import MasterRelay.Server.Loop

/-!
# The pointers of the registry

`ACTIVE_PLAYERS` is an array of pointers. The first loop of `main` stores the address of its own
local `p` in all ten; that local is gone when the loop is over, and what is read through the
pointers is whatever lies on the stack there (`stack`), which may change at any time
(`PointerEvent.overwrite`). `try_register_player` replaces a pointer by that of a fresh copy;
`try_remove_player` writes through one; nothing frees a record.

Reading or writing through a pointer to a record that is not live is a fault.

* `Agrees`: the pointers stand for a table of records, and no two slots share a copy.
* `first_eq`, `count_eq`, `announce_eq`: what is read through them is what is read in the table.
* `agrees_register`, `agrees_remove`: what is written.
-/

namespace MasterRelay.Server

open MasterRelay.Lib.Blocks
open MasterRelay.Lib.MsgPack
open MasterRelay.Lib.Runs
open MasterRelay.Protocol

/-- What lies where the local `p` of `main` was, the copies on the heap, and `ACTIVE_PLAYERS`, where
`none` is the address of `p`. -/
structure Pointers (A P : Type) where
  stack : ActivePlayer P
  heap : Store A (ActivePlayer P)
  activePlayers : Slot → Option A

variable {A P : Type}

/-- After the first loop of `main`. -/
def Pointers.init : Pointers A P :=
  ⟨⟨activePlayersSize - 1, none, false, false, false⟩, fun _ => none, fun _ => none⟩

/-- `*ACTIVE_PLAYERS[i]`. -/
def Pointers.read (m : Pointers A P) (i : Slot) : Option (ActivePlayer P) :=
  match m.activePlayers i with
  | none => some m.stack
  | some a => m.heap a

/-- The first of the slots whose record passes the test: the loops of the source. -/
def Pointers.search (m : Pointers A P) (test : ActivePlayer P → Bool) :
    List Slot → Option (Option Slot)
  | [] => some none
  | i :: slots =>
    match m.read i with
    | none => none
    | some p => if test p then some (some i) else m.search test slots

/-- `for (size_t i = 0; i < ACTIVE_PLAYERS_SIZE; i++)`. -/
def Pointers.first (m : Pointers A P) (test : ActivePlayer P → Bool) : Option (Option Slot) :=
  m.search test (List.finRange activePlayersSize)

/-- The loop of `get_active_players_count`. -/
def Pointers.count (m : Pointers A P) : List Slot → Option Nat
  | [] => some 0
  | i :: slots =>
    match m.read i, m.count slots with
    | some p, some n => some (if countTest p then n + 1 else n)
    | _, _ => none

/-- `get_active_players_count`. -/
def Pointers.getActivePlayersCount (m : Pointers A P) : Option Nat :=
  m.count (List.finRange activePlayersSize)

/-- `try_get_master_client`. -/
def Pointers.tryGetMasterClient (m : Pointers A P) : Option (Except String Slot) :=
  match m.first masterTest with
  | none => none
  | some none => some (.error "master client is not found.")
  | some (some i) => some (.ok i)

section Steps

variable [DecidableEq A] [DecidableEq P]

/-- `*ACTIVE_PLAYERS[i] = p;` -/
def Pointers.write (m : Pointers A P) (i : Slot) (p : ActivePlayer P) : Option (Pointers A P) :=
  match m.activePlayers i with
  | none => some { m with stack := p }
  | some a =>
    if (m.heap a).isSome then some { m with heap := Function.update m.heap a (some p) } else none

/-- `is_player_active`. -/
def Pointers.isPlayerActive (m : Pointers A P) (peer : P) : Option Bool :=
  (m.first (isPlayerActiveTest peer)).map Option.isSome

/-- `try_register_player`, where `malloc` returned `copy`. -/
def Pointers.tryRegisterPlayer (m : Pointers A P) (copy : Option A) (player : ActivePlayer P) :
    Option (Except String (Pointers A P × Slot)) :=
  match m.first freeTest with
  | none => none
  | some none => some (.error "there is no free space for player.")
  | some (some freeIndex) =>
    match copy with
    | none => none
    | some a =>
      (malloc m.heap a player).map fun heap =>
        .ok ({ m with heap := heap,
                      activePlayers := Function.update m.activePlayers freeIndex (some a) },
          freeIndex)

/-- `try_remove_player`. -/
def Pointers.tryRemovePlayer (m : Pointers A P) (peer : P) :
    Option (Except String (Pointers A P)) :=
  match m.first (removeTest peer) with
  | none => none
  | some none => some (.error "player with this ENetPeer pointer '%p' is not found!")
  | some (some i) =>
    match m.read i with
    | none => none
    | some p => (m.write i { p with peer := none, isExists := false }).map .ok

/-- The second half of `handle_player_register`. -/
def Pointers.announce (mp : Msgpack) (env : Env P) (m : Pointers A P) (peer : P) (outIndex : Slot)
    (isMaster : Bool) : Option (List (Output P)) :=
  match packed env (ifbTryPackUserInfo mp ⟨UInt32.ofNat outIndex, isMaster⟩) with
  | .error _ => some []
  | .ok sbuf =>
    match ifbPtclTrySendMsgPacket env .resUserInfo .critical (some sbuf) (some peer) true true with
    | .error _ => some []
    | .ok res =>
      if isMaster then some [res]
      else
        match m.tryGetMasterClient with
        | none => none
        | some (.error _) => some [res]
        | some (.ok master) =>
          match m.read master with
          | none => none
          | some p =>
            match ifbPtclTrySendMsgPacket env .slaveConnected .critical (some sbuf) p.peer true true
              with
            | .error _ => some [res]
            | .ok connected => some [res, connected]

/-- `handle_player_register`. -/
def Pointers.handlePlayerRegister (mp : Msgpack) (env : Env P) (copy : Option A)
    (m : Pointers A P) (peer : P) : Option (Pointers A P × List (Output P)) :=
  match m.isPlayerActive peer, m.getActivePlayersCount with
  | some true, _ => some (m, [])
  | some false, some count =>
    match m.tryRegisterPlayer copy (newPlayer peer (count == 0)) with
    | none => none
    | some (.error _) => some (m, [])
    | some (.ok (m', outIndex)) =>
      (m'.announce mp env peer outIndex (count == 0)).map fun out => (m', out)
  | _, _ => none

/-- `case ENET_EVENT_TYPE_RECEIVE`. -/
def Pointers.onReceive (mp : Msgpack) (env : Env P) (copy : Option A) (m : Pointers A P) (peer : P)
    (data : Bytes) : Option (Pointers A P × List (Output P)) :=
  match ifbPtclTryParseMessageByType data with
  | .error _ => some (m, [])
  | .ok (type, payload) =>
    -- `try_get_player_by_peer`, whose result is only printed
    match m.first (getPlayerByPeerTest peer) with
    | none => none
    | some _ =>
      match type with
      | .reqUserInfo => m.handlePlayerRegister mp env copy peer
      | .gameStateUpd =>
        match ifbTryUnpackGameState mp env.reader payload with
        | .error .fault => none
        | .error (.err _) => some (m, [])
        | .ok gameState => (handleGameStateUpdatedByMaster mp env gameState).map fun out => (m, out)
      | .playerInput =>
        match m.tryGetMasterClient with
        | none => none
        | some (.error _) => some (m, [])
        | some (.ok master) =>
          match m.read master with
          | none => none
          | some p =>
            match ifbTryRelayPacket env data p.peer .streamPuppetInputs false false with
            | .error .fault => none
            | .error (.err _) => some (m, [])
            | .ok o => some (m, [o])
      | .none => some (m, [])
      | .resUserInfo => some (m, [])
      | .slaveConnected => some (m, [])

/-- An `ENetEvent`, with the environment it is handled in and the address of a copy; or the place of
`p` on the stack is used again. -/
inductive PointerEvent (A P : Type) where
  | connect (peer : P)
  | receive (env : Env P) (copy : Option A) (peer : P) (data : Bytes)
  | disconnect (peer : P)
  | overwrite (p : ActivePlayer P)

/-- One turn of the loop of `main`. -/
def pointerStep (mp : Msgpack) (m : Pointers A P) :
    PointerEvent A P → Option (Pointers A P × List (Output P))
  | .connect _ => some (m, [])
  | .receive env copy peer data => m.onReceive mp env copy peer data
  | .disconnect peer =>
    match m.tryRemovePlayer peer with
    | none => none
    | some (.ok m') => some (m', [])
    | some (.error _) => some (m, [])
  | .overwrite p => some ({ m with stack := p }, [])

/-- **The server with its pointers.** -/
def pointerServer (mp : Msgpack) : System (Pointers A P) (PointerEvent A P) (Output P) :=
  ⟨pointerStep mp⟩

end Steps

/-! ## A table of records -/

/-- The two records read alike: as no player, or as the same one. -/
def ReadsAs (p q : ActivePlayer P) : Prop :=
  p.isExists = q.isExists ∧ (p.isExists = true →
    p.peer = q.peer ∧ p.isConnected = q.isConnected ∧ p.isMaster = q.isMaster)

theorem ReadsAs.refl (p : ActivePlayer P) : ReadsAs p p := ⟨rfl, fun _ => ⟨rfl, rfl, rfl⟩⟩

/-- A test of the source, which looks at `is_exists` first. -/
def Looks (test : ActivePlayer P → Bool) : Prop := ∀ p q, ReadsAs p q → test p = test q

theorem looks_exists {test : ActivePlayer P → Bool} (rest : Option P → Bool → Bool → Bool)
    (h : ∀ p, test p = (p.isExists && rest p.peer p.isConnected p.isMaster)) : Looks test := by
  rintro p q ⟨he, hrest⟩
  rw [h, h, ← he]
  cases hp : p.isExists with
  | false => rfl
  | true =>
    obtain ⟨hpeer, hconn, hmaster⟩ := hrest hp
    rw [hpeer, hconn, hmaster]

theorem looks_active : Looks (isPlayerExistsAndConnected : ActivePlayer P → Bool) :=
  looks_exists (fun _ c _ => c) fun _ => rfl

theorem looks_master : Looks (masterTest : ActivePlayer P → Bool) :=
  looks_exists (fun _ c m => c && m) fun _ => Bool.and_assoc ..

theorem looks_free : Looks (freeTest : ActivePlayer P → Bool) := fun p q h => by
  rw [freeTest, freeTest, looks_active p q h]

section Peers

variable [DecidableEq P] (peer : P)

theorem looks_isPlayerActive : Looks (isPlayerActiveTest peer) :=
  looks_exists (fun p c _ => decide (p = some peer) && c) fun _ => rfl

theorem looks_getPlayerByPeer : Looks (getPlayerByPeerTest peer) :=
  looks_exists (fun p c _ => c && decide (p = some peer)) fun _ => Bool.and_assoc ..

theorem looks_remove : Looks (removeTest peer) :=
  looks_exists (fun p _ _ => decide (p = some peer)) fun _ => rfl

end Peers

/-- **The pointers stand for the table**: each slot reads as its record, the place of `p` as no
player, and no copy is in two slots. -/
structure Agrees (m : Pointers A P) (t : Table P) : Prop where
  reads : ∀ i, ∃ p, m.read i = some p ∧ ReadsAs p (t i)
  vacant : m.stack.isExists = false
  distinct : ∀ i j a, m.activePlayers i = some a → m.activePlayers j = some a → i = j

theorem agrees_init : Agrees (.init : Pointers A P) initTable where
  reads i := ⟨_, rfl, rfl, fun h => absurd h (by simp [Pointers.init])⟩
  vacant := rfl
  distinct i j a h := absurd h (by simp [Pointers.init])

variable {m m' : Pointers A P} {t t' : Table P}

theorem search_eq (h : Agrees m t) {test : ActivePlayer P → Bool} (htest : Looks test)
    (slots : List Slot) : m.search test slots = some (slots.find? fun i => test (t i)) := by
  induction slots with
  | nil => rfl
  | cons i slots ih =>
    obtain ⟨p, hread, hp⟩ := h.reads i
    rw [Pointers.search, hread, List.find?_cons, ← htest p (t i) hp]
    dsimp only
    cases test p with
    | true => rfl
    | false => exact ih

/-- **The loops find the slots they find in the table.** -/
theorem first_eq (h : Agrees m t) {test : ActivePlayer P → Bool} (htest : Looks test) :
    m.first test = some (firstSlot test t) := by
  rw [Pointers.first, search_eq h htest, firstSlot, Fin.find?_eq_find?_finRange]

theorem count_eq (h : Agrees m t) (slots : List Slot) :
    m.count slots = some (slots.countP fun i => countTest (t i)) := by
  induction slots with
  | nil => rfl
  | cons i slots ih =>
    obtain ⟨p, hread, hp⟩ := h.reads i
    have htest : countTest p = countTest (t i) := looks_active p (t i) hp
    rw [Pointers.count, hread, ih, List.countP_cons]
    dsimp only
    rw [htest]
    cases countTest (t i) <;> rfl

theorem getActivePlayersCount_eq (h : Agrees m t) :
    m.getActivePlayersCount = some (getActivePlayersCount t) := count_eq h _

theorem tryGetMasterClient_eq (h : Agrees m t) :
    m.tryGetMasterClient = some (tryGetMasterClient t) := by
  rw [Pointers.tryGetMasterClient, first_eq h looks_master, tryGetMasterClient]
  cases firstSlot masterTest t <;> rfl

/-- The record of the master that is found has the peer it has in the table. -/
theorem master_read (h : Agrees m t) {i : Slot} (hi : tryGetMasterClient t = .ok i) :
    ∃ p, m.read i = some p ∧ p.peer = (t i).peer := by
  obtain ⟨p, hread, he, hrest⟩ := h.reads i
  refine ⟨p, hread, (hrest ?_).1⟩
  unfold tryGetMasterClient at hi
  split at hi
  · rename_i j hj
    cases hi
    have hmaster := (firstSlot_some hj).1
    rw [masterTest, isPlayerExistsAndConnected, Bool.and_eq_true, Bool.and_eq_true] at hmaster
    rw [he]
    exact hmaster.1.1
  · cases hi

theorem announce_eq (h : Agrees m t) (mp : Msgpack) (env : Env P) (peer : P) (i : Slot)
    (b : Bool) : m.announce mp env peer i b = some (announce mp env t peer i b) := by
  unfold Pointers.announce announce
  cases packed env (ifbTryPackUserInfo mp ⟨UInt32.ofNat i, b⟩) with
  | error e => rfl
  | ok sbuf =>
    dsimp only
    cases ifbPtclTrySendMsgPacket env .resUserInfo .critical (some sbuf) (some peer) true true with
    | error e => rfl
    | ok res =>
      cases b with
      | true => rfl
      | false =>
        dsimp only
        rw [if_neg Bool.false_ne_true, if_neg Bool.false_ne_true, tryGetMasterClient_eq h]
        cases hmaster : tryGetMasterClient t with
        | error e => rfl
        | ok master =>
          obtain ⟨p, hread, hpeer⟩ := master_read h hmaster
          simp only [hread, hpeer]
          cases ifbPtclTrySendMsgPacket env .slaveConnected .critical (some sbuf) (t master).peer
            true true <;> rfl

section Registry

variable [DecidableEq A] [DecidableEq P]

omit [DecidableEq P] in
/-- A registration replaces one pointer. -/
theorem agrees_register (h : Agrees m t) {i : Slot} {a : A} {p : ActivePlayer P}
    (hfresh : m.heap a = none) :
    Agrees { m with heap := Function.update m.heap a (some p),
                    activePlayers := Function.update m.activePlayers i (some a) }
      (Function.update t i p) := by
  have hunused : ∀ j, m.activePlayers j ≠ some a := by
    intro j hj
    obtain ⟨q, hread, -⟩ := h.reads j
    rw [Pointers.read, hj] at hread
    cases hfresh.symm.trans hread
  refine ⟨fun j => ?_, h.vacant, fun j k b hj hk => ?_⟩
  · by_cases hji : j = i
    · subst hji
      refine ⟨p, ?_, ?_⟩
      · simp only [Pointers.read, Function.update_self]
      · rw [Function.update_self]
        exact .refl p
    · obtain ⟨q, hread, hq⟩ := h.reads j
      refine ⟨q, ?_, by rwa [Function.update_of_ne hji]⟩
      unfold Pointers.read at hread ⊢
      simp only [Function.update_of_ne hji]
      cases hj : m.activePlayers j with
      | none =>
        rw [hj] at hread
        exact hread
      | some b =>
        rw [hj] at hread
        have hne : b ≠ a := fun he => hunused j (he ▸ hj)
        simpa only [Function.update_of_ne hne] using hread
  · dsimp only at hj hk
    by_cases hji : j = i
    · by_cases hki : k = i
      · rw [hji, hki]
      · subst hji
        rw [Function.update_self] at hj
        rw [Function.update_of_ne hki, ← hj] at hk
        exact absurd hk (hunused k)
    · rw [Function.update_of_ne hji] at hj
      by_cases hki : k = i
      · subst hki
        rw [Function.update_self] at hk
        rw [← hk] at hj
        exact absurd hj (hunused j)
      · rw [Function.update_of_ne hki] at hk
        exact h.distinct j k b hj hk

omit [DecidableEq P] in
/-- A removal writes to the record of one slot, and to no other's. -/
theorem agrees_remove (h : Agrees m t) {i : Slot} {p q : ActivePlayer P} (hread : m.read i = some p)
    (hexists : p.isExists = true) (hgone : q.isExists = false) :
    ∃ m', m.write i q = some m' ∧
      Agrees m' (Function.update t i { t i with peer := none, isExists := false }) := by
  cases hi : m.activePlayers i with
  | none =>
    -- the place of `p` reads as no player
    rw [Pointers.read, hi] at hread
    cases hread
    exact absurd (h.vacant.symm.trans hexists) (by simp)
  | some a =>
    rw [Pointers.read, hi] at hread
    have hlive : (m.heap a).isSome = true := by
      rw [show m.heap a = some p from hread]
      rfl
    refine ⟨{ m with heap := Function.update m.heap a (some q) }, ?_, fun j => ?_, h.vacant,
      h.distinct⟩
    · simp only [Pointers.write, hi, hlive, if_true]
    · by_cases hji : j = i
      · subst hji
        refine ⟨q, ?_, ?_⟩
        · simp only [Pointers.read, hi, Function.update_self]
        · rw [Function.update_self]
          exact ⟨hgone, fun he => absurd he (by simp [hgone])⟩
      · obtain ⟨o, hread', ho⟩ := h.reads j
        refine ⟨o, ?_, by rwa [Function.update_of_ne hji]⟩
        unfold Pointers.read at hread' ⊢
        dsimp only
        cases hj : m.activePlayers j with
        | none =>
          rw [hj] at hread'
          exact hread'
        | some b =>
          rw [hj] at hread'
          have hne : b ≠ a := fun he => hji (h.distinct j i a (he ▸ hj) hi)
          simpa only [Function.update_of_ne hne] using hread'

end Registry

end MasterRelay.Server
