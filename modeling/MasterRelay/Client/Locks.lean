import MasterRelay.Client.Statements

/-!
# The mutexes of the client

Which mutex each thread holds at each statement (`netHolds`, `callerHolds`), and that the client
keeps the discipline of `Lib/Mutex.lean`: a global is touched only under its mutex, one mutex at a
time; `MY_USER_INFO` is read by the net thread without it, which is the only one that writes it.

* **`client_locks`**: over every run of the statements of the three threads, no thread is about to
  touch a global that another is about to change, no two are in sections of one mutex, and a thread
  that waits for a mutex waits for one that waits for none and is out of its section soon.
-/

namespace MasterRelay.Client

open MasterRelay.Lib.Memory
open MasterRelay.Lib.MsgPack
open MasterRelay.Lib.Mutex
open MasterRelay.Lib.Runs
open MasterRelay.Protocol

/-- The mutex the net thread holds. -/
def netHolds : NetLocal → Option Mtx
  | .freeUserInfo _ => some .myUserInfo
  | .mallocUserInfo _ => some .myUserInfo
  | .storeUserInfo _ _ => some .myUserInfo
  | .unlockUserInfo _ => some .myUserInfo
  | .testGameState => some .currentGameState
  | .mallocGameState => some .currentGameState
  | .storeGameState _ => some .currentGameState
  | .testInputs => some .lastPlayerInputs
  | .mallocInputs => some .lastPlayerInputs
  | .testMalloc => some .lastPlayerInputs
  | .storeInputs _ => some .lastPlayerInputs
  | .testConnected _ => some .currentGameState
  | .setExists _ => some .currentGameState
  | .unlockConnected => some .currentGameState
  | .writeX _ => some .lastPlayerInputs
  | .writeY _ => some .lastPlayerInputs
  | .unlockInput => some .lastPlayerInputs
  | _ => none

/-- The mutex a thread that calls `try_execute_tick` holds. -/
def callerHolds : CallerLocal → Option Mtx
  | .testReady _ => some .myUserInfo
  | .unlockReady _ _ => some .myUserInfo
  | .testInfo _ => some .myUserInfo
  | .copyInfo _ _ _ => some .myUserInfo
  | .testCopy _ => some .currentGameState
  | .copyState _ _ _ => some .currentGameState
  | .enterCollect _ _ => some .lastPlayerInputs
  | .collect _ _ _ _ => some .lastPlayerInputs
  | .writeState _ _ => some .currentGameState
  | .testSend => some .currentGameState
  | .copySend _ _ _ => some .currentGameState
  | .readId _ => some .myUserInfo
  | .unlockId _ _ _ => some .myUserInfo
  | .unlockFailed mtx _ => some mtx
  | _ => none

/-- The mutex each thread holds. -/
def clientHolds : ∀ θ, Locals θ → Option Mtx
  | .net => netHolds
  | .caller _ => callerHolds

variable {mp : Msgpack}

/-! ## What a statement does -/

section Statements

variable {α W Λ : Type} {g : Pointer α} {r : Pointer α × Λ}

theorem testNull_eq {null other : Λ} (h : testNull g null other = some r) :
    r.1 = g ∧ (g = .null ∧ r.2 = null ∨ g ≠ .null ∧ r.2 = other) := by
  cases g with
  | null =>
    cases h
    exact ⟨rfl, .inl ⟨rfl, rfl⟩⟩
  | freed =>
    cases h
    exact ⟨rfl, .inr ⟨by simp, rfl⟩⟩
  | live a =>
    cases h
    exact ⟨rfl, .inr ⟨by simp, rfl⟩⟩

theorem readWord_eq {lay : Layout α W} {w : W} {acc : α} {next : α → Λ}
    (h : readWord lay w acc next g = some r) :
    ∃ v, g = .live v ∧ r.1 = g ∧ r.2 = next (lay.copy w v acc) := by
  cases g with
  | live v =>
    cases h
    exact ⟨v, rfl, rfl, rfl⟩
  | null => cases h
  | freed => cases h

theorem store_eq {f : α → α} {next : Λ} (h : store f next g = some r) :
    g.write f = some r.1 ∧ r.2 = next := by
  obtain ⟨g', hg', rfl⟩ := Option.map_eq_some_iff.mp h
  exact ⟨hg', rfl⟩

end Statements

/-- Where the `switch` leads, no mutex is held. -/
theorem netDispatch_holds {p : Packet} {payload : Option Bytes} {ty : MessageType} {x : NetLocal}
    (h : netDispatch mp p payload ty = some x) : netHolds x = none := by
  cases ty with
  | resUserInfo =>
    simp only [netDispatch] at h
    split at h
    · cases h
    · cases h
      rfl
    · cases h
      rfl
  | gameStateUpd =>
    simp only [netDispatch] at h
    split at h
    · cases h
    · cases h
      rfl
    · cases h
      rfl
  | slaveConnected =>
    simp only [netDispatch] at h
    split at h
    · cases h
    · cases h
      rfl
    · cases h
      rfl
  | playerInput =>
    cases h
    rfl
  | none =>
    cases h
    rfl
  | reqUserInfo =>
    cases h
    rfl

theorem netInput_holds {p : Packet} {payload : Option Bytes} {x : NetLocal}
    (h : netInput mp p payload = some x) : netHolds x = none := by
  unfold netInput at h
  split at h
  · cases h
  · cases h
    rfl
  · cases h
    rfl

/-! ## The discipline -/

theorem netProgram_locked (x : NetLocal) : WellLocked netHolds x (netProgram mp x) := by
  cases x with
  | poll =>
    refine ⟨rfl, fun o r h => ?_⟩
    simp only at h
    split at h <;> cases h <;> rfl
  | readRole p ty payload =>
    refine ⟨rfl, fun o g r h => ?_⟩
    obtain ⟨b, -, rfl⟩ := Option.map_eq_some_iff.mp h
    rfl
  | dispatch p ty payload =>
    refine ⟨rfl, fun o r h => ?_⟩
    obtain ⟨x, hx, rfl⟩ := Option.map_eq_some_iff.mp h
    exact netDispatch_holds hx
  | freeUserInfo ui =>
    refine ⟨rfl, fun o g r h => ?_⟩
    cases g <;> cases h <;> rfl
  | storeUserInfo ui todo =>
    cases todo with
    | nil => exact ⟨rfl, fun o g r h => (store_eq h).2 ▸ rfl⟩
    | cons w todo => exact ⟨rfl, fun o g r h => (store_eq h).2 ▸ rfl⟩
  | mallocUserInfo ui => exact ⟨rfl, fun o g r h => by cases h; rfl⟩
  | testMaster ui =>
    refine ⟨rfl, fun o r h => ?_⟩
    cases h
    cases ui.isMaster <;> rfl
  | testGameState =>
    refine ⟨rfl, fun o g r h => ?_⟩
    rcases (testNull_eq h).2 with ⟨-, hr⟩ | ⟨-, hr⟩ <;> rw [hr] <;> rfl
  | mallocGameState => exact ⟨rfl, fun o g r h => by cases h; rfl⟩
  | storeGameState todo =>
    cases todo with
    | nil => exact ⟨rfl, rfl⟩
    | cons w todo => exact ⟨rfl, fun o g r h => (store_eq h).2 ▸ rfl⟩
  | testInputs =>
    refine ⟨rfl, fun o g r h => ?_⟩
    rcases (testNull_eq h).2 with ⟨-, hr⟩ | ⟨-, hr⟩ <;> rw [hr] <;> rfl
  | mallocInputs => exact ⟨rfl, fun o g r h => by cases h; rfl⟩
  | testMalloc =>
    refine ⟨rfl, fun o g r h => ?_⟩
    rcases (testNull_eq h).2 with ⟨-, hr⟩ | ⟨-, hr⟩ <;> rw [hr] <;> rfl
  | storeInputs todo =>
    cases todo with
    | nil => exact ⟨rfl, rfl⟩
    | cons w todo => exact ⟨rfl, fun o g r h => (store_eq h).2 ▸ rfl⟩
  | printGameState p =>
    refine ⟨rfl, fun o g r h => ?_⟩
    obtain ⟨b, -, rfl⟩ := Option.map_eq_some_iff.mp h
    rfl
  | testConnected ui =>
    refine ⟨rfl, fun o g r h => ?_⟩
    rcases (testNull_eq h).2 with ⟨-, hr⟩ | ⟨-, hr⟩ <;> rw [hr] <;> rfl
  | setExists ui =>
    refine ⟨rfl, fun o g r h => ?_⟩
    simp only at h
    split at h
    · exact (store_eq h).2 ▸ rfl
    · cases h
      rfl
  | readMaster p payload =>
    refine ⟨rfl, fun o g r h => ?_⟩
    simp only at h
    split at h
    · cases h
    · cases h
      rfl
    · obtain ⟨x, hx, rfl⟩ := Option.map_eq_some_iff.mp h
      exact netInput_holds hx
  | writeX pi =>
    refine ⟨rfl, fun o g r h => ?_⟩
    simp only at h
    split at h
    · exact (store_eq h).2 ▸ rfl
    · cases h
      rfl
  | writeY pi =>
    refine ⟨rfl, fun o g r h => ?_⟩
    simp only at h
    split at h
    · exact (store_eq h).2 ▸ rfl
    · cases h
      rfl
  | lockUserInfo p ui => exact ⟨rfl, rfl⟩
  | unlockUserInfo ui => exact ⟨rfl, rfl⟩
  | lockGameState => exact ⟨rfl, rfl⟩
  | lockInputs => exact ⟨rfl, rfl⟩
  | lockConnected p ui => exact ⟨rfl, rfl⟩
  | unlockConnected => exact ⟨rfl, rfl⟩
  | lockInput p pi => exact ⟨rfl, rfl⟩
  | unlockInput => exact ⟨rfl, rfl⟩

theorem callerProgram_locked (θ : Thread) (x : CallerLocal) :
    WellLocked callerHolds x (callerProgram mp θ x) := by
  cases x with
  | idle =>
    refine ⟨rfl, fun o r h => ?_⟩
    cases θ <;> cases h <;> rfl
  | testReady c =>
    refine ⟨rfl, fun o g r h => ?_⟩
    rcases (testNull_eq h).2 with ⟨-, hr⟩ | ⟨-, hr⟩ <;> rw [hr] <;> rfl
  | unlockReady c result =>
    refine ⟨rfl, ?_⟩
    cases result <;> rfl
  | testInfo c =>
    refine ⟨rfl, fun o g r h => ?_⟩
    rcases (testNull_eq h).2 with ⟨-, hr⟩ | ⟨-, hr⟩ <;> rw [hr] <;> rfl
  | copyInfo c todo ui =>
    cases todo with
    | nil => exact ⟨rfl, rfl⟩
    | cons w todo =>
      refine ⟨rfl, fun o g r h => ?_⟩
      obtain ⟨v, -, -, hr⟩ := readWord_eq h
      exact hr ▸ rfl
  | branch c ui =>
    refine ⟨rfl, fun o r h => ?_⟩
    cases h
    cases ui.isMaster <;> rfl
  | testCopy c =>
    refine ⟨rfl, fun o g r h => ?_⟩
    rcases (testNull_eq h).2 with ⟨-, hr⟩ | ⟨-, hr⟩ <;> rw [hr] <;> rfl
  | copyState c todo gs =>
    cases todo with
    | nil => exact ⟨rfl, rfl⟩
    | cons w todo =>
      refine ⟨rfl, fun o g r h => ?_⟩
      obtain ⟨v, -, -, hr⟩ := readWord_eq h
      exact hr ▸ rfl
  | addOwn c gs => exact ⟨rfl, fun o r h => by cases h; rfl⟩
  | enterCollect c gs => exact ⟨rfl, fun o g r h => by cases h; rfl⟩
  | collect c gs todo inputs =>
    cases todo with
    | nil => exact ⟨rfl, rfl⟩
    | cons w todo =>
      refine ⟨rfl, fun o g r h => ?_⟩
      obtain ⟨v, -, -, hr⟩ := readWord_eq h
      exact hr ▸ rfl
  | writeState todo gs =>
    cases todo with
    | nil => exact ⟨rfl, rfl⟩
    | cons w todo => exact ⟨rfl, fun o g r h => (store_eq h).2 ▸ rfl⟩
  | testSend =>
    refine ⟨rfl, fun o g r h => ?_⟩
    rcases (testNull_eq h).2 with ⟨-, hr⟩ | ⟨-, hr⟩ <;> rw [hr] <;> rfl
  | copySend env todo gs =>
    cases todo with
    | nil => exact ⟨rfl, rfl⟩
    | cons w todo =>
      refine ⟨rfl, fun o g r h => ?_⟩
      obtain ⟨v, -, -, hr⟩ := readWord_eq h
      exact hr ▸ rfl
  | send env gs => exact ⟨rfl, fun o r h => by cases h; rfl⟩
  | readId c =>
    refine ⟨rfl, fun o g r h => ?_⟩
    cases g <;> cases h
    rfl
  | sendInput env c id => exact ⟨rfl, fun o r h => by cases h; rfl⟩
  | failed err => exact ⟨rfl, fun o r h => by cases h; rfl⟩
  | lockReady c => exact ⟨rfl, rfl⟩
  | lockInfo c => exact ⟨rfl, rfl⟩
  | lockCopy c => exact ⟨rfl, rfl⟩
  | lockCollect c gs => exact ⟨rfl, rfl⟩
  | lockWrite c gs => exact ⟨rfl, rfl⟩
  | lockSend => exact ⟨rfl, rfl⟩
  | lockId c => exact ⟨rfl, rfl⟩
  | unlockId env c id => exact ⟨rfl, rfl⟩
  | unlockFailed mtx err => exact ⟨rfl, rfl⟩

/-- The callers only read `MY_USER_INFO`. -/
theorem callerProgram_reads {θ : Thread} {y : CallerLocal}
    {f : Outside → Cell .myUserInfo → Option (Cell .myUserInfo × CallerLocal)}
    (hy : callerProgram mp θ y = .access .myUserInfo f) {e : Outside} {v : Cell .myUserInfo}
    {r : Cell .myUserInfo × CallerLocal} (hf : f e v = some r) : r.1 = v := by
  cases y with
  | testReady c =>
    cases hy
    exact (testNull_eq hf).1
  | testInfo c =>
    cases hy
    exact (testNull_eq hf).1
  | copyInfo c todo ui =>
    cases todo with
    | nil => cases hy
    | cons w todo =>
      cases hy
      obtain ⟨-, -, hr, -⟩ := readWord_eq hf
      exact hr
  | readId c =>
    cases hy
    cases v <;> cases hf
    rfl
  | copyState c todo gs => cases todo <;> cases hy
  | collect c gs todo inputs => cases todo <;> cases hy
  | writeState todo gs => cases todo <;> cases hy
  | copySend env todo gs => cases todo <;> cases hy
  | _ => cases hy

/-- Nothing but `MY_USER_INFO` is read without its mutex. -/
theorem clientProgram_peek {θ : ThreadId} {x : Locals θ} {l : Mtx}
    {f : Outside → Cell l → Option (Locals θ × List Seen)}
    (hx : clientProgram mp θ x = .peek l f) : θ = .net ∧ l = .myUserInfo := by
  cases θ with
  | net =>
    cases x with
    | readRole p ty payload =>
      cases hx
      exact ⟨rfl, rfl⟩
    | printGameState p =>
      cases hx
      exact ⟨rfl, rfl⟩
    | readMaster p payload =>
      cases hx
      exact ⟨rfl, rfl⟩
    | storeUserInfo ui todo => cases todo <;> cases hx
    | storeGameState todo => cases todo <;> cases hx
    | storeInputs todo => cases todo <;> cases hx
    | _ => cases hx
  | caller θ =>
    cases x with
    | copyInfo c todo ui => cases todo <;> cases hx
    | copyState c todo gs => cases todo <;> cases hx
    | collect c gs todo inputs => cases todo <;> cases hx
    | writeState todo gs => cases todo <;> cases hx
    | copySend env todo gs => cases todo <;> cases hx
    | _ => cases hx

/-- **The client keeps the discipline.** -/
theorem client_disciplined (mp : Msgpack) : Disciplined (clientProgram mp) clientHolds where
  locked
    | .net, x => netProgram_locked x
    | .caller θ, x => callerProgram_locked θ x
  reads := by
    intro θ x l f hx θ' y g hne hy e v r hg
    obtain ⟨rfl, rfl⟩ := clientProgram_peek hx
    cases θ' with
    | net => exact absurd rfl hne
    | caller θ' => exact callerProgram_reads hy hg

/-- The accesses left in a section of the net thread. -/
def netRank : NetLocal → Nat
  | .freeUserInfo _ => 5
  | .mallocUserInfo _ => 4
  | .storeUserInfo _ todo => todo.length + 1
  | .testGameState => 15
  | .mallocGameState => 14
  | .storeGameState todo => todo.length
  | .testInputs => 12
  | .mallocInputs => 11
  | .testMalloc => 10
  | .storeInputs todo => todo.length
  | .testConnected _ => 2
  | .setExists _ => 1
  | .writeX _ => 2
  | .writeY _ => 1
  | _ => 0

/-- The accesses left in a section of a caller. -/
def callerRank : CallerLocal → Nat
  | .testReady _ => 1
  | .testInfo _ => 3
  | .copyInfo _ todo _ => todo.length
  | .testCopy _ => 14
  | .copyState _ todo _ => todo.length
  | .enterCollect _ _ => 10
  | .collect _ _ todo _ => todo.length
  | .writeState todo _ => todo.length
  | .testSend => 14
  | .copySend _ todo _ => todo.length
  | .readId _ => 1
  | _ => 0

/-- The accesses left in a section. -/
def clientRank : ∀ θ, Locals θ → Nat
  | .net => netRank
  | .caller _ => callerRank

theorem netRank_lt {x : NetLocal} {l : Mtx} {f : Outside → Cell l → Option (Cell l × NetLocal)}
    (hx : netProgram mp x = .access l f) {e : Outside} {v : Cell l} {r : Cell l × NetLocal}
    (hf : f e v = some r) : netRank r.2 < netRank x := by
  cases x with
  | freeUserInfo ui =>
    cases hx
    cases v <;> cases hf <;> exact Nat.lt_succ_self _
  | mallocUserInfo ui =>
    cases hx
    cases hf
    exact Nat.lt_succ_self _
  | storeUserInfo ui todo =>
    cases todo with
    | nil =>
      cases hx
      rw [(store_eq hf).2]
      exact Nat.zero_lt_one
    | cons w todo =>
      cases hx
      rw [(store_eq hf).2]
      exact Nat.lt_succ_self _
  | testGameState =>
    cases hx
    rcases (testNull_eq hf).2 with ⟨-, hr⟩ | ⟨-, hr⟩ <;> rw [hr] <;> decide
  | mallocGameState =>
    cases hx
    cases hf
    exact Nat.lt_succ_self _
  | storeGameState todo =>
    cases todo with
    | nil => cases hx
    | cons w todo =>
      cases hx
      rw [(store_eq hf).2]
      exact Nat.lt_succ_self _
  | testInputs =>
    cases hx
    rcases (testNull_eq hf).2 with ⟨-, hr⟩ | ⟨-, hr⟩ <;> rw [hr] <;> decide
  | mallocInputs =>
    cases hx
    cases hf
    exact Nat.lt_succ_self _
  | testMalloc =>
    cases hx
    rcases (testNull_eq hf).2 with ⟨-, hr⟩ | ⟨-, hr⟩ <;> rw [hr] <;> decide
  | storeInputs todo =>
    cases todo with
    | nil => cases hx
    | cons w todo =>
      cases hx
      rw [(store_eq hf).2]
      exact Nat.lt_succ_self _
  | testConnected ui =>
    cases hx
    rcases (testNull_eq hf).2 with ⟨-, hr⟩ | ⟨-, hr⟩ <;> rw [hr] <;> simp [netRank]
  | setExists ui =>
    cases hx
    simp only at hf
    split at hf
    · rw [(store_eq hf).2]
      exact Nat.zero_lt_one
    · cases hf
      exact Nat.zero_lt_one
  | writeX pi =>
    cases hx
    simp only at hf
    split at hf
    · rw [(store_eq hf).2]
      exact Nat.lt_succ_self _
    · cases hf
      exact Nat.zero_lt_two
  | writeY pi =>
    cases hx
    simp only at hf
    split at hf
    · rw [(store_eq hf).2]
      exact Nat.zero_lt_one
    · cases hf
      exact Nat.zero_lt_one
  | _ => cases hx

theorem callerRank_lt {θ : Thread} {x : CallerLocal} {l : Mtx}
    {f : Outside → Cell l → Option (Cell l × CallerLocal)}
    (hx : callerProgram mp θ x = .access l f) {e : Outside} {v : Cell l}
    {r : Cell l × CallerLocal} (hf : f e v = some r) : callerRank r.2 < callerRank x := by
  cases x with
  | testReady c =>
    cases hx
    rcases (testNull_eq hf).2 with ⟨-, hr⟩ | ⟨-, hr⟩ <;> rw [hr] <;> exact Nat.zero_lt_one
  | testInfo c =>
    cases hx
    rcases (testNull_eq hf).2 with ⟨-, hr⟩ | ⟨-, hr⟩ <;> rw [hr] <;>
      simp [callerRank, userInfoLayout]
  | copyInfo c todo ui =>
    cases todo with
    | nil => cases hx
    | cons w todo =>
      cases hx
      obtain ⟨v, -, -, hr⟩ := readWord_eq hf
      rw [hr]
      exact Nat.lt_succ_self _
  | testCopy c =>
    cases hx
    rcases (testNull_eq hf).2 with ⟨-, hr⟩ | ⟨-, hr⟩ <;> rw [hr] <;>
      simp [callerRank, gameStateLayout]
  | copyState c todo gs =>
    cases todo with
    | nil => cases hx
    | cons w todo =>
      cases hx
      obtain ⟨v, -, -, hr⟩ := readWord_eq hf
      rw [hr]
      exact Nat.lt_succ_self _
  | enterCollect c gs =>
    cases hx
    cases hf
    exact Nat.lt_succ_self _
  | collect c gs todo inputs =>
    cases todo with
    | nil => cases hx
    | cons w todo =>
      cases hx
      obtain ⟨v, -, -, hr⟩ := readWord_eq hf
      rw [hr]
      exact Nat.lt_succ_self _
  | writeState todo gs =>
    cases todo with
    | nil => cases hx
    | cons w todo =>
      cases hx
      rw [(store_eq hf).2]
      exact Nat.lt_succ_self _
  | testSend =>
    cases hx
    rcases (testNull_eq hf).2 with ⟨-, hr⟩ | ⟨-, hr⟩ <;> rw [hr] <;>
      simp [callerRank, gameStateLayout]
  | copySend env todo gs =>
    cases todo with
    | nil => cases hx
    | cons w todo =>
      cases hx
      obtain ⟨v, -, -, hr⟩ := readWord_eq hf
      rw [hr]
      exact Nat.lt_succ_self _
  | readId c =>
    cases hx
    cases v <;> cases hf
    exact Nat.zero_lt_one
  | _ => cases hx

/-! ## Over every run -/

/-- The threads of a client. -/
abbrev ThreadsState : Type := State ThreadId Mtx Cell Locals

/-- Before the threads start: the globals are NULL, and nobody holds a mutex. -/
def threadsInit : ThreadsState where
  cell
    | .myUserInfo => .null
    | .currentGameState => .null
    | .lastPlayerInputs => .null
  owner _ := none
  loc
    | .net => .poll
    | .caller _ => .idle

theorem threadsInit_outside (θ : ThreadId) : clientHolds θ (threadsInit.loc θ) = none := by
  cases θ <;> rfl

/-- Who owns a mutex is in a section of it, at every point of every run. -/
theorem client_owned {s : ThreadsState}
    {tr : List (Step ThreadsState (Σ _ : ThreadId, Outside) Seen)}
    (hr : Run (machine (clientProgram mp)) threadsInit tr s) : Owned clientHolds s := by
  refine hr.invariantWhere (P := fun _ => True) (fun s e s' out h _ hs => ?_)
    (fun _ _ => trivial) ?_
  · exact owned_step (client_disciplined mp) h hs
  · exact (reduces_init (P := clientProgram mp) _ threadsInit_outside).owned

/-- Outside a section no accesses are left, and inside one at most fifteen. -/
theorem lock_rank {θ : ThreadId} {x next : Locals θ} {l : Mtx}
    (hx : clientProgram mp θ x = .lock l next) : clientRank θ next ≤ 15 := by
  cases θ with
  | net =>
    cases x with
    | lockUserInfo p ui =>
      cases hx
      simp [clientRank, netRank]
    | lockGameState =>
      cases hx
      simp [clientRank, netRank]
    | lockInputs =>
      cases hx
      simp [clientRank, netRank]
    | lockConnected p ui =>
      cases hx
      simp [clientRank, netRank]
    | lockInput p pi =>
      cases hx
      simp [clientRank, netRank]
    | storeUserInfo ui todo => cases todo <;> cases hx
    | storeGameState todo => cases todo <;> cases hx
    | storeInputs todo => cases todo <;> cases hx
    | _ => cases hx
  | caller θ =>
    cases x with
    | lockReady c =>
      cases hx
      simp [clientRank, callerRank]
    | lockInfo c =>
      cases hx
      simp [clientRank, callerRank]
    | lockCopy c =>
      cases hx
      simp [clientRank, callerRank]
    | lockCollect c gs =>
      cases hx
      simp [clientRank, callerRank]
    | lockWrite c gs =>
      cases hx
      simp [clientRank, callerRank, gameStateLayout]
    | lockSend =>
      cases hx
      simp [clientRank, callerRank]
    | lockId c =>
      cases hx
      simp [clientRank, callerRank]
    | copyInfo c todo ui => cases todo <;> cases hx
    | copyState c todo gs => cases todo <;> cases hx
    | collect c gs todo inputs => cases todo <;> cases hx
    | writeState todo gs => cases todo <;> cases hx
    | copySend env todo gs => cases todo <;> cases hx
    | _ => cases hx

theorem outside_rank {θ : ThreadId} {x : Locals θ} (hx : clientHolds θ x = none) :
    clientRank θ x = 0 := by
  cases θ with
  | net => cases x <;> first | rfl | cases hx
  | caller θ => cases x <;> first | rfl | cases hx

theorem access_rank {θ : ThreadId} {x : Locals θ} {l : Mtx}
    {f : Outside → Cell l → Option (Cell l × Locals θ)}
    (hx : clientProgram mp θ x = .access l f) {e : Outside} {v : Cell l} {r : Cell l × Locals θ}
    (hf : f e v = some r) : clientRank θ r.2 < clientRank θ x := by
  cases θ with
  | net => exact netRank_lt hx hf
  | caller θ => exact callerRank_lt hx hf

/-- At most fifteen accesses are left to any thread. -/
theorem rank_step {s s' : ThreadsState} {x : Σ _ : ThreadId, Outside} {out : List Seen}
    (h : ∀ θ, clientRank θ (s.loc θ) ≤ 15)
    (hs : (machine (clientProgram mp)).step s x = some (s', out)) (θ : ThreadId) :
    clientRank θ (s'.loc θ) ≤ 15 := by
  have hP := client_disciplined mp
  obtain ⟨θ', e⟩ := x
  have hmove : ∀ {y : Locals θ'}, clientRank θ' y ≤ 15 →
      clientRank θ (Function.update s.loc θ' y θ) ≤ 15 := by
    intro y hy
    by_cases hθ : θ = θ'
    · subst hθ
      rwa [Function.update_self]
    · rw [Function.update_of_ne hθ]
      exact h θ
  rcases instr_cases hs with ⟨l, next, hi, -, -, rfl⟩ | ⟨l, next, hi, -, -, rfl⟩ |
    ⟨l, f, r, hi, hf, -, rfl⟩ | ⟨l, f, r, hi, hf, -, rfl⟩ | ⟨f, r, hi, hf, -, rfl⟩
  · exact hmove (lock_rank hi)
  · exact hmove (by rw [outside_rank (hP.unlock hi).2]; exact Nat.zero_le _)
  · exact hmove ((access_rank hi hf).le.trans (h θ'))
  · exact hmove (by rw [outside_rank ((hP.peek hi).2 hf)]; exact Nat.zero_le _)
  · exact hmove (by rw [outside_rank ((hP.free hi).2 hf)]; exact Nat.zero_le _)

/-- The thread that owns a mutex stays in its section for all of the run. -/
def StaysInside (θ : ThreadId) (s : ThreadsState)
    (tr : List (Step ThreadsState (Σ _ : ThreadId, Outside) Seen)) : Prop :=
  ∀ u ∈ s :: states tr, clientHolds θ (u.loc θ) ≠ none

/-- **The client's mutexes do their work.** At every point of every run of the statements of the
three threads: no thread is about to touch a global that another is about to change; no two threads
are in sections of one mutex; and where a thread waits for a mutex, another thread owns it, which
waits for none itself and stays in its section for at most fifteen more of its statements. -/
theorem client_locks {s : ThreadsState}
    {tr : List (Step ThreadsState (Σ _ : ThreadId, Outside) Seen)}
    (hr : Run (machine (clientProgram mp)) threadsInit tr s) :
    (∀ θ θ' l, θ ≠ θ' → Writes l (clientProgram mp θ (s.loc θ)) →
      ¬ Touches l (clientProgram mp θ' (s.loc θ'))) ∧
    (∀ θ θ' l, clientHolds θ (s.loc θ) = some l → clientHolds θ' (s.loc θ') = some l → θ = θ') ∧
    ∀ θ l, Waits (clientProgram mp) s θ l → ∃ θ', s.owner l = some θ' ∧ θ' ≠ θ ∧
      (∀ l', ¬ Waits (clientProgram mp) s θ' l') ∧
      ∀ tu s', Run (machine (clientProgram mp)) s tu s' → StaysInside θ' s tu →
        ownSteps θ' tu ≤ 15 := by
  have hP := client_disciplined mp
  have howned := client_owned hr
  have hrank : ∀ θ, clientRank θ (s.loc θ) ≤ 15 := by
    refine hr.invariantWhere (I := fun s => ∀ θ, clientRank θ (s.loc θ) ≤ 15)
      (P := fun _ => True) (fun s e s' out h _ hs => rank_step h hs) (fun _ _ => trivial) ?_
    intro θ
    rw [outside_rank (threadsInit_outside θ)]
    exact Nat.zero_le _
  refine ⟨fun θ θ' l hne hw => no_race hP howned hne hw, fun θ θ' l hθ hθ' =>
    exclusive howned hθ hθ', fun θ l hw => ?_⟩
  obtain ⟨θ', howner, hne, hno⟩ := waits_no_chain hP howned hw
  refine ⟨θ', howner, hne, hno, fun tu s' htu hin => ?_⟩
  have hle := leaves hP (fun hx _ _ _ hf => access_rank hx hf) htu hin
  have := hrank θ'
  omega

/-! ### An example run -/

/-- A statement at which everything outside succeeds, and a packet that makes the client a slave. -/
def welcomed : Outside where
  env := .ideal
  data := frame .resUserInfo (some (userInfoBytes reference ⟨1, false⟩))
  call := ⟨0, ⟨1, 0⟩⟩
  userInfo := .zero
  gameState := .zero
  inputs _ := .zero

/-- The net thread is told twice who the client is, and has just freed what it was told first; the
main thread calls `try_execute_tick`. -/
def toldTwice : List (Σ _ : ThreadId, Outside) :=
  List.replicate 16 ⟨.net, welcomed⟩ ++ [⟨.caller .main, welcomed⟩]

/-- The net thread is before its `malloc`, and the main thread before the lock. -/
def replacing (s : ThreadsState) : Bool :=
  (match s.loc .net with
    | .mallocUserInfo _ => true
    | _ => false) &&
  (match s.cell .myUserInfo with
    | .freed => true
    | _ => false) &&
  (match s.loc (.caller .main) with
    | .lockInfo _ => true
    | _ => false) &&
  decide (s.owner .myUserInfo = some .net)

theorem toldTwice_run : ∃ tr s, Run (machine (clientProgram reference)) threadsInit tr s ∧
    (∃ ui, s.loc .net = .mallocUserInfo ui) ∧ s.cell .myUserInfo = .freed ∧
    (∃ c, s.loc (.caller .main) = .lockInfo c) ∧ s.owner .myUserInfo = some .net := by
  obtain ⟨tr, s, hr, -, hQ⟩ := run_of_exec (machine (clientProgram reference)) threadsInit toldTwice
    (fun _ s => replacing s) (by decide +kernel)
  simp only [replacing, Bool.and_eq_true, decide_eq_true_eq] at hQ
  obtain ⟨⟨⟨hnet, hcell⟩, hmain⟩, howner⟩ := hQ
  refine ⟨tr, s, hr, ?_, ?_, ?_, howner⟩
  · split at hnet
    · exact ⟨_, ‹_›⟩
    · cases hnet
  · split at hcell
    · assumption
    · cases hcell
  · split at hmain
    · exact ⟨_, ‹_›⟩
    · cases hmain

/-- The main thread waits for the net thread, which waits for nobody. -/
theorem client_locks_toldTwice :
    ∃ tr s, Run (machine (clientProgram reference)) threadsInit tr s ∧
      Waits (clientProgram reference) s (.caller .main) .myUserInfo ∧
      ∀ l, ¬ Waits (clientProgram reference) s .net l := by
  obtain ⟨tr, s, hr, -, -, ⟨c, hmain⟩, howner⟩ := toldTwice_run
  have hwaits : Waits (clientProgram reference) s (.caller .main) .myUserInfo :=
    ⟨.testInfo c, by rw [hmain]; rfl, by simp [howner]⟩
  obtain ⟨θ, hθ, -, hno, -⟩ := (client_locks hr).2.2 _ _ hwaits
  rw [howner] at hθ
  cases hθ
  exact ⟨tr, s, hr, hwaits, hno⟩

end MasterRelay.Client
