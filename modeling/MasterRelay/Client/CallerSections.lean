import MasterRelay.Client.Locks

/-!
# What the sections of a call do

Each section of `is_user_info_ready`, `try_execute_tick` and `handle_cmd_slave_tick`, run to its
unlock with nobody in between: what the thread has read or written, from what the global held at the
lock. As in `Client/NetSections.lean`, a section has an invariant for its statements, and a lemma
that carries it from the lock to the unlock.
-/

namespace MasterRelay.Client

open MasterRelay.Lib.Memory
open MasterRelay.Lib.MsgPack
open MasterRelay.Lib.Mutex
open MasterRelay.Protocol

variable {mp : Msgpack} {θ : Thread} {es : List Outside} {a c : ∀ l, Cell l} {y z : CallerLocal}
  {l : Mtx} {k : TickCall}

/-! ## `MY_USER_INFO` -/

/-- The section of `is_user_info_ready`. -/
def ReadySection (k : TickCall) (g₀ : Pointer UserInfo) (c : ∀ l, Cell l) : CallerLocal → Prop
  | .testReady k' => k' = k ∧ c .myUserInfo = g₀
  | .unlockReady k' _ => k' = k ∧ c .myUserInfo = g₀
  | _ => False

theorem ready_section
    (h : inside (clientProgram mp) (.caller θ) es a (.testReady k) = some (c, y))
    (hy : callerProgram mp θ y = .unlock l z) :
    (z = .lockInfo k ∨ z = .idle) ∧ c .myUserInfo = a .myUserInfo := by
  have hend := inside_invariant (P := clientProgram mp) (θ := .caller θ)
    (I := fun c x => ReadySection k (a .myUserInfo) c x) (fun c x l f e v hI hx hf => by
      cases x with
      | testReady k' =>
        cases hx
        obtain ⟨rfl, hc⟩ : k' = k ∧ _ := hI
        obtain ⟨hv, ⟨-, hnext⟩ | ⟨-, hnext⟩⟩ := testNull_eq hf <;> rw [hnext] <;>
          exact ⟨rfl, by rw [Function.update_self, hv, hc]⟩
      | unlockReady k' b => cases hx
      | _ => exact hI.elim) h ⟨rfl, rfl⟩
  cases y with
  | unlockReady k' b =>
    cases hy
    obtain ⟨rfl, hc⟩ : k' = k ∧ _ := hend
    cases b with
    | true => exact ⟨.inl rfl, hc⟩
    | false => exact ⟨.inr rfl, hc⟩
  | testReady k' => cases hy
  | _ => exact hend.elim

/-- The section that copies `*MY_USER_INFO`. -/
def InfoSection (k : TickCall) (g₀ : Pointer UserInfo) (c : ∀ l, Cell l) : CallerLocal → Prop
  | .testInfo k' => k' = k ∧ c .myUserInfo = g₀
  | .copyInfo k' todo myUi => k' = k ∧ c .myUserInfo = g₀ ∧ Copying userInfoLayout g₀ todo myUi
  | .unlockFailed mtx err =>
    mtx = .myUserInfo ∧ err = "MY_USER_INFO is not ready." ∧ g₀ = .null ∧ c .myUserInfo = g₀
  | _ => False

theorem info_section
    (h : inside (clientProgram mp) (.caller θ) es a (.testInfo k) = some (c, y))
    (hy : callerProgram mp θ y = .unlock l z) : c .myUserInfo = a .myUserInfo ∧
      (a .myUserInfo = .null ∧ z = .failed "MY_USER_INFO is not ready." ∨
        ∃ ui, a .myUserInfo = .live ui ∧ z = .branch k ui) := by
  have hend := inside_invariant (P := clientProgram mp) (θ := .caller θ)
    (I := fun c x => InfoSection k (a .myUserInfo) c x) (fun c x l f e v hI hx hf => by
      cases x with
      | testInfo k' =>
        cases hx
        obtain ⟨rfl, hc⟩ : k' = k ∧ _ := hI
        obtain ⟨hv, ⟨hnull, hnext⟩ | ⟨-, hnext⟩⟩ := testNull_eq hf <;> rw [hnext]
        · exact ⟨rfl, rfl, hc.symm.trans hnull, by rw [Function.update_self, hv, hc]⟩
        · exact ⟨rfl, by rw [Function.update_self, hv, hc], copying_start _ _⟩
      | copyInfo k' todo ui =>
        obtain ⟨rfl, hc, hcopy⟩ : k' = k ∧ _ ∧ _ := hI
        cases todo with
        | nil => cases hx
        | cons w todo =>
          cases hx
          obtain ⟨u, hu, hv, hnext⟩ := readWord_eq hf
          rw [hnext]
          refine ⟨rfl, by rw [Function.update_self, hv, hc], ?_⟩
          rw [← hc, hu] at hcopy ⊢
          exact copying_step hcopy
      | unlockFailed mtx err => cases hx
      | _ => exact hI.elim) h ⟨rfl, rfl⟩
  cases y with
  | copyInfo k' todo ui =>
    cases todo with
    | nil =>
      cases hy
      obtain ⟨rfl, hc, hcopy⟩ : k' = k ∧ _ ∧ _ := hend
      exact ⟨hc, .inr ⟨ui, copying_done hcopy, rfl⟩⟩
    | cons w todo => cases hy
  | unlockFailed mtx err =>
    cases hy
    obtain ⟨-, rfl, hnull, hc⟩ : _ ∧ err = _ ∧ _ ∧ _ := hend
    exact ⟨hc, .inl ⟨hnull, rfl⟩⟩
  | testInfo k' => cases hy
  | _ => exact hend.elim

/-- The section of `handle_cmd_slave_tick`. -/
def IdSection (k : TickCall) (g₀ : Pointer UserInfo) (c : ∀ l, Cell l) : CallerLocal → Prop
  | .readId k' => k' = k ∧ c .myUserInfo = g₀
  | .unlockId _ k' id => k' = k ∧ c .myUserInfo = g₀ ∧ ∃ ui, g₀ = .live ui ∧ ui.id = id
  | _ => False

theorem id_section
    (h : inside (clientProgram mp) (.caller θ) es a (.readId k) = some (c, y))
    (hy : callerProgram mp θ y = .unlock l z) : c .myUserInfo = a .myUserInfo ∧
      ∃ env ui, a .myUserInfo = .live ui ∧ z = .sendInput env k ui.id := by
  have hend := inside_invariant (P := clientProgram mp) (θ := .caller θ)
    (I := fun c x => IdSection k (a .myUserInfo) c x) (fun c x l f e v hI hx hf => by
      cases x with
      | readId k' =>
        cases hx
        obtain ⟨rfl, hc⟩ : k' = k ∧ _ := hI
        revert hf
        cases hg : c .myUserInfo with
        | live ui =>
          intro hf
          cases hf
          exact ⟨rfl, by rw [Function.update_self, ← hg, hc], ui, hc.symm.trans hg, rfl⟩
        | null =>
          intro hf
          cases hf
        | freed =>
          intro hf
          cases hf
      | unlockId env k' id => cases hx
      | _ => exact hI.elim) h ⟨rfl, rfl⟩
  cases y with
  | unlockId env k' id =>
    cases hy
    obtain ⟨rfl, hc, ui, hui, rfl⟩ : k' = k ∧ _ ∧ ∃ ui, _ := hend
    exact ⟨hc, env, ui, hui, rfl⟩
  | readId k' => cases hy
  | _ => exact hend.elim

/-! ## `CURRENT_GAME_STATE` and `LAST_PLAYER_INPUTS` -/

/-- The section that copies `*CURRENT_GAME_STATE`. -/
def CopySection (k : TickCall) (g₀ : Pointer GameState) (c : ∀ l, Cell l) : CallerLocal → Prop
  | .testCopy k' => k' = k ∧ c .currentGameState = g₀
  | .copyState k' todo gs =>
    k' = k ∧ c .currentGameState = g₀ ∧ Copying gameStateLayout g₀ todo gs
  | .unlockFailed mtx err => mtx = .currentGameState ∧
      err = "CURRENT_GAME_STATE is not ready." ∧ g₀ = .null ∧ c .currentGameState = g₀
  | _ => False

theorem copy_section
    (h : inside (clientProgram mp) (.caller θ) es a (.testCopy k) = some (c, y))
    (hy : callerProgram mp θ y = .unlock l z) : c .currentGameState = a .currentGameState ∧
      (a .currentGameState = .null ∧ z = .failed "CURRENT_GAME_STATE is not ready." ∨
        ∃ gs, a .currentGameState = .live gs ∧ z = .addOwn k gs) := by
  have hend := inside_invariant (P := clientProgram mp) (θ := .caller θ)
    (I := fun c x => CopySection k (a .currentGameState) c x) (fun c x l f e v hI hx hf => by
      cases x with
      | testCopy k' =>
        cases hx
        obtain ⟨rfl, hc⟩ : k' = k ∧ _ := hI
        obtain ⟨hv, ⟨hnull, hnext⟩ | ⟨-, hnext⟩⟩ := testNull_eq hf <;> rw [hnext]
        · exact ⟨rfl, rfl, hc.symm.trans hnull, by rw [Function.update_self, hv, hc]⟩
        · exact ⟨rfl, by rw [Function.update_self, hv, hc], copying_start _ _⟩
      | copyState k' todo gs =>
        obtain ⟨rfl, hc, hcopy⟩ : k' = k ∧ _ ∧ _ := hI
        cases todo with
        | nil => cases hx
        | cons w todo =>
          cases hx
          obtain ⟨u, hu, hv, hnext⟩ := readWord_eq hf
          rw [hnext]
          refine ⟨rfl, by rw [Function.update_self, hv, hc], ?_⟩
          rw [← hc, hu] at hcopy ⊢
          exact copying_step hcopy
      | unlockFailed mtx err => cases hx
      | _ => exact hI.elim) h ⟨rfl, rfl⟩
  cases y with
  | copyState k' todo gs =>
    cases todo with
    | nil =>
      cases hy
      obtain ⟨rfl, hc, hcopy⟩ : k' = k ∧ _ ∧ _ := hend
      exact ⟨hc, .inr ⟨gs, copying_done hcopy, rfl⟩⟩
    | cons w todo => cases hy
  | unlockFailed mtx err =>
    cases hy
    obtain ⟨-, rfl, hnull, hc⟩ : _ ∧ err = _ ∧ _ ∧ _ := hend
    exact ⟨hc, .inl ⟨hnull, rfl⟩⟩
  | testCopy k' => cases hy
  | _ => exact hend.elim

/-- The section that collects the inputs of the others. -/
def CollectSection (k : TickCall) (gs : GameState) (g₀ : Pointer (Fin othersCount → PlayerInput))
    (c : ∀ l, Cell l) : CallerLocal → Prop
  | .enterCollect k' gs' => k' = k ∧ gs' = gs ∧ c .lastPlayerInputs = g₀
  | .collect k' gs' todo inputs => k' = k ∧ gs' = gs ∧ c .lastPlayerInputs = g₀ ∧
      Copying playerInputsLayout g₀ todo inputs
  | _ => False

theorem collect_section {gs : GameState}
    (h : inside (clientProgram mp) (.caller θ) es a (.enterCollect k gs) = some (c, y))
    (hy : callerProgram mp θ y = .unlock l z) : c .lastPlayerInputs = a .lastPlayerInputs ∧
      ∃ inputs, a .lastPlayerInputs = .live inputs ∧ z = .lockWrite k (othersInputs inputs gs) := by
  have hend := inside_invariant (P := clientProgram mp) (θ := .caller θ)
    (I := fun c x => CollectSection k gs (a .lastPlayerInputs) c x) (fun c x l f e v hI hx hf => by
      cases x with
      | enterCollect k' gs' =>
        cases hx
        obtain ⟨rfl, rfl, hc⟩ : k' = k ∧ gs' = gs ∧ _ := hI
        cases hf
        exact ⟨rfl, rfl, by rw [Function.update_self, hc], copying_start _ _⟩
      | collect k' gs' todo inputs =>
        obtain ⟨rfl, rfl, hc, hcopy⟩ : k' = k ∧ gs' = gs ∧ _ ∧ _ := hI
        cases todo with
        | nil => cases hx
        | cons w todo =>
          cases hx
          obtain ⟨u, hu, hv, hnext⟩ := readWord_eq hf
          rw [hnext]
          refine ⟨rfl, rfl, by rw [Function.update_self, hv, hc], ?_⟩
          rw [← hc, hu] at hcopy ⊢
          exact copying_step hcopy
      | _ => exact hI.elim) h ⟨rfl, rfl, rfl⟩
  cases y with
  | collect k' gs' todo inputs =>
    cases todo with
    | nil =>
      cases hy
      obtain ⟨rfl, rfl, hc, hcopy⟩ : k' = k ∧ gs' = gs ∧ _ ∧ _ := hend
      exact ⟨hc, inputs, copying_done hcopy, rfl⟩
    | cons w todo => cases hy
  | enterCollect k' gs' => cases hy
  | _ => exact hend.elim

/-- The section that writes the state back: until the first word is written, `*CURRENT_GAME_STATE`
is as it was. -/
def WriteSection (gs : GameState) (g₀ : Pointer GameState) (c : ∀ l, Cell l) :
    CallerLocal → Prop
  | .writeState todo gs' => gs' = gs ∧ Storing gameStateLayout gs todo (c .currentGameState) ∧
      (c .currentGameState = g₀ ∨ ∃ old, g₀ = .live old)
  | _ => False

theorem write_section {gs : GameState}
    (h : inside (clientProgram mp) (.caller θ) es a (.writeState gameStateLayout.words gs) =
      some (c, y)) (hy : callerProgram mp θ y = .unlock l z) : z = .lockSend ∧
      c .currentGameState = .live gs ∧ ∃ old, a .currentGameState = .live old := by
  have hend := inside_invariant (P := clientProgram mp) (θ := .caller θ)
    (I := fun c x => WriteSection gs (a .currentGameState) c x) (fun c x l f e v hI hx hf => by
      cases x with
      | writeState todo gs' =>
        obtain ⟨rfl, hst, hold⟩ : gs' = gs ∧ _ ∧ _ := hI
        cases todo with
        | nil => cases hx
        | cons w todo =>
          cases hx
          obtain ⟨hw, hnext⟩ := store_eq hf
          obtain ⟨old, hc, -⟩ := Pointer.write_eq hw
          rw [hnext]
          refine ⟨rfl, by rw [Function.update_self]; exact storing_step hst hw, .inr ?_⟩
          rcases hold with hsame | hold
          · exact ⟨old, hsame.symm.trans hc⟩
          · exact hold
      | _ => exact hI.elim) h ⟨rfl, storing_start _, .inl rfl⟩
  cases y with
  | writeState todo gs' =>
    cases todo with
    | nil =>
      cases hy
      obtain ⟨rfl, hst, hold⟩ : gs' = gs ∧ _ ∧ _ := hend
      have hc := storing_done hst
      refine ⟨rfl, hc, ?_⟩
      rcases hold with hsame | hold
      · exact ⟨gs', hsame.symm.trans hc⟩
      · exact hold
    | cons w todo => cases hy
  | _ => exact hend.elim

/-- The section that reads the state again to send it. -/
def SendSection (g₀ : Pointer GameState) (c : ∀ l, Cell l) : CallerLocal → Prop
  | .testSend => c .currentGameState = g₀
  | .copySend _ todo gs => c .currentGameState = g₀ ∧ Copying gameStateLayout g₀ todo gs
  | .unlockFailed mtx err => mtx = .currentGameState ∧
      err = "CURRENT_GAME_STATE is NULL!" ∧ g₀ = .null ∧ c .currentGameState = g₀
  | _ => False

theorem send_section (h : inside (clientProgram mp) (.caller θ) es a .testSend = some (c, y))
    (hy : callerProgram mp θ y = .unlock l z) : c .currentGameState = a .currentGameState ∧
      (a .currentGameState = .null ∧ z = .failed "CURRENT_GAME_STATE is NULL!" ∨
        ∃ env gs, a .currentGameState = .live gs ∧ z = .send env gs) := by
  have hend := inside_invariant (P := clientProgram mp) (θ := .caller θ)
    (I := fun c x => SendSection (a .currentGameState) c x) (fun c x l f e v hI hx hf => by
      cases x with
      | testSend =>
        cases hx
        obtain ⟨hv, ⟨hnull, hnext⟩ | ⟨-, hnext⟩⟩ := testNull_eq hf <;> rw [hnext]
        · exact ⟨rfl, rfl, Eq.trans (Eq.symm hI) hnull, by rw [Function.update_self, hv]; exact hI⟩
        · exact ⟨by rw [Function.update_self, hv]; exact hI, copying_start _ _⟩
      | copySend env todo gs =>
        obtain ⟨hc, hcopy⟩ : _ ∧ _ := hI
        cases todo with
        | nil => cases hx
        | cons w todo =>
          cases hx
          obtain ⟨u, hu, hv, hnext⟩ := readWord_eq hf
          rw [hnext]
          refine ⟨by rw [Function.update_self, hv, hc], ?_⟩
          rw [← hc, hu] at hcopy ⊢
          exact copying_step hcopy
      | unlockFailed mtx err => cases hx
      | _ => exact hI.elim) h rfl
  cases y with
  | copySend env todo gs =>
    cases todo with
    | nil =>
      cases hy
      obtain ⟨hc, hcopy⟩ : _ ∧ _ := hend
      exact ⟨hc, .inr ⟨env, gs, copying_done hcopy, rfl⟩⟩
    | cons w todo => cases hy
  | unlockFailed mtx err =>
    cases hy
    obtain ⟨-, rfl, hnull, hc⟩ : _ ∧ err = _ ∧ _ ∧ _ := hend
    exact ⟨hc, .inl ⟨hnull, rfl⟩⟩
  | testSend => cases hy
  | _ => exact hend.elim

end MasterRelay.Client
