import MasterRelay.Client.Locks

/-!
# What the sections of the net thread do

Each section of the net thread, run to its unlock with nobody in between, statement by statement:
what the global of its mutex holds then, from what it held at the lock. A section's invariant says
for each of its statements what has been done so far; one lemma a section carries it from the lock
to the unlock (`inside_invariant`).
-/

namespace MasterRelay.Client

open MasterRelay.Lib.Memory
open MasterRelay.Lib.MsgPack
open MasterRelay.Lib.Mutex
open MasterRelay.Protocol

variable {mp : Msgpack} {es : List Outside} {a c : ∀ l, Cell l} {y z : NetLocal} {l : Mtx}

/-! ## `MY_USER_INFO` -/

/-- The section that replaces `MY_USER_INFO` by `usrInfo`. -/
def UserInfoSection (usrInfo : UserInfo) (c : ∀ l, Cell l) : NetLocal → Prop
  | .freeUserInfo ui => ui = usrInfo
  | .mallocUserInfo ui => ui = usrInfo
  | .storeUserInfo ui todo => ui = usrInfo ∧ Storing userInfoLayout usrInfo todo (c .myUserInfo)
  | .unlockUserInfo ui => ui = usrInfo ∧ c .myUserInfo = .live usrInfo
  | _ => False

theorem userInfo_section {usrInfo : UserInfo}
    (h : inside (clientProgram mp) .net es a (.freeUserInfo usrInfo) = some (c, y))
    (hy : netProgram mp y = .unlock l z) :
    z = .testMaster usrInfo ∧ c .myUserInfo = .live usrInfo := by
  have hend := inside_invariant (P := clientProgram mp) (θ := .net)
    (I := fun c x => UserInfoSection usrInfo c x) (fun c x l f e v hI hx hf => by
      cases x with
      | freeUserInfo ui =>
        cases hx
        obtain rfl : ui = usrInfo := hI
        revert hf
        cases c .myUserInfo <;> intro hf <;> cases hf <;> rfl
      | mallocUserInfo ui =>
        cases hx
        obtain rfl : ui = usrInfo := hI
        cases hf
        exact ⟨rfl, storing_start _⟩
      | storeUserInfo ui todo =>
        obtain ⟨rfl, hst⟩ : ui = usrInfo ∧ _ := hI
        cases todo with
        | nil =>
          cases hx
          obtain ⟨hw, hv⟩ := store_eq hf
          obtain ⟨w, hc, hv'⟩ := Pointer.write_eq hw
          rw [storing_done hst] at hc
          cases hc
          rw [hv]
          exact ⟨rfl, by rw [Function.update_self, hv']; rfl⟩
        | cons w todo =>
          cases hx
          obtain ⟨hw, hv⟩ := store_eq hf
          rw [hv]
          exact ⟨rfl, by rw [Function.update_self]; exact storing_step hst hw⟩
      | unlockUserInfo ui => cases hx
      | _ => exact hI.elim) h rfl
  cases y with
  | unlockUserInfo ui =>
    cases hy
    obtain ⟨rfl, hc⟩ : ui = usrInfo ∧ _ := hend
    exact ⟨rfl, hc⟩
  | storeUserInfo ui todo => cases todo <;> cases hy
  | freeUserInfo ui => cases hy
  | mallocUserInfo ui => cases hy
  | _ => exact hend.elim

/-! ## `attempt_init_current_game_state_by_master` -/

/-- The section that creates `CURRENT_GAME_STATE` where it is NULL. -/
def InitStateSection (g₀ : Pointer GameState) (c : ∀ l, Cell l) : NetLocal → Prop
  | .testGameState => c .currentGameState = g₀
  | .mallocGameState => g₀ = .null
  | .storeGameState todo => g₀ ≠ .null ∧ c .currentGameState = g₀ ∧ todo = [] ∨
      g₀ = .null ∧ Storing gameStateLayout .zero todo (c .currentGameState)
  | _ => False

theorem initState_section
    (h : inside (clientProgram mp) .net es a .testGameState = some (c, y))
    (hy : netProgram mp y = .unlock l z) :
    z = .lockInputs ∧ (a .currentGameState ≠ .null ∧ c .currentGameState = a .currentGameState ∨
      a .currentGameState = .null ∧ c .currentGameState = .live .zero) := by
  have hend := inside_invariant (P := clientProgram mp) (θ := .net)
    (I := fun c x => InitStateSection (a .currentGameState) c x) (fun c x l f e v hI hx hf => by
      cases x with
      | testGameState =>
        cases hx
        obtain ⟨hv, ⟨hnull, hnext⟩ | ⟨hne, hnext⟩⟩ := testNull_eq hf
        · rw [hnext]
          exact hI.symm.trans hnull
        · rw [hnext]
          refine .inl ⟨fun hnull => hne (Eq.trans hI hnull), ?_, rfl⟩
          rw [Function.update_self, hv]
          exact hI
      | mallocGameState =>
        cases hx
        cases hf
        exact .inr ⟨hI, storing_start _⟩
      | storeGameState todo =>
        cases todo with
        | nil => cases hx
        | cons w todo =>
          cases hx
          obtain ⟨hw, hv⟩ := store_eq hf
          rw [hv]
          rcases hI with ⟨-, -, hnil⟩ | ⟨hnull, hst⟩
          · cases hnil
          · exact .inr ⟨hnull, by rw [Function.update_self]; exact storing_step hst hw⟩
      | _ => exact hI.elim) h rfl
  cases y with
  | storeGameState todo =>
    cases todo with
    | nil =>
      cases hy
      refine ⟨rfl, ?_⟩
      rcases hend with ⟨hne, hc, -⟩ | ⟨hnull, hst⟩
      · exact .inl ⟨hne, hc⟩
      · exact .inr ⟨hnull, storing_done hst⟩
    | cons w todo => cases hy
  | testGameState => cases hy
  | mallocGameState => cases hy
  | _ => exact hend.elim

/-- The inputs `attempt_init_current_game_state_by_master` creates. -/
def initialInputs : Fin othersCount → PlayerInput := fun i => ⟨UInt32.ofNat (i + 1), 0, 0⟩

/-- The section that creates `LAST_PLAYER_INPUTS` where it is NULL. -/
def InitInputsSection (g₀ : Pointer (Fin othersCount → PlayerInput)) (c : ∀ l, Cell l) :
    NetLocal → Prop
  | .testInputs => c .lastPlayerInputs = g₀
  | .mallocInputs => g₀ = .null
  | .testMalloc => g₀ = .null ∧ c .lastPlayerInputs ≠ .freed
  | .storeInputs todo => g₀ = .null ∧ Storing playerInputsLayout initialInputs todo
      (c .lastPlayerInputs)
  | .unlockInput => c .lastPlayerInputs = g₀
  | _ => False

theorem initInputs_section
    (h : inside (clientProgram mp) .net es a .testInputs = some (c, y))
    (hy : netProgram mp y = .unlock l z) :
    z = .poll ∧ (c .lastPlayerInputs = a .lastPlayerInputs ∨
      a .lastPlayerInputs = .null ∧ c .lastPlayerInputs = .live initialInputs) := by
  have hend := inside_invariant (P := clientProgram mp) (θ := .net)
    (I := fun c x => InitInputsSection (a .lastPlayerInputs) c x) (fun c x l f e v hI hx hf => by
      cases x with
      | testInputs =>
        cases hx
        obtain ⟨hv, ⟨hnull, hnext⟩ | ⟨hne, hnext⟩⟩ := testNull_eq hf
        · rw [hnext]
          exact hI.symm.trans hnull
        · rw [hnext]
          show Function.update c _ v.1 Mtx.lastPlayerInputs = _
          rw [Function.update_self, hv]
          exact hI
      | mallocInputs =>
        cases hx
        cases hf
        refine ⟨hI, ?_⟩
        rw [Function.update_self]
        cases e.env.mallocPlayerInputs <;> simp [Pointer.malloc]
      | testMalloc =>
        cases hx
        obtain ⟨hnull₀, -⟩ : _ ∧ _ := hI
        obtain ⟨hv, ⟨hnull, hnext⟩ | ⟨hne, hnext⟩⟩ := testNull_eq hf
        · rw [hnext]
          show Function.update c _ v.1 Mtx.lastPlayerInputs = _
          rw [Function.update_self, hv, hnull, hnull₀]
        · rw [hnext]
          exact ⟨hnull₀, storing_start _⟩
      | storeInputs todo =>
        cases todo with
        | nil => cases hx
        | cons w todo =>
          cases hx
          obtain ⟨hnull₀, hst⟩ : _ ∧ _ := hI
          obtain ⟨hw, hv⟩ := store_eq hf
          rw [hv]
          exact ⟨hnull₀, by rw [Function.update_self]; exact storing_step hst hw⟩
      | unlockInput => cases hx
      | _ => exact hI.elim) h rfl
  cases y with
  | storeInputs todo =>
    cases todo with
    | nil =>
      cases hy
      obtain ⟨hnull, hst⟩ : _ ∧ _ := hend
      exact ⟨rfl, .inr ⟨hnull, storing_done hst⟩⟩
    | cons w todo => cases hy
  | unlockInput =>
    cases hy
    exact ⟨rfl, .inl hend⟩
  | testInputs => cases hy
  | mallocInputs => cases hy
  | testMalloc => cases hy
  | _ => exact hend.elim

/-! ## `handle_on_slave_connected` and `update_games_state_by_slave_input` -/

/-- The section that sets the flag of a slave. -/
def ConnectedSection (ui : UserInfo) (g₀ : Pointer GameState) (c : ∀ l, Cell l) :
    NetLocal → Prop
  | .testConnected ui' => ui' = ui ∧ c .currentGameState = g₀
  | .setExists ui' => ui' = ui ∧ c .currentGameState = g₀ ∧ g₀ ≠ .null
  | .unlockConnected => (g₀ = .null ∨ slaveIndex ui.id = none) ∧ c .currentGameState = g₀ ∨
      ∃ gs k, g₀ = .live gs ∧ slaveIndex ui.id = some k ∧
        c .currentGameState = .live (connectSlave gs k)
  | _ => False

theorem connected_section {ui : UserInfo}
    (h : inside (clientProgram mp) .net es a (.testConnected ui) = some (c, y))
    (hy : netProgram mp y = .unlock l z) :
    z = .poll ∧ ((a .currentGameState = .null ∨ slaveIndex ui.id = none) ∧
        c .currentGameState = a .currentGameState ∨
      ∃ gs k, a .currentGameState = .live gs ∧ slaveIndex ui.id = some k ∧
        c .currentGameState = .live (connectSlave gs k)) := by
  have hend := inside_invariant (P := clientProgram mp) (θ := .net)
    (I := fun c x => ConnectedSection ui (a .currentGameState) c x)
    (fun c x l f e v hI hx hf => by
      cases x with
      | testConnected ui' =>
        cases hx
        obtain ⟨rfl, hc⟩ : ui' = ui ∧ _ := hI
        obtain ⟨hv, ⟨hnull, hnext⟩ | ⟨hne, hnext⟩⟩ := testNull_eq hf
        · rw [hnext]
          refine .inl ⟨.inl (hc.symm.trans hnull), ?_⟩
          rw [Function.update_self, hv, hc]
        · rw [hnext]
          refine ⟨rfl, ?_, hc ▸ hne⟩
          rw [Function.update_self, hv, hc]
      | setExists ui' =>
        cases hx
        obtain ⟨rfl, hc, hne⟩ : ui' = ui ∧ _ ∧ _ := hI
        simp only at hf
        split at hf
        · rename_i k hk
          obtain ⟨hw, hv⟩ := store_eq hf
          obtain ⟨gs, hgs, hv'⟩ := Pointer.write_eq hw
          rw [hv]
          refine .inr ⟨gs, k, hc.symm.trans hgs, hk, ?_⟩
          rw [Function.update_self, hv']
        · rename_i hk
          cases hf
          refine .inl ⟨.inr hk, ?_⟩
          rw [Function.update_self, hc]
      | unlockConnected => cases hx
      | _ => exact hI.elim) h ⟨rfl, rfl⟩
  cases y with
  | unlockConnected =>
    cases hy
    exact ⟨rfl, hend⟩
  | testConnected ui' => cases hy
  | setExists ui' => cases hy
  | _ => exact hend.elim

/-- The section that stores the input of a slave. -/
def InputSection (pi : PlayerInput) (g₀ : Pointer (Fin othersCount → PlayerInput))
    (c : ∀ l, Cell l) : NetLocal → Prop
  | .writeX pi' => pi' = pi ∧ c .lastPlayerInputs = g₀
  | .writeY pi' => pi' = pi ∧ ∃ inputs k, g₀ = .live inputs ∧ slaveIndex pi.id = some k ∧
      c .lastPlayerInputs = .live (Function.update inputs k { inputs k with x := pi.x })
  | .unlockInput => slaveIndex pi.id = none ∧ c .lastPlayerInputs = g₀ ∨
      ∃ inputs k, g₀ = .live inputs ∧ slaveIndex pi.id = some k ∧
        c .lastPlayerInputs =
          .live (Function.update inputs k { inputs k with x := pi.x, y := pi.y })
  | _ => False

theorem input_section {pi : PlayerInput}
    (h : inside (clientProgram mp) .net es a (.writeX pi) = some (c, y))
    (hy : netProgram mp y = .unlock l z) :
    z = .poll ∧ (slaveIndex pi.id = none ∧ c .lastPlayerInputs = a .lastPlayerInputs ∨
      ∃ inputs k, a .lastPlayerInputs = .live inputs ∧ slaveIndex pi.id = some k ∧
        c .lastPlayerInputs =
          .live (Function.update inputs k { inputs k with x := pi.x, y := pi.y })) := by
  have hend := inside_invariant (P := clientProgram mp) (θ := .net)
    (I := fun c x => InputSection pi (a .lastPlayerInputs) c x)
    (fun c x l f e v hI hx hf => by
      cases x with
      | writeX pi' =>
        cases hx
        obtain ⟨rfl, hc⟩ : pi' = pi ∧ _ := hI
        simp only at hf
        split at hf
        · rename_i k hk
          obtain ⟨hw, hv⟩ := store_eq hf
          obtain ⟨inputs, hin, hv'⟩ := Pointer.write_eq hw
          rw [hv]
          refine ⟨rfl, inputs, k, hc.symm.trans hin, hk, ?_⟩
          rw [Function.update_self, hv']
        · rename_i hk
          cases hf
          refine .inl ⟨hk, ?_⟩
          rw [Function.update_self, hc]
      | writeY pi' =>
        cases hx
        obtain ⟨rfl, inputs, k, hin, hk, hc⟩ : pi' = pi ∧ ∃ inputs k, _ := hI
        simp only [hk] at hf
        obtain ⟨hw, hv⟩ := store_eq hf
        obtain ⟨inputs', hin', hv'⟩ := Pointer.write_eq hw
        rw [hc] at hin'
        cases hin'
        rw [hv]
        refine .inr ⟨inputs, k, hin, hk, ?_⟩
        rw [Function.update_self, hv', Function.update_idem, Function.update_self]
      | unlockInput => cases hx
      | _ => exact hI.elim) h ⟨rfl, rfl⟩
  cases y with
  | unlockInput =>
    cases hy
    exact ⟨rfl, hend⟩
  | writeX pi' => cases hy
  | writeY pi' => cases hy
  | _ => exact hend.elim

end MasterRelay.Client
