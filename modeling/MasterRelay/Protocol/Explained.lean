import MasterRelay.Protocol.States

/-!
# Failures and their messages

Every caller prints `err_buf`, an uninitialised array, when a parser or a decoder returns false. So
each `return false` has to write it first. Two do not: `ifb_ptcl_try_parse_message_by_type` on an
empty packet, and `ifb_fun_try_unpack_user_info` on a root that is not a map (both siblings write
that the root type is invalid).

* `Explained`: the call wrote `err_buf` if it returned false.
* `foldlM_ne_error`: a loop stops only as its body does.
* **`failures_explained_iff`**: the exact inputs, for all five functions.
* `silentFailures`: the two silent ones, on packets any peer can send.
-/

namespace MasterRelay.Protocol

open MasterRelay.Lib.MsgPack

/-- If the call returned false it wrote `err_buf`. -/
def Explained {α : Type} (r : Except Stop α) : Prop := r ≠ .error (.err none)

theorem explained_ok {α : Type} (a : α) : Explained (.ok a : Except Stop α) := by
  simp [Explained]

theorem explained_fail {α : Type} (msg : String) : Explained (fail msg : Except Stop α) := by
  simp [Explained, fail]

theorem explained_fault {α : Type} : Explained (.error .fault : Except Stop α) := by
  simp [Explained]

section Stops

variable {α β σ : Type} {e : Stop}

/-- A result mapped stops as it did. -/
theorem map_ne_error (f : α → β) {r : Except Stop α} (h : r ≠ .error e) : r.map f ≠ .error e := by
  intro heq
  cases r with
  | error e' =>
    cases heq
    exact h rfl
  | ok a => cases heq

theorem bind_ne_error {r : Except Stop α} {f : α → Except Stop β} (h : r ≠ .error e)
    (hf : ∀ a, f a ≠ .error e) : (r >>= f) ≠ .error e := by
  intro heq
  cases r with
  | error e' =>
    cases heq
    exact h rfl
  | ok a => exact hf a heq

/-- **A loop stops only as its body does.** -/
theorem foldlM_ne_error {body : σ → α → Except Stop σ} {xs : List α}
    (h : ∀ st, ∀ x ∈ xs, body st x ≠ .error e) (st : σ) : xs.foldlM body st ≠ .error e := by
  induction xs generalizing st with
  | nil =>
    intro heq
    cases heq
  | cons x xs ih =>
    rw [List.foldlM_cons]
    exact bind_ne_error (h st x List.mem_cons_self)
      fun st' => ih (fun st x hx => h st x (List.mem_cons_of_mem _ hx)) st'

end Stops

/-! ## Decoder by decoder -/

theorem parse_explained_iff {data : Bytes} :
    Explained (ifbPtclTryParseMessageByType data) ↔ data ≠ [] := by
  cases data with
  | nil => exact iff_of_false (fun h => h rfl) (fun h => h rfl)
  | cons b payload =>
    refine iff_of_true ?_ (by simp)
    rw [ifbPtclTryParseMessageByType]
    split
    · exact explained_ok _
    · exact explained_fail _

theorem playerPos_explained (mp : Msgpack) (rd : Reader) (out : PlayerPos) (obj : Object) :
    Explained (ifbTryUnpackPlayerPos mp rd out obj) := by
  cases obj with
  | map kvs =>
    by_cases h : ∀ kv ∈ kvs, rd.Comparable kv.1
    · rw [(unpackPlayerPos_selection mp rd out kvs).1 h, playerPosSelection]
      split
      · exact explained_fail _
      · exact explained_fail _
      · exact explained_fail _
      · exact explained_ok _
    · rw [(unpackPlayerPos_selection mp rd out kvs).2 h]
      exact explained_fault
  | _ => exact explained_fail _

theorem gameStateEntry_explained (mp : Msgpack) (rd : Reader) (st : GameStateLoop)
    (kv : Object × Object) : Explained (gameStateEntry mp rd st kv) := by
  obtain ⟨k, v⟩ := kv
  rcases rootKey_cases k with ⟨s, i, rfl, hi⟩ | ⟨hk, -⟩
  · rw [gameStateEntry_pos mp rd hi]
    exact map_ne_error _ (playerPos_explained mp rd _ v)
  · obtain ⟨st', hst⟩ := gameStateEntry_notPos mp rd st v hk
    rw [hst]
    exact explained_ok st'

theorem gameState_explained (mp : Msgpack) (rd : Reader) (payload : Option Bytes) :
    Explained (ifbTryUnpackGameState mp rd payload) := by
  cases payload with
  | none => exact explained_fail _
  | some data =>
    rw [ifbTryUnpackGameState]
    split
    · exact explained_fail _
    · exact explained_fail _
    · exact explained_fail _
    · refine bind_ne_error
        (foldlM_ne_error (fun st kv _ => gameStateEntry_explained mp rd st kv) _) fun st => ?_
      rcases gameStateResult_flags st with ⟨hok, -⟩ | ⟨⟨msg, hmsg⟩, -⟩
      · rw [hok]
        exact explained_ok _
      · rw [hmsg]
        exact explained_fail _
    · exact explained_fail _

theorem playerInput_explained (mp : Msgpack) (rd : Reader) (payload : Option Bytes) :
    Explained (ifbTryUnpackPlayerInput mp rd payload) := by
  cases h : mp.unpackNext (payload.getD []) with
  | success root =>
    cases root with
    | map kvs =>
      rw [unpackPlayerInput_selection rd payload h, playerInputSelection]
      split
      · exact explained_fail _
      · exact explained_fail _
      · exact explained_fail _
      · exact explained_ok _
    | _ =>
      simp only [ifbTryUnpackPlayerInput, h]
      exact explained_fail _
  | _ =>
    simp only [ifbTryUnpackPlayerInput, h]
    exact explained_fail _

/-- The object is a map. -/
def isMap : Object → Bool
  | .map _ => true
  | _ => false

theorem userInfo_explained_iff {mp : Msgpack} {rd : Reader} {payload : Option Bytes} :
    Explained (ifbFunTryUnpackUserInfo mp rd payload) ↔
      ∀ root, mp.unpackNext (payload.getD []) = .success root → isMap root = true := by
  cases h : mp.unpackNext (payload.getD []) with
  | success root =>
    cases root with
    | map kvs =>
      refine iff_of_true ?_ fun root hroot => ?_
      · rw [unpackUserInfo_selection rd payload h, userInfoSelection]
        split
        · exact explained_ok _
        · exact explained_fail _
      · cases hroot
        rfl
    | _ =>
      refine iff_of_false (fun hexp => hexp ?_) fun hmap => absurd (hmap _ rfl) (by simp [isMap])
      simp only [ifbFunTryUnpackUserInfo, h]
  | _ =>
    refine iff_of_true ?_ fun root hroot => ?_
    · simp only [ifbFunTryUnpackUserInfo, h]
      exact explained_fail _
    · cases hroot

/-- **Where failures are explained**: by the message parser exactly on packets that are not empty,
by the user-info decoder exactly where the first object of the payload, when there is one, is a map,
and by the other decoders always. -/
theorem failures_explained_iff (mp : Msgpack) (rd : Reader) (data : Bytes)
    (payload : Option Bytes) (out : PlayerPos) (obj : Object) :
    (Explained (ifbPtclTryParseMessageByType data) ↔ data ≠ []) ∧
    (Explained (ifbFunTryUnpackUserInfo mp rd payload) ↔
      ∀ root, mp.unpackNext (payload.getD []) = .success root → isMap root = true) ∧
    Explained (ifbTryUnpackGameState mp rd payload) ∧
    Explained (ifbTryUnpackPlayerPos mp rd out obj) ∧
    Explained (ifbTryUnpackPlayerInput mp rd payload) :=
  ⟨parse_explained_iff, userInfo_explained_iff, gameState_explained mp rd payload,
    playerPos_explained mp rd out obj, playerInput_explained mp rd payload⟩

/-- An empty packet, and a user info whose payload is the number 1. -/
theorem silentFailures : reference.Lawful ∧
    ¬ Explained (ifbPtclTryParseMessageByType []) ∧
    ifbPtclTryParseMessageByType [0x02, 0x01] = .ok (.resUserInfo, some [0x01]) ∧
    ¬ Explained (ifbFunTryUnpackUserInfo reference (.strict fun _ => 0) (some [0x01])) :=
  ⟨reference_lawful, fun h => h rfl, by decide, fun h => h (by decide +kernel)⟩

end MasterRelay.Protocol
