import MasterRelay.Protocol.Entries

/-!
# Where the decoders read their keys

Each decoder against `Reader.strict`, which allows a comparison only inside a string key.

* `ifb_fun_try_unpack_user_info` and `ifb_try_unpack_player_input` test a key's type and length
  before they compare it, and never leave it (`unpackUserInfo_noFault`,
  `unpackPlayerInput_noFault`).
* `ifb_try_unpack_player_pos` tests neither. It stays inside its keys exactly on the maps all of
  whose keys are strings at least as long as `is_exists` (`safePos`).
* `ifb_try_unpack_game_state` therefore stays inside exactly on the payloads `safePayload`
  describes: every position map it gets to is safe, and it gets to the entries up to the first
  position that is not accepted.

Result: `keyReads_inside_iff`.
-/

namespace MasterRelay.Protocol

open MasterRelay.Lib.MsgPack

/-- The call made no access it must not make. -/
def NoFault {α : Type} (r : Except Stop α) : Prop := r ≠ .error .fault

/-! ## The condition -/

/-- A string key at least as long as the longest key it is compared with. -/
def safeKey : Object → Bool
  | .str k => decide ((cStr "is_exists").length ≤ k.bytes.length)
  | _ => false

/-- A position whose keys can all be compared. What is not a map is refused before any key is. -/
def safePos : Object → Bool
  | .map kvs => kvs.all fun kv => safeKey kv.1
  | _ => true

/-- A string key that starts with `lit`. -/
def keyStarts (lit : Bytes) : Object → Bool
  | .str k => lit.isPrefixOf k.bytes
  | _ => false

/-- The value is a boolean. -/
def isBoolean : Object → Bool
  | .boolean _ => true
  | _ => false

/-- A map with an entry for each field of a position. -/
def completePos : Object → Bool
  | .map kvs =>
    (kvs.any fun kv => keyStarts (cStr "is_exists") kv.1 && isBoolean kv.2) &&
      (kvs.any fun kv => keyStarts (cStr "x") kv.1) && kvs.any fun kv => keyStarts (cStr "y") kv.1
  | _ => false

/-- A key of the root that names a position. -/
def isPosKey : Object → Bool
  | .str k => decide (∃ i, k.bytes = posName i)
  | _ => false

/-- Every position up to the first one that is refused is safe. -/
def safeEntries : List (Object × Object) → Bool
  | [] => true
  | (k, v) :: rest =>
    if isPosKey k then safePos v && (!completePos v || safeEntries rest) else safeEntries rest

/-- **The payloads whose keys are read in place**: the root is not a map, or its entries are
safe. -/
def safePayload (mp : Msgpack) : Option Bytes → Bool
  | none => true
  | some data =>
    match mp.unpackNext data with
    | .success (.map kvs) => safeEntries kvs
    | _ => true

/-! ## The flat decoders -/

/-- Nothing after a decoder's loop faults. -/
theorem fail_noFault {α : Type} (msg : String) : NoFault (fail msg : Except Stop α) := by
  simp [NoFault, fail]

theorem userInfoResult_noFault (st : UserInfoLoop) : NoFault (userInfoResult st) := by
  unfold userInfoResult
  split
  · exact fail_noFault _
  · simp [NoFault]

theorem playerInputResult_noFault (st : PlayerInputLoop) : NoFault (playerInputResult st) := by
  unfold playerInputResult
  split_ifs
  · exact fail_noFault _
  · exact fail_noFault _
  · exact fail_noFault _
  · simp [NoFault]

/-- **`ifb_fun_try_unpack_user_info` stays inside its keys**, on every payload. -/
theorem unpackUserInfo_noFault (mp : Msgpack) (rd : Reader) (data : Option Bytes) :
    NoFault (ifbFunTryUnpackUserInfo mp rd data) := by
  cases h : mp.unpackNext (data.getD []) with
  | success root =>
    cases root with
    | map kvs => rw [unpackUserInfo_map rd data h]; exact userInfoResult_noFault _
    | _ => simp [ifbFunTryUnpackUserInfo, h, NoFault]
  | _ => simp [ifbFunTryUnpackUserInfo, h, NoFault, fail]

/-- **`ifb_try_unpack_player_input` stays inside its keys**, on every payload. -/
theorem unpackPlayerInput_noFault (mp : Msgpack) (rd : Reader) (data : Option Bytes) :
    NoFault (ifbTryUnpackPlayerInput mp rd data) := by
  cases h : mp.unpackNext (data.getD []) with
  | success root =>
    cases root with
    | map kvs => rw [unpackPlayerInput_map rd data h]; exact playerInputResult_noFault _
    | _ => simp [ifbTryUnpackPlayerInput, h, NoFault, fail]
  | _ => simp [ifbTryUnpackPlayerInput, h, NoFault, fail]

/-! ## Positions -/

/-- The loop body of `ifb_try_unpack_player_pos` on a key long enough for its comparisons. -/
def playerPosStep (rd : Reader) (st : PlayerPosLoop) (kv : Object × Object) : PlayerPosLoop :=
  let st := match keyStarts (cStr "is_exists") kv.1, kv.2 with
    | true, .boolean b => { st with out := { st.out with isExists := b }, isFIsExistsParsed := true }
    | _, _ => st
  let st := if keyStarts (cStr "x") kv.1 then
    { st with out := { st.out with x := Int32.ofInt (rd.viaI64 kv.2) }, isFXParsed := true } else st
  if keyStarts (cStr "y") kv.1 then
    { st with out := { st.out with y := Int32.ofInt (rd.viaI64 kv.2) }, isFYParsed := true } else st

/-- A safe key decides every comparison, for every reader. -/
theorem compare_safeKey (rd : Reader) {k : Object} (h : safeKey k = true) {lit : Bytes}
    (hlit : lit.length ≤ (cStr "is_exists").length) :
    rd.compare k lit = .ok (keyStarts lit k) := by
  cases k with
  | str k => exact compare_inside rd (hlit.trans (of_decide_eq_true h))
  | _ => exact absurd h (by simp [safeKey])

theorem playerPosEntry_safe (rd : Reader) (st : PlayerPosLoop) {kv : Object × Object}
    (h : safeKey kv.1 = true) : playerPosEntry rd st kv = .ok (playerPosStep rd st kv) := by
  have hx : (cStr "x").length ≤ (cStr "is_exists").length := by decide
  have hy : (cStr "y").length ≤ (cStr "is_exists").length := by decide
  simp only [playerPosEntry, compare_safeKey rd h le_rfl, compare_safeKey rd h hx,
    compare_safeKey rd h hy, ok_bind]
  rfl

/-- The first comparison of an entry already leaves an unsafe key. -/
theorem playerPosEntry_notSafe (stale : Object → Int) (st : PlayerPosLoop) {kv : Object × Object}
    (h : safeKey kv.1 = false) : playerPosEntry (.strict stale) st kv = .error .fault := by
  have hcmp : (Reader.strict stale).compare kv.1 (cStr "is_exists") = .error .fault := by
    cases hk : kv.1 with
    | str k =>
      rw [hk] at h
      simp only [Reader.compare, Reader.strict, if_neg (of_decide_eq_false h)]
    | _ => rfl
  simp only [playerPosEntry, hcmp]
  rfl

/-- The loop over safe entries runs through. -/
theorem playerPosFold_safe (rd : Reader) : ∀ (kvs : List (Object × Object)) (st : PlayerPosLoop),
    (kvs.all fun kv => safeKey kv.1) = true →
      kvs.foldlM (playerPosEntry rd) st = .ok (kvs.foldl (playerPosStep rd) st)
  | [], _, _ => rfl
  | kv :: kvs, st, h => by
    simp only [List.all_cons, Bool.and_eq_true] at h
    rw [List.foldlM_cons, playerPosEntry_safe rd st h.1, ok_bind, List.foldl_cons]
    exact playerPosFold_safe rd kvs _ h.2

/-- The loop faults at the first unsafe key. -/
theorem playerPosFold_notSafe (stale : Object → Int) :
    ∀ (kvs : List (Object × Object)) (st : PlayerPosLoop),
      (kvs.all fun kv => safeKey kv.1) = false →
        kvs.foldlM (playerPosEntry (.strict stale)) st = .error .fault
  | [], _, h => absurd h (by simp)
  | kv :: kvs, st, h => by
    rw [List.foldlM_cons]
    cases hk : safeKey kv.1 with
    | false => rw [playerPosEntry_notSafe stale st hk]; rfl
    | true =>
      rw [playerPosEntry_safe _ st hk, ok_bind]
      simp only [List.all_cons, hk, Bool.true_and] at h
      exact playerPosFold_notSafe stale kvs _ h

/-- The flags after one entry. -/
theorem playerPosStep_flags (rd : Reader) (st : PlayerPosLoop) (kv : Object × Object) :
    (playerPosStep rd st kv).isFIsExistsParsed =
        (st.isFIsExistsParsed || (keyStarts (cStr "is_exists") kv.1 && isBoolean kv.2)) ∧
      (playerPosStep rd st kv).isFXParsed = (st.isFXParsed || keyStarts (cStr "x") kv.1) ∧
      (playerPosStep rd st kv).isFYParsed = (st.isFYParsed || keyStarts (cStr "y") kv.1) := by
  unfold playerPosStep
  cases keyStarts (cStr "is_exists") kv.1 <;> cases keyStarts (cStr "x") kv.1 <;>
    cases keyStarts (cStr "y") kv.1 <;> cases kv.2 <;> simp [isBoolean]

/-- The flags after the loop: a field is parsed when some entry carries it. -/
theorem playerPosFold_flags (rd : Reader) :
    ∀ (kvs : List (Object × Object)) (st : PlayerPosLoop),
      let st' := kvs.foldl (playerPosStep rd) st
      st'.isFIsExistsParsed = (st.isFIsExistsParsed ||
          kvs.any fun kv => keyStarts (cStr "is_exists") kv.1 && isBoolean kv.2) ∧
        st'.isFXParsed = (st.isFXParsed || kvs.any fun kv => keyStarts (cStr "x") kv.1) ∧
        st'.isFYParsed = (st.isFYParsed || kvs.any fun kv => keyStarts (cStr "y") kv.1)
  | [], _ => by simp
  | kv :: kvs, st => by
    obtain ⟨h₁, h₂, h₃⟩ := playerPosStep_flags rd st kv
    obtain ⟨i₁, i₂, i₃⟩ := playerPosFold_flags rd kvs (playerPosStep rd st kv)
    simp only [List.foldl_cons, List.any_cons]
    rw [i₁, i₂, i₃, h₁, h₂, h₃]
    simp only [Bool.or_assoc, and_self]

/-- What follows the loop accepts when the three flags are set. -/
theorem playerPosResult_cases (st : PlayerPosLoop) :
    if st.isFIsExistsParsed && st.isFXParsed && st.isFYParsed then playerPosResult st = .ok st.out
    else ∃ msg, playerPosResult st = fail msg := by
  unfold playerPosResult
  cases st.isFIsExistsParsed <;> cases st.isFXParsed <;> cases st.isFYParsed <;> simp

/-- **`ifb_try_unpack_player_pos` on a safe position** accepts the complete ones, for every
reader. -/
theorem unpackPlayerPos_safe (mp : Msgpack) (rd : Reader) (out : PlayerPos) {v : Object}
    (h : safePos v = true) :
    if completePos v then ∃ p, ifbTryUnpackPlayerPos mp rd out v = .ok p
    else ∃ msg, ifbTryUnpackPlayerPos mp rd out v = fail msg := by
  cases v with
  | map kvs =>
    obtain ⟨h₁, h₂, h₃⟩ := playerPosFold_flags rd kvs ⟨out, false, false, false⟩
    have hres := playerPosResult_cases (kvs.foldl (playerPosStep rd) ⟨out, false, false, false⟩)
    simp only [Bool.false_or] at h₁ h₂ h₃
    rw [h₁, h₂, h₃] at hres
    simp only [ifbTryUnpackPlayerPos, playerPosFold_safe rd kvs _ h, ok_bind, completePos]
    split at hres
    · rename_i hc
      rw [if_pos hc]
      exact ⟨_, hres⟩
    · rename_i hc
      rw [if_neg hc]
      exact hres
  | _ => exact ⟨_, rfl⟩

/-- On an unsafe position it faults. -/
theorem unpackPlayerPos_notSafe (mp : Msgpack) (stale : Object → Int) (out : PlayerPos) {v : Object}
    (h : safePos v = false) :
    ifbTryUnpackPlayerPos mp (.strict stale) out v = .error .fault := by
  cases v with
  | map kvs => simp only [ifbTryUnpackPlayerPos, playerPosFold_notSafe stale kvs _ h]; rfl
  | _ => exact absurd h (by simp [safePos])

/-! ## Game states -/

/-- A key of the root is a position key, `tick` or none of these. -/
theorem rootKey_cases (k : Object) : (∃ s i, k = .str s ∧ s.bytes = posName i) ∨
    isPosKey k = false ∧ ((∃ s, k = .str s ∧ s.bytes = cStr "tick") ∨
      ∀ s, k = .str s → s.bytes ≠ cStr "tick" ∧ ∀ i, s.bytes ≠ posName i) := by
  cases k with
  | str s =>
    by_cases hpos : ∃ i, s.bytes = posName i
    · obtain ⟨i, hi⟩ := hpos
      exact .inl ⟨s, i, rfl, hi⟩
    · refine .inr ⟨decide_eq_false hpos, ?_⟩
      by_cases htick : s.bytes = cStr "tick"
      · exact .inl ⟨s, rfl, htick⟩
      · refine .inr fun s' hs => ?_
        cases hs
        exact ⟨htick, fun i hi => hpos ⟨i, hi⟩⟩
  | _ => exact .inr ⟨rfl, .inr fun s hs => absurd hs (by simp)⟩

/-- An entry that is not a position is read without a fault. -/
theorem gameStateEntry_notPos (mp : Msgpack) (rd : Reader) (st : GameStateLoop) {k : Object}
    (v : Object) (h : isPosKey k = false) : ∃ st', gameStateEntry mp rd st (k, v) = .ok st' := by
  rcases rootKey_cases k with ⟨s, i, rfl, hi⟩ | ⟨-, ⟨s, rfl, hs⟩ | hother⟩
  · exact absurd (of_decide_eq_false h) (not_not_intro ⟨i, hi⟩)
  · exact ⟨_, gameStateEntry_tick mp rd hs⟩
  · exact ⟨_, gameStateEntry_other mp rd hother⟩

/-- **The loop over the root** faults exactly on the entries that are not safe. -/
theorem gameStateFold_noFault (mp : Msgpack) (stale : Object → Int) :
    ∀ (kvs : List (Object × Object)) (st : GameStateLoop),
      NoFault (kvs.foldlM (gameStateEntry mp (.strict stale)) st) ↔ safeEntries kvs = true
  | [], st => by simp [NoFault, safeEntries, pure, Except.pure]
  | (k, v) :: kvs, st => by
    rw [List.foldlM_cons, safeEntries]
    cases hk : isPosKey k with
    | false =>
      obtain ⟨st', hst⟩ := gameStateEntry_notPos mp (.strict stale) st v hk
      rw [hst, ok_bind, if_neg Bool.false_ne_true]
      exact gameStateFold_noFault mp stale kvs st'
    | true =>
      rw [if_pos rfl]
      obtain ⟨s, i, rfl, hi⟩ : ∃ s i, k = .str s ∧ s.bytes = posName i := by
        rcases rootKey_cases k with h | ⟨h, -⟩
        · exact h
        · exact absurd (hk.symm.trans h) (by simp)
      rw [gameStateEntry_pos mp _ hi]
      cases hsafe : safePos v with
      | false =>
        rw [unpackPlayerPos_notSafe mp stale _ hsafe]
        simp [NoFault, Except.map, bind, Except.bind]
      | true =>
        have hpos := unpackPlayerPos_safe mp (.strict stale) (st.unpackRes.pos i) hsafe
        cases hc : completePos v with
        | true =>
          rw [hc, if_pos rfl] at hpos
          obtain ⟨p, hp⟩ := hpos
          rw [hp, Except.map, ok_bind]
          simpa using gameStateFold_noFault mp stale kvs (st.setPos i p)
        | false =>
          rw [hc, if_neg Bool.false_ne_true] at hpos
          obtain ⟨msg, hmsg⟩ := hpos
          rw [hmsg]
          simp [NoFault, fail, Except.map, bind, Except.bind]

theorem gameStateResult_noFault (st : GameStateLoop) : NoFault (gameStateResult st) := by
  unfold gameStateResult
  split_ifs
  · exact fail_noFault _
  · exact fail_noFault _
  · exact fail_noFault _
  · exact fail_noFault _
  · exact fail_noFault _
  · simp [NoFault]

/-- **`ifb_try_unpack_game_state` stays inside its keys** exactly on the safe payloads. -/
theorem unpackGameState_noFault_iff (mp : Msgpack) (stale : Object → Int) (data : Option Bytes) :
    NoFault (ifbTryUnpackGameState mp (.strict stale) data) ↔ safePayload mp data = true := by
  cases data with
  | none => exact iff_of_true (fail_noFault _) rfl
  | some d =>
    cases h : mp.unpackNext d with
    | success root =>
      cases root with
      | map kvs =>
        simp only [ifbTryUnpackGameState, safePayload, h]
        rw [← gameStateFold_noFault mp stale kvs .init]
        cases kvs.foldlM (gameStateEntry mp (.strict stale)) .init with
        | error e => simp [NoFault, bind, Except.bind]
        | ok st => exact iff_of_true (gameStateResult_noFault st) (by simp [NoFault])
      | _ =>
        simp only [ifbTryUnpackGameState, safePayload, h]
        exact iff_of_true (fail_noFault _) trivial
    | _ =>
      simp only [ifbTryUnpackGameState, safePayload, h]
      exact iff_of_true (fail_noFault _) trivial

/-- **Where keys are read**: the flat decoders stay inside their keys on every payload, the
game-state decoder exactly on the safe ones. -/
theorem keyReads_inside_iff (mp : Msgpack) (stale : Object → Int) (data : Option Bytes) :
    NoFault (ifbFunTryUnpackUserInfo mp (.strict stale) data) ∧
      NoFault (ifbTryUnpackPlayerInput mp (.strict stale) data) ∧
      (NoFault (ifbTryUnpackGameState mp (.strict stale) data) ↔ safePayload mp data = true) :=
  ⟨unpackUserInfo_noFault mp _ data, unpackPlayerInput_noFault mp _ data,
    unpackGameState_noFault_iff mp stale data⟩

/-- `{"tick": 0, "pos_1": {1: true}}`. -/
def integerKeyPayload : Bytes :=
  [0x82, 0xa4, 0x74, 0x69, 0x63, 0x6b, 0x00, 0xa5, 0x70, 0x6f, 0x73, 0x5f, 0x31, 0x81, 0x01, 0xc3]

/-- A position with an integer key is compared through a pointer that is not there. -/
theorem integerKey_faults : reference.Lawful ∧
    ¬ NoFault (ifbTryUnpackGameState reference (.strict fun _ => 0) (some integerKeyPayload)) :=
  ⟨reference_lawful, fun h => h (by decide +kernel)⟩

end MasterRelay.Protocol
