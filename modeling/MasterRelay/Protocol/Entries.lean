import MasterRelay.Protocol.Unpack
import Mathlib.Data.Fin.VecNotation
import Mathlib.Data.Fintype.Defs

/-!
# What one map entry does

The bodies of the decoder loops without their reads. The flat decoders compare a key only behind a
length test, so for every reader their bodies are functions (`userInfoStep`, `playerInputStep`) and
the loops are folds (`unpackUserInfo_map`, `unpackPlayerInput_map`). In the root of a game state the
four position keys are one case: `gameStateEntry_pos` for the `i`-th key, `gameStateEntry_other` for
every key that is neither `tick` nor a position.
-/

namespace MasterRelay.Protocol

open MasterRelay.Lib.MsgPack

/-! ## The flat decoders -/

/-- The loop body of `ifb_fun_try_unpack_user_info` as a function. -/
def userInfoStep (st : UserInfoLoop) : Object × Object → UserInfoLoop
  | (.str k, .positiveInteger u64) =>
    if k.bytes = cStr "id" then
      { st with unpackRes := { st.unpackRes with id := UInt32.ofNat u64 }, isFIdParsed := true }
    else st
  | (.str k, .boolean b) =>
    if k.bytes = cStr "is_master" then
      { st with unpackRes := { st.unpackRes with isMaster := b }, isFIsMasterParsed := true }
    else st
  | _ => st

theorem userInfoEntry_eq (rd : Reader) (st : UserInfoLoop) (kv : Object × Object) :
    userInfoEntry rd st kv = .ok (userInfoStep st kv) := by
  obtain ⟨k, v⟩ := kv
  cases k with
  | str k =>
    simp only [userInfoEntry, keyIs_eq, bind, Except.bind]
    by_cases hid : k.bytes = cStr "id"
    · have hm : k.bytes ≠ cStr "is_master" := by rw [hid]; decide
      simp only [decide_eq_true hid, if_true]
      cases v with
      | positiveInteger => simp only [userInfoStep, if_pos hid]; rfl
      | boolean => simp only [userInfoStep, if_neg hm]; rfl
      | _ => rfl
    · by_cases hm : k.bytes = cStr "is_master"
      · simp only [decide_eq_false hid, decide_eq_true hm, Bool.false_eq_true, if_true, if_false]
        cases v with
        | positiveInteger => simp only [userInfoStep, if_neg hid]; rfl
        | boolean => simp only [userInfoStep, if_pos hm]; rfl
        | _ => rfl
      · simp only [decide_eq_false hid, decide_eq_false hm, Bool.false_eq_true, if_false]
        cases v with
        | positiveInteger => simp only [userInfoStep, if_neg hid]; rfl
        | boolean => simp only [userInfoStep, if_neg hm]; rfl
        | _ => rfl
  | _ => rfl

/-- **`ifb_fun_try_unpack_user_info` on a map is a fold.** -/
theorem unpackUserInfo_map {mp : Msgpack} (rd : Reader) (data : Option Bytes)
    {kvs : List (Object × Object)} (h : mp.unpackNext (data.getD []) = .success (.map kvs)) :
    ifbFunTryUnpackUserInfo mp rd data = userInfoResult (kvs.foldl userInfoStep .init) := by
  have hbody : userInfoEntry rd = fun st kv => pure (userInfoStep st kv) :=
    funext fun st => funext fun kv => userInfoEntry_eq rd st kv
  simp only [ifbFunTryUnpackUserInfo, h, hbody, List.foldlM_pure]
  rfl

/-- The loop body of `ifb_try_unpack_player_input` as a function. -/
def playerInputStep (rd : Reader) (st : PlayerInputLoop) : Object × Object → PlayerInputLoop
  | (.str k, v) =>
    if k.bytes = cStr "x" then
      { st with unpackRes := { st.unpackRes with x := Int32.ofInt (rd.viaI64 v) },
                isFXParsed := true }
    else if k.bytes = cStr "y" then
      { st with unpackRes := { st.unpackRes with y := Int32.ofInt (rd.viaI64 v) },
                isFYParsed := true }
    else if k.bytes = cStr "id" then
      match v with
      | .positiveInteger u64 =>
        { st with unpackRes := { st.unpackRes with id := UInt32.ofNat u64 }, isFIdParsed := true }
      | _ => st
    else st
  | _ => st

theorem playerInputEntry_eq (rd : Reader) (st : PlayerInputLoop) (kv : Object × Object) :
    playerInputEntry rd st kv = .ok (playerInputStep rd st kv) := by
  obtain ⟨k, v⟩ := kv
  cases k with
  | str k =>
    have hxy : (cStr "x").length = (cStr "y").length := by decide
    simp only [playerInputEntry, playerInputStep, keyIs_eq, bind, Except.bind]
    by_cases hlen : k.bytes.length = (cStr "x").length
    · -- a key of one byte is not `id`
      have hid : k.bytes ≠ cStr "id" := fun e => absurd (e ▸ hlen) (by decide)
      have hlen' : k.bytes.length = (cStr "y").length := hlen.trans hxy
      simp only [if_pos hlen, compare_eq rd hlen, compare_eq rd hlen', decide_eq_false hid,
        if_neg hid]
      by_cases hx : k.bytes = cStr "x"
      · have hy : k.bytes ≠ cStr "y" := by rw [hx]; decide
        simp only [decide_eq_true hx, decide_eq_false hy, if_pos hx, if_true, Bool.false_eq_true,
          if_false]
        rfl
      · by_cases hy : k.bytes = cStr "y"
        · simp only [decide_eq_false hx, decide_eq_true hy, if_neg hx, if_pos hy, if_true,
            Bool.false_eq_true, if_false]
          rfl
        · simp only [decide_eq_false hx, decide_eq_false hy, if_neg hx, if_neg hy,
            Bool.false_eq_true, if_false]
          rfl
    · have hx : k.bytes ≠ cStr "x" := fun e => hlen (congrArg List.length e)
      have hy : k.bytes ≠ cStr "y" := fun e => hlen ((congrArg List.length e).trans hxy.symm)
      simp only [if_neg hlen, if_neg hx, if_neg hy]
      by_cases hid : k.bytes = cStr "id"
      · simp only [decide_eq_true hid, if_pos hid]
        cases v <;> rfl
      · simp only [decide_eq_false hid, if_neg hid]
        rfl
  | _ => rfl

/-- **`ifb_try_unpack_player_input` on a map is a fold.** -/
theorem unpackPlayerInput_map {mp : Msgpack} (rd : Reader) (data : Option Bytes)
    {kvs : List (Object × Object)} (h : mp.unpackNext (data.getD []) = .success (.map kvs)) :
    ifbTryUnpackPlayerInput mp rd data =
      playerInputResult (kvs.foldl (playerInputStep rd) .init) := by
  have hbody : playerInputEntry rd = fun st kv => pure (playerInputStep rd st kv) :=
    funext fun st => funext fun kv => playerInputEntry_eq rd st kv
  simp only [ifbTryUnpackPlayerInput, h, hbody, List.foldlM_pure]
  rfl

/-! ## The root of a game state -/

/-- The `i`-th position. -/
def GameState.pos (gs : GameState) : Fin 4 → PlayerPos := ![gs.pos1, gs.pos2, gs.pos3, gs.pos4]

theorem GameState.zero_pos (i : Fin 4) : GameState.zero.pos i = .zero := by
  match i with
  | 0 => rfl
  | 1 => rfl
  | 2 => rfl
  | 3 => rfl

/-- The key of the `i`-th position. -/
def posName : Fin 4 → Bytes := ![cStr "pos_1", cStr "pos_2", cStr "pos_3", cStr "pos_4"]

/-- `unpack_res.pos_i` written and marked as parsed. -/
def GameStateLoop.setPos (st : GameStateLoop) (i : Fin 4) (p : PlayerPos) : GameStateLoop :=
  match i with
  | 0 => { st with unpackRes := { st.unpackRes with pos1 := p }, isFPos1Parsed := true }
  | 1 => { st with unpackRes := { st.unpackRes with pos2 := p }, isFPos2Parsed := true }
  | 2 => { st with unpackRes := { st.unpackRes with pos3 := p }, isFPos3Parsed := true }
  | 3 => { st with unpackRes := { st.unpackRes with pos4 := p }, isFPos4Parsed := true }

/-- `unpack_res.tick` written and marked as parsed. -/
def GameStateLoop.setTick (st : GameStateLoop) (u64 : Nat) : GameStateLoop :=
  { st with unpackRes := { st.unpackRes with tick := UInt32.ofNat u64 }, isFTickParsed := true }

theorem posName_length : ∀ i, (posName i).length = (cStr "pos_1").length := by decide

theorem posName_injective : ∀ i j, posName i = posName j → i = j := by decide

theorem posName_ne_tick : ∀ i, posName i ≠ cStr "tick" := by decide

variable (mp : Msgpack) (rd : Reader)

/-- A key of the length of the position keys that is not the one asked for. -/
theorem posField_miss {k : Slice} {v : Object} {lit : Bytes} {p : PlayerPos} {b : Bool}
    (hlen : k.bytes.length = lit.length) (h : k.bytes ≠ lit) :
    posField mp rd (.str k, v) lit p b = .ok (p, b) := by
  simp [posField, compare_eq rd hlen, h, bind, Except.bind, pure, Except.pure]

theorem posField_hit {k : Slice} {v : Object} {lit : Bytes} {p : PlayerPos} {b : Bool}
    (h : k.bytes = lit) :
    posField mp rd (.str k, v) lit p b =
      (ifbTryUnpackPlayerPos mp rd p v).map fun q => (q, true) := by
  simp only [posField, compare_eq rd (congrArg List.length h), h, decide_true, bind, Except.bind,
    if_true]
  cases ifbTryUnpackPlayerPos mp rd p v <;> rfl

/-- **An entry under the `i`-th position key** decodes into the `i`-th position. -/
theorem gameStateEntry_pos {k : Slice} {v : Object} {st : GameStateLoop} {i : Fin 4}
    (h : k.bytes = posName i) :
    gameStateEntry mp rd st (.str k, v) =
      (ifbTryUnpackPlayerPos mp rd (st.unpackRes.pos i) v).map (st.setPos i) := by
  have htick : k.bytes ≠ cStr "tick" := h ▸ posName_ne_tick i
  have hlen : k.bytes.length = (cStr "pos_1").length := h ▸ posName_length i
  have hmiss : ∀ j, j ≠ i → ∀ p b, posField mp rd (.str k, v) (posName j) p b = .ok (p, b) := by
    intro j hj p b
    have hlit : k.bytes.length = (posName j).length := hlen.trans (posName_length j).symm
    have hne : k.bytes ≠ posName j := fun e => hj (posName_injective j i (e.symm.trans h))
    exact posField_miss mp rd hlit hne
  have hhit := fun p b => posField_hit mp rd (v := v) (p := p) (b := b) h
  simp only [gameStateEntry, keyIs_eq, decide_eq_false htick, if_pos hlen, bind, Except.bind,
    Bool.false_eq_true, if_false]
  -- three of the four comparisons fail, whichever position it is
  have hcases : ∀ i : Fin 4, i = 0 ∨ i = 1 ∨ i = 2 ∨ i = 3 := by decide
  rcases hcases i with rfl | rfl | rfl | rfl
  · have h2 := hmiss 1 (by decide)
    have h3 := hmiss 2 (by decide)
    have h4 := hmiss 3 (by decide)
    simp only [posName, Matrix.cons_val] at hhit h2 h3 h4
    simp only [hhit, h2, h3, h4]
    rw [show st.unpackRes.pos 0 = st.unpackRes.pos1 from rfl]
    cases ifbTryUnpackPlayerPos mp rd st.unpackRes.pos1 v <;> rfl
  · have h1 := hmiss 0 (by decide)
    have h3 := hmiss 2 (by decide)
    have h4 := hmiss 3 (by decide)
    simp only [posName, Matrix.cons_val] at hhit h1 h3 h4
    simp only [hhit, h1, h3, h4]
    rw [show st.unpackRes.pos 1 = st.unpackRes.pos2 from rfl]
    cases ifbTryUnpackPlayerPos mp rd st.unpackRes.pos2 v <;> rfl
  · have h1 := hmiss 0 (by decide)
    have h2 := hmiss 1 (by decide)
    have h4 := hmiss 3 (by decide)
    simp only [posName, Matrix.cons_val] at hhit h1 h2 h4
    simp only [hhit, h1, h2, h4]
    rw [show st.unpackRes.pos 2 = st.unpackRes.pos3 from rfl]
    cases ifbTryUnpackPlayerPos mp rd st.unpackRes.pos3 v <;> rfl
  · have h1 := hmiss 0 (by decide)
    have h2 := hmiss 1 (by decide)
    have h3 := hmiss 2 (by decide)
    simp only [posName, Matrix.cons_val] at hhit h1 h2 h3
    simp only [hhit, h1, h2, h3]
    rw [show st.unpackRes.pos 3 = st.unpackRes.pos4 from rfl]
    cases ifbTryUnpackPlayerPos mp rd st.unpackRes.pos4 v <;> rfl

theorem gameStateEntry_tick {k : Slice} {v : Object} {st : GameStateLoop}
    (h : k.bytes = cStr "tick") :
    gameStateEntry mp rd st (.str k, v) =
      .ok (match v with
        | .positiveInteger u64 => st.setTick u64
        | _ => st) := by
  simp only [gameStateEntry, keyIs_eq, h, decide_true, bind, Except.bind, if_true]
  cases v <;> rfl

/-- Every other entry is skipped. -/
theorem gameStateEntry_other {k v : Object} {st : GameStateLoop}
    (h : ∀ s, k = .str s → s.bytes ≠ cStr "tick" ∧ ∀ i, s.bytes ≠ posName i) :
    gameStateEntry mp rd st (k, v) = .ok st := by
  cases k with
  | str s =>
    obtain ⟨htick, hpos⟩ := h s rfl
    simp only [gameStateEntry, keyIs_eq, decide_eq_false htick, bind, Except.bind,
      Bool.false_eq_true, if_false]
    split
    · rename_i hlen
      have hm : ∀ (i : Fin 4) p b, posField mp rd (.str s, v) (posName i) p b = .ok (p, b) :=
        fun i p b => posField_miss mp rd (hlen.trans (posName_length i).symm) (hpos i)
      have h1 := hm 0
      have h2 := hm 1
      have h3 := hm 2
      have h4 := hm 3
      simp only [posName, Matrix.cons_val] at h1 h2 h3 h4
      simp only [h1, h2, h3, h4]
      rfl
    · rfl
  | _ => rfl

end MasterRelay.Protocol
