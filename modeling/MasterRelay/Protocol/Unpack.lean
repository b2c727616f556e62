import MasterRelay.Protocol.Msgpack

/-!
# Unpacking

The `*_try_unpack_*` functions of `protocol_msg.c`, on arbitrary bytes.

The decoders read memory through two operations the format does not bound, so both are taken from a
`Reader`:

* `memcmp` on `key.via.str.ptr`. Its result is fixed by the key when the comparison stays inside the
  key (`Reader.inside`); a reader says what happens otherwise, `none` being an access that is not
  followed further. `Reader.buffer` follows the program over string keys: they point into the input
  and what follows it is read, past the input an unknown memory. What `via.str` holds for a key of
  another type is up to msgpack-c (a bin, ext, array or map keeps a size and a pointer there, and
  the program reads on through it); this reader stops at such a key. `Reader.strict` allows a
  comparison only inside a string key.
* `val.via.i64`, whatever the type of the value. For an integer it is the integer as a 64-bit
  number, for everything else stale bytes.

A decoder returns its result, or stops: `Stop.err` is `return false`, with what was written into
`err_buf`.

Result: `keyIs_eq`, a comparison behind a length test only reads the key, for every reader.
-/

namespace MasterRelay.Protocol

open MasterRelay.Lib.MsgPack

/-- How the decoders see memory. -/
structure Reader where
  /-- `memcmp(key.via.str.ptr, lit, n) == 0` for the `n` bytes of `lit`. -/
  memcmp : Object → Bytes → Option Bool
  /-- The bytes of `val.via.i64` when `val` is not an integer. -/
  stale : Object → Int
  /-- Inside a string key the key decides. -/
  inside : ∀ (k : Slice) (lit : Bytes), lit.length ≤ k.bytes.length →
    memcmp (.str k) lit = some (lit.isPrefixOf k.bytes)

/-- Whether the memory `mem`, followed by `past`, starts with `lit`. -/
def memEq : Bytes → (Nat → UInt8) → Bytes → Bool
  | _, _, [] => true
  | m :: mem, past, c :: lit => c == m && memEq mem past lit
  | [], past, c :: lit => c == past 0 && memEq [] (fun i => past (i + 1)) lit

theorem memEq_inside : ∀ (mem after lit : Bytes) (past : Nat → UInt8),
    lit.length ≤ mem.length → memEq (mem ++ after) past lit = lit.isPrefixOf mem
  | _, _, [], _, _ => by rw [memEq, List.isPrefixOf]
  | [], _, _ :: _, _, h => by simp at h
  | m :: mem, after, c :: lit, past, h => by
    simp only [List.cons_append, memEq, List.isPrefixOf]
    rw [memEq_inside mem after lit past (by simpa using h)]

/-- The program on string keys, with the input followed by `past`. A key of another type is not
followed: the program reads on through whatever lies where a string has its pointer. -/
def Reader.buffer (past : Nat → UInt8) (stale : Object → Int) : Reader where
  memcmp
    | .str k, lit => some (memEq k.mem past lit)
    | _, _ => none
  stale := stale
  inside k lit h := congrArg some (memEq_inside k.bytes k.after lit past h)

/-- Comparisons may only read inside a string key. -/
def Reader.strict (stale : Object → Int) : Reader where
  memcmp
    | .str k, lit => if lit.length ≤ k.bytes.length then some (lit.isPrefixOf k.bytes) else none
    | _, _ => none
  stale := stale
  inside _ _ h := if_pos h

/-- `val.via.i64`. -/
def Reader.viaI64 (rd : Reader) : Object → Int
  | .positiveInteger n => (n : Int).bmod (2 ^ 64)
  | .negativeInteger i => i
  | o => rd.stale o

theorem viaI64_positiveInteger (rd : Reader) (n : Nat) :
    rd.viaI64 (.positiveInteger n) = (n : Int).bmod (2 ^ 64) := rfl

theorem viaI64_negativeInteger (rd : Reader) (i : Int) : rd.viaI64 (.negativeInteger i) = i := rfl

/-- `memcmp(key.via.str.ptr, lit, n) == 0`. -/
def Reader.compare (rd : Reader) (key : Object) (lit : Bytes) : Except Stop Bool :=
  match rd.memcmp key lit with
  | some b => .ok b
  | none => .error .fault

/-- `key_str_len == n && memcmp(key_str, lit, n) == 0`. -/
def Reader.keyIs (rd : Reader) (k : Slice) (lit : Bytes) : Except Stop Bool :=
  if k.bytes.length = lit.length then rd.compare (.str k) lit else .ok false

/-! ## `ifb_fun_try_unpack_user_info` -/

/-- The locals of the loop. -/
structure UserInfoLoop where
  unpackRes : UserInfo
  isFIdParsed : Bool
  isFIsMasterParsed : Bool
  deriving DecidableEq

def UserInfoLoop.init : UserInfoLoop := ⟨.zero, false, false⟩

/-- The body of the loop. -/
def userInfoEntry (rd : Reader) (st : UserInfoLoop) (kv : Object × Object) :
    Except Stop UserInfoLoop :=
  match kv.1 with
  | .str k => do
    if ← rd.keyIs k (cStr "id") then
      match kv.2 with
      | .positiveInteger u64 =>
        pure { st with unpackRes := { st.unpackRes with id := UInt32.ofNat u64 }, isFIdParsed := true }
      | _ => pure st
    else if ← rd.keyIs k (cStr "is_master") then
      match kv.2 with
      | .boolean b =>
        pure { st with unpackRes := { st.unpackRes with isMaster := b }, isFIsMasterParsed := true }
      | _ => pure st
    else pure st
  | _ => pure st

/-- What follows the loop. -/
def userInfoResult (st : UserInfoLoop) : Except Stop UserInfo :=
  if !st.isFIdParsed || !st.isFIsMasterParsed then
    fail "msgpack_unpack_next() err: some value not found."
  else .ok st.unpackRes

/-- `ifb_fun_try_unpack_user_info`. -/
def ifbFunTryUnpackUserInfo (mp : Msgpack) (rd : Reader) (data : Option Bytes) :
    Except Stop UserInfo :=
  match mp.unpackNext (data.getD []) with
  | .nomemError => fail "msgpack_unpack_next() err: NOMEM_ERROR"
  | .parseError => fail "msgpack_unpack_next() err: PARSE_ERROR"
  | .unpackContinue => fail "msgpack_unpack_next() err: UNPACK_CONTINUE"
  | .success (.map kvs) => do userInfoResult (← kvs.foldlM (userInfoEntry rd) .init)
  -- a root that is not a map returns false without a message
  | .success _ => .error (.err none)

/-! ## `ifb_try_unpack_player_pos` -/

/-- The locals of the loop; `out` is filled in place. -/
structure PlayerPosLoop where
  out : PlayerPos
  isFIsExistsParsed : Bool
  isFXParsed : Bool
  isFYParsed : Bool
  deriving DecidableEq

/-- The body of the loop: the keys are compared without their type and without their length. -/
def playerPosEntry (rd : Reader) (st : PlayerPosLoop) (kv : Object × Object) :
    Except Stop PlayerPosLoop := do
  let isExists ← rd.compare kv.1 (cStr "is_exists")
  let st := match isExists, kv.2 with
    | true, .boolean b => { st with out := { st.out with isExists := b }, isFIsExistsParsed := true }
    | _, _ => st
  let x ← rd.compare kv.1 (cStr "x")
  let st := if x then
    { st with out := { st.out with x := Int32.ofInt (rd.viaI64 kv.2) }, isFXParsed := true } else st
  let y ← rd.compare kv.1 (cStr "y")
  pure (if y then
    { st with out := { st.out with y := Int32.ofInt (rd.viaI64 kv.2) }, isFYParsed := true } else st)

/-- What follows the loop. -/
def playerPosResult (st : PlayerPosLoop) : Except Stop PlayerPos :=
  if !st.isFIsExistsParsed then fail "field: 'is_exists' is not parsed."
  else if !st.isFXParsed then fail "field: 'x' is not parsed."
  else if !st.isFYParsed then fail "field: 'y' is not parsed."
  else .ok st.out

/-- `ifb_try_unpack_player_pos`: the new contents of `*out`. -/
def ifbTryUnpackPlayerPos (mp : Msgpack) (rd : Reader) (out : PlayerPos) :
    Object → Except Stop PlayerPos
  | .map kvs => do playerPosResult (← kvs.foldlM (playerPosEntry rd) ⟨out, false, false, false⟩)
  | obj => fail ("invalid obj type: " ++ toString (mp.typeNo obj))

/-! ## `ifb_try_unpack_game_state` -/

/-- The locals of the loop. -/
structure GameStateLoop where
  unpackRes : GameState
  isFTickParsed : Bool
  isFPos1Parsed : Bool
  isFPos2Parsed : Bool
  isFPos3Parsed : Bool
  isFPos4Parsed : Bool
  deriving DecidableEq

def GameStateLoop.init : GameStateLoop := ⟨.zero, false, false, false, false, false⟩

/-- `if (memcmp(key_str, lit, pos_key_len) == 0)` for one position: the position and its flag. -/
def posField (mp : Msgpack) (rd : Reader) (kv : Object × Object) (lit : Bytes) (pos : PlayerPos)
    (parsed : Bool) : Except Stop (PlayerPos × Bool) := do
  if ← rd.compare kv.1 lit then
    let pos ← ifbTryUnpackPlayerPos mp rd pos kv.2
    pure (pos, true)
  else pure (pos, parsed)

/-- The body of the loop. -/
def gameStateEntry (mp : Msgpack) (rd : Reader) (st : GameStateLoop) (kv : Object × Object) :
    Except Stop GameStateLoop :=
  match kv.1 with
  | .str k => do
    if ← rd.keyIs k (cStr "tick") then
      match kv.2 with
      | .positiveInteger u64 =>
        pure { st with
          unpackRes := { st.unpackRes with tick := UInt32.ofNat u64 }, isFTickParsed := true }
      | _ => pure st
    else if k.bytes.length = (cStr "pos_1").length then
      let p1 ← posField mp rd kv (cStr "pos_1") st.unpackRes.pos1 st.isFPos1Parsed
      let p2 ← posField mp rd kv (cStr "pos_2") st.unpackRes.pos2 st.isFPos2Parsed
      let p3 ← posField mp rd kv (cStr "pos_3") st.unpackRes.pos3 st.isFPos3Parsed
      let p4 ← posField mp rd kv (cStr "pos_4") st.unpackRes.pos4 st.isFPos4Parsed
      pure ⟨⟨st.unpackRes.tick, p1.1, p2.1, p3.1, p4.1⟩, st.isFTickParsed, p1.2, p2.2, p3.2, p4.2⟩
    else pure st
  | _ => pure st

/-- What follows the loop. -/
def gameStateResult (st : GameStateLoop) : Except Stop GameState :=
  if !st.isFTickParsed then fail "field: 'tick' is not parsed."
  else if !st.isFPos1Parsed then fail "field: 'pos_1' is not parsed."
  else if !st.isFPos2Parsed then fail "field: 'pos_2' is not parsed."
  else if !st.isFPos3Parsed then fail "field: 'pos_3' is not parsed."
  else if !st.isFPos4Parsed then fail "field: 'pos_4' is not parsed."
  else .ok st.unpackRes

/-- `ifb_try_unpack_game_state` (`is_log_enabled` only prints). -/
def ifbTryUnpackGameState (mp : Msgpack) (rd : Reader) : Option Bytes → Except Stop GameState
  | none => fail "data is NULL!"
  | some data =>
    match mp.unpackNext data with
    | .nomemError => fail "msgpack_unpack_next() err: NOMEM_ERROR"
    | .parseError => fail "msgpack_unpack_next() err: PARSE_ERROR"
    | .unpackContinue => fail "msgpack_unpack_next() err: CONTINUE"
    | .success (.map kvs) => do gameStateResult (← kvs.foldlM (gameStateEntry mp rd) .init)
    | .success root => fail ("invalid root type: " ++ toString (mp.typeNo root))

/-! ## `ifb_try_unpack_player_input` -/

/-- The locals of the loop. -/
structure PlayerInputLoop where
  unpackRes : PlayerInput
  isFIdParsed : Bool
  isFXParsed : Bool
  isFYParsed : Bool
  deriving DecidableEq

def PlayerInputLoop.init : PlayerInputLoop := ⟨.zero, false, false, false⟩

/-- The body of the loop. -/
def playerInputEntry (rd : Reader) (st : PlayerInputLoop) (kv : Object × Object) :
    Except Stop PlayerInputLoop :=
  match kv.1 with
  | .str k => do
    let id ← rd.keyIs k (cStr "id")
    let st := match id, kv.2 with
      | true, .positiveInteger u64 =>
        { st with unpackRes := { st.unpackRes with id := UInt32.ofNat u64 }, isFIdParsed := true }
      | _, _ => st
    if k.bytes.length = (cStr "x").length then
      let x ← rd.compare kv.1 (cStr "x")
      let st := if x then
        { st with unpackRes := { st.unpackRes with x := Int32.ofInt (rd.viaI64 kv.2) },
                  isFXParsed := true } else st
      let y ← rd.compare kv.1 (cStr "y")
      pure (if y then
        { st with unpackRes := { st.unpackRes with y := Int32.ofInt (rd.viaI64 kv.2) },
                  isFYParsed := true } else st)
    else pure st
  | _ => pure st

/-- What follows the loop. -/
def playerInputResult (st : PlayerInputLoop) : Except Stop PlayerInput :=
  if !st.isFIdParsed then fail "ifb_try_unpack_player_input() 'id' is not parsed."
  else if !st.isFXParsed then fail "ifb_try_unpack_player_input() 'x' is not parsed."
  else if !st.isFYParsed then fail "ifb_try_unpack_player_input() 'y' is not parsed."
  else .ok st.unpackRes

/-- `ifb_try_unpack_player_input`. -/
def ifbTryUnpackPlayerInput (mp : Msgpack) (rd : Reader) (data : Option Bytes) :
    Except Stop PlayerInput :=
  match mp.unpackNext (data.getD []) with
  | .nomemError => fail "ifb_try_unpack_player_input() unpack error: NOMEM_ERROR"
  | .parseError => fail "ifb_try_unpack_player_input() unpack error: PARSE_ERROR"
  | .unpackContinue => fail "ifb_try_unpack_player_input() unpack error: UNPACK_CONTINUE"
  | .success (.map kvs) => do playerInputResult (← kvs.foldlM (playerInputEntry rd) .init)
  | .success _ => fail "ifb_try_unpack_player_input() invalid root type."

/-! ## Comparisons behind a length test -/

theorem compare_inside (rd : Reader) {k : Slice} {lit : Bytes}
    (h : lit.length ≤ k.bytes.length) :
    rd.compare (.str k) lit = .ok (lit.isPrefixOf k.bytes) := by
  unfold Reader.compare
  rw [rd.inside k lit h]

/-- At equal lengths a prefix is the whole. -/
theorem isPrefixOf_eq {a b : Bytes} (h : b.length = a.length) :
    a.isPrefixOf b = decide (b = a) := by
  rw [Bool.eq_iff_iff, List.isPrefixOf_iff_prefix, decide_eq_true_eq]
  constructor
  · intro hp
    exact (hp.eq_of_length h.symm).symm
  · rintro rfl
    exact List.prefix_rfl

theorem compare_eq (rd : Reader) {k : Slice} {lit : Bytes} (h : k.bytes.length = lit.length) :
    rd.compare (.str k) lit = .ok (decide (k.bytes = lit)) := by
  rw [compare_inside rd h.ge, isPrefixOf_eq h]

/-- **A comparison behind a length test only reads the key.** -/
theorem keyIs_eq (rd : Reader) (k : Slice) (lit : Bytes) :
    rd.keyIs k lit = .ok (decide (k.bytes = lit)) := by
  unfold Reader.keyIs
  split
  · rename_i h
    exact compare_eq rd h
  · rename_i h
    rw [decide_eq_false fun e => h (congrArg List.length e)]

end MasterRelay.Protocol
