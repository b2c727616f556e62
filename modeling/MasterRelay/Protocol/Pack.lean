import MasterRelay.Protocol.Msgpack

/-!
# Packing

The `ifb_try_pack_*` functions of `protocol_msg.c`. A `Packer` writes into a `msgpack_sbuffer`; each
`msgpack_pack_*` call is one write, and a write fails when the buffer cannot grow. `Sbuf.grow` says
how the next writes end, so every pattern of failures is covered.

`Emits m out` is the specification of a packer: on success it has appended exactly `out`, on
failure a prefix of `out`, and it succeeds when the buffer can grow. Each packing function comes
with its bytes (`userInfoBytes`, `playerPosBytes`, `gameStateBytes`, `playerInputBytes`) and the
`Emits` theorem that says so. `Needs m n`: it succeeds exactly when its `n` writes find room.
-/

namespace MasterRelay.Protocol

open MasterRelay.Lib.MsgPack

/-- A `msgpack_sbuffer`: its contents, and whether each of the next writes finds room (`false`: the
reallocation fails; past the list every write succeeds). -/
structure Sbuf where
  data : Bytes
  grow : List Bool

/-- After `msgpack_sbuffer_init`. -/
def Sbuf.init (grow : List Bool) : Sbuf := ⟨[], grow⟩

/-- A packing function: it returns false with the text it wrote into `err_buf`, or true. -/
abbrev Packer := ExceptT String (StateM Sbuf)

/-- One `msgpack_pack_*` call writing `bs`, and the text for `err_buf` when it fails. -/
def write (bs : Bytes) (err : String) : Packer Unit := fun s =>
  match s.grow with
  | false :: g => (.error err, ⟨s.data, g⟩)
  | true :: g => (.ok (), ⟨s.data ++ bs, g⟩)
  | [] => (.ok (), ⟨s.data ++ bs, []⟩)

variable (mp : Msgpack)

/-- `msgpack_pack_true` or `msgpack_pack_false`. -/
def packBoolean (b : Bool) : Bytes := if b then mp.packTrue else mp.packFalse

/-- `ifb_try_pack_user_info`. -/
def ifbTryPackUserInfo (user : UserInfo) : Packer Unit := do
  write (mp.packMap 2) "msgpack_pack_map failed."
  write (mp.packStr (cStr "id").length) "msgpack_pack_str 'id' KEY failed."
  write (mp.packStrBody (cStr "id")) "msgpack_pack_str_body 'id' KEY failed."
  write (mp.packUint32 user.id) "msgpack_pack_uint32 'id' VALUE failed."
  write (mp.packStr (cStr "is_master").length) "msgpack_pack_str 'is_master' KEY failed."
  write (mp.packStrBody (cStr "is_master")) "msgpack_pack_str_body 'is_master' KEY failed."
  write (packBoolean mp user.isMaster) "msgpack_pack true/false 'is_master' VALUE failed."

/-- `ifb_try_pack_str_full`. `text` is the C string as the error texts print it. -/
def ifbTryPackStrFull (text : String) : Packer Unit := do
  write (mp.packStr (cStr text).length) ("msgpack_pack_str failed for " ++ text ++ ".\n")
  write (mp.packStrBody (cStr text)) ("msgpack_pack_str_body failed for " ++ text ++ ".\n")

/-- `ifb_try_pack_player_pos`. -/
def ifbTryPackPlayerPos (pos : PlayerPos) : Packer Unit := do
  write (mp.packMap 3) "msgpack_pack_map() failed."
  ifbTryPackStrFull mp "is_exists"
  write (packBoolean mp pos.isExists) "msgpack_pack_true/false 'is_exists' VALUE failed."
  ifbTryPackStrFull mp "x"
  write (mp.packInt32 pos.x) "msgpack_pack_int32 'x' VALUE failed."
  ifbTryPackStrFull mp "y"
  write (mp.packInt32 pos.y) "msgpack_pack_int32 'y' VALUE failed."

/-- `snprintf(buf_key, sizeof(buf_key), "pos_%ld", i + 1)` into 32 bytes. -/
def posKey (i : Nat) : String :=
  String.ofList (("pos_".toList ++ Nat.toDigits 10 (i + 1)).take 31)

/-- The loop of `ifb_try_pack_player_pos_count` from index `i` on. -/
def packPosFrom (i : Nat) : List (Option PlayerPos) → Packer Unit
  | [] => pure ()
  | none :: _ => throw ("invalid ptr at index " ++ toString i)
  | some p :: rest => do
    ifbTryPackStrFull mp (posKey i)
    ifbTryPackPlayerPos mp p
    packPosFrom (i + 1) rest

/-- `ifb_try_pack_player_pos_count`: `none` is a NULL pointer in the array. -/
def ifbTryPackPlayerPosCount (posPtrArr : List (Option PlayerPos)) : Packer Unit :=
  packPosFrom mp 0 posPtrArr

/-- `ifb_try_pack_game_state`. -/
def ifbTryPackGameState (gameState : GameState) : Packer Unit := do
  write (mp.packMap 5) "msgpack_pack_map() failed."
  ifbTryPackStrFull mp "tick"
  write (mp.packUint32 gameState.tick) "msgpack_pack_uint32 'tick' VALUE failed."
  ifbTryPackPlayerPosCount mp
    [some gameState.pos1, some gameState.pos2, some gameState.pos3, some gameState.pos4]

/-- `ifb_try_pack_player_input`. -/
def ifbTryPackPlayerInput (playerInput : PlayerInput) : Packer Unit := do
  write (mp.packMap 3) "ifb_try_pack_player_input()->msgpack_pack_map() failed."
  ifbTryPackStrFull mp "id"
  write (mp.packUint32 playerInput.id) "ifb_try_pack_player_input() pack player_input.id failed."
  ifbTryPackStrFull mp "x"
  write (mp.packInt32 playerInput.x) "ifb_try_pack_player_input() pack player_input.x failed."
  ifbTryPackStrFull mp "y"
  write (mp.packInt32 playerInput.y) "ifb_try_pack_player_input() pack player_input.y failed."

/-! ## The bytes -/

/-- A packed string. -/
def strBytes (text : String) : Bytes :=
  mp.packStr (cStr text).length ++ mp.packStrBody (cStr text)

def userInfoBytes (user : UserInfo) : Bytes :=
  mp.packMap 2 ++ (strBytes mp "id" ++ (mp.packUint32 user.id ++
    (strBytes mp "is_master" ++ packBoolean mp user.isMaster)))

def playerPosBytes (pos : PlayerPos) : Bytes :=
  mp.packMap 3 ++ (strBytes mp "is_exists" ++ (packBoolean mp pos.isExists ++
    (strBytes mp "x" ++ (mp.packInt32 pos.x ++ (strBytes mp "y" ++ mp.packInt32 pos.y)))))

/-- The entries from index `i` on. -/
def posEntriesBytes (i : Nat) : List PlayerPos → Bytes
  | [] => []
  | p :: rest => strBytes mp (posKey i) ++ (playerPosBytes mp p ++ posEntriesBytes (i + 1) rest)

def gameStateBytes (gs : GameState) : Bytes :=
  mp.packMap 5 ++ (strBytes mp "tick" ++ (mp.packUint32 gs.tick ++
    posEntriesBytes mp 0 [gs.pos1, gs.pos2, gs.pos3, gs.pos4]))

def playerInputBytes (pi : PlayerInput) : Bytes :=
  mp.packMap 3 ++ (strBytes mp "id" ++ (mp.packUint32 pi.id ++ (strBytes mp "x" ++
    (mp.packInt32 pi.x ++ (strBytes mp "y" ++ mp.packInt32 pi.y)))))

/-! ## Specifications -/

/-- Every write finds room. -/
def Sbuf.Roomy (s : Sbuf) : Prop := ∀ b ∈ s.grow, b = true

/-- **The specification of a packer**: it appends `out`, or a prefix of it when it fails, and it
does not fail while the buffer can grow. -/
structure Emits (m : Packer Unit) (out : Bytes) : Prop where
  ok : ∀ s s', m s = (.ok (), s') → s'.data = s.data ++ out
  error : ∀ s s' e, m s = (.error e, s') → ∃ p, p <+: out ∧ s'.data = s.data ++ p
  roomy : ∀ s : Sbuf, s.Roomy → ∃ s', m s = (.ok (), s') ∧ s'.Roomy

variable {mp}

theorem emits_write (bs : Bytes) (err : String) : Emits (write bs err) bs where
  ok s s' h := by
    unfold write at h
    split at h <;> cases h <;> rfl
  error s s' e h := by
    unfold write at h
    split at h <;> cases h
    exact ⟨[], List.nil_prefix, (List.append_nil _).symm⟩
  roomy s hs := by
    obtain ⟨data, grow⟩ := s
    match grow, hs with
    | false :: g, hs => exact absurd (hs false List.mem_cons_self) (by simp)
    | true :: g, hs => exact ⟨_, rfl, fun b hb => hs b (List.mem_cons_of_mem _ hb)⟩
    | [], _ => exact ⟨_, rfl, fun b hb => absurd hb List.not_mem_nil⟩

theorem emits_pure : Emits (pure ()) [] where
  ok s s' h := by cases h; exact (List.append_nil _).symm
  error s s' e h := by cases h
  roomy s hs := ⟨s, rfl, hs⟩

theorem packer_bind (m : Packer Unit) (f : Unit → Packer Unit) (s : Sbuf) :
    (m >>= f) s = match m s with
      | (.ok a, s') => f a s'
      | (.error e, s') => (.error e, s') := by
  simp only [bind, ExceptT.bind, ExceptT.mk, StateT.bind, ExceptT.bindCont]
  rcases m s with ⟨a | a, s'⟩ <;> rfl

/-- One packer after the other. -/
theorem Emits.bind {m : Packer Unit} {f : Unit → Packer Unit} {a b : Bytes} (hm : Emits m a)
    (hf : Emits (f ()) b) : Emits (m >>= f) (a ++ b) where
  ok s s' h := by
    rw [packer_bind] at h
    split at h
    · rename_i s₁ h₁
      rw [hf.ok _ _ h, hm.ok _ _ h₁, List.append_assoc]
    · cases h
  error s s' e h := by
    rw [packer_bind] at h
    split at h
    · rename_i s₁ h₁
      obtain ⟨p, hp, hd⟩ := hf.error _ _ _ h
      refine ⟨a ++ p, (List.prefix_append_right_inj a).mpr hp, ?_⟩
      rw [hd, hm.ok _ _ h₁, List.append_assoc]
    · rename_i e' s₁ h₁
      cases h
      obtain ⟨p, hp, hd⟩ := hm.error _ _ _ h₁
      exact ⟨p, hp.trans (List.prefix_append a b), hd⟩
  roomy s hs := by
    obtain ⟨s₁, h₁, hr₁⟩ := hm.roomy s hs
    obtain ⟨s₂, h₂, hr₂⟩ := hf.roomy s₁ hr₁
    exact ⟨s₂, by rw [packer_bind, h₁]; exact h₂, hr₂⟩

theorem emits_strFull (text : String) : Emits (ifbTryPackStrFull mp text) (strBytes mp text) :=
  (emits_write _ _).bind (emits_write _ _)

/-- **`ifb_try_pack_user_info` writes `userInfoBytes`.** -/
theorem emits_userInfo (user : UserInfo) :
    Emits (ifbTryPackUserInfo mp user) (userInfoBytes mp user) := by
  unfold ifbTryPackUserInfo userInfoBytes strBytes
  simp only [List.append_assoc]
  exact .bind (emits_write _ _) (.bind (emits_write _ _) (.bind (emits_write _ _)
    (.bind (emits_write _ _) (.bind (emits_write _ _) (.bind (emits_write _ _)
      (emits_write _ _))))))

/-- **`ifb_try_pack_player_pos` writes `playerPosBytes`.** -/
theorem emits_playerPos (pos : PlayerPos) :
    Emits (ifbTryPackPlayerPos mp pos) (playerPosBytes mp pos) := by
  unfold ifbTryPackPlayerPos playerPosBytes
  exact .bind (emits_write _ _) (.bind (emits_strFull _) (.bind (emits_write _ _)
    (.bind (emits_strFull _) (.bind (emits_write _ _) (.bind (emits_strFull _)
      (emits_write _ _))))))

/-- The loop over an array without NULL pointers. -/
theorem emits_packPosFrom : ∀ (ps : List PlayerPos) (i : Nat),
    Emits (packPosFrom mp i (ps.map some)) (posEntriesBytes mp i ps)
  | [], _ => emits_pure
  | p :: ps, i =>
    .bind (emits_strFull _) (.bind (emits_playerPos p) (emits_packPosFrom ps (i + 1)))

/-- **`ifb_try_pack_game_state` writes `gameStateBytes`.** -/
theorem emits_gameState (gs : GameState) :
    Emits (ifbTryPackGameState mp gs) (gameStateBytes mp gs) := by
  unfold ifbTryPackGameState gameStateBytes
  exact .bind (emits_write _ _) (.bind (emits_strFull _) (.bind (emits_write _ _)
    (emits_packPosFrom [gs.pos1, gs.pos2, gs.pos3, gs.pos4] 0)))

/-- **`ifb_try_pack_player_input` writes `playerInputBytes`.** -/
theorem emits_playerInput (pi : PlayerInput) :
    Emits (ifbTryPackPlayerInput mp pi) (playerInputBytes mp pi) := by
  unfold ifbTryPackPlayerInput playerInputBytes
  exact .bind (emits_write _ _) (.bind (emits_strFull _) (.bind (emits_write _ _)
    (.bind (emits_strFull _) (.bind (emits_write _ _) (.bind (emits_strFull _)
      (emits_write _ _))))))

/-! ## When a packer succeeds -/

/-- The next `n` writes find room. -/
def Sbuf.HasRoom (s : Sbuf) (n : Nat) : Prop := ∀ b ∈ s.grow.take n, b = true

/-- The packer makes `n` writes, and fails where one of them does. -/
structure Needs (m : Packer Unit) (n : Nat) : Prop where
  ok : ∀ s : Sbuf, s.HasRoom n → ∃ s', m s = (.ok (), s') ∧ s'.grow = s.grow.drop n
  error : ∀ s : Sbuf, ¬ s.HasRoom n → ∃ e s', m s = (.error e, s')

theorem needs_write (bs : Bytes) (err : String) : Needs (write bs err) 1 where
  ok s hs := by
    obtain ⟨data, grow⟩ := s
    match grow, hs with
    | false :: g, hs => exact absurd (hs false List.mem_cons_self) (by simp)
    | true :: g, _ => exact ⟨_, rfl, rfl⟩
    | [], _ => exact ⟨_, rfl, rfl⟩
  error s hs := by
    obtain ⟨data, grow⟩ := s
    match grow, hs with
    | false :: g, _ => exact ⟨_, _, rfl⟩
    | true :: g, hs => exact absurd (fun b hb => List.mem_singleton.mp hb) hs
    | [], hs => exact absurd (fun b hb => absurd hb List.not_mem_nil) hs

/-- The writes of one packer after the other add up. -/
theorem Needs.bind {m : Packer Unit} {f : Unit → Packer Unit} {a b : Nat} (hm : Needs m a)
    (hf : Needs (f ()) b) : Needs (m >>= f) (a + b) := by
  have hsplit : ∀ s s' : Sbuf, s'.grow = s.grow.drop a →
      (s.HasRoom (a + b) ↔ s.HasRoom a ∧ s'.HasRoom b) := by
    intro s s' hs
    unfold Sbuf.HasRoom
    rw [hs, List.take_add, List.forall_mem_append]
  constructor
  · intro s hs
    obtain ⟨s₁, h₁, hg₁⟩ := hm.ok s fun x hx => hs x (List.take_add ▸ List.mem_append_left _ hx)
    obtain ⟨s₂, h₂, hg₂⟩ := hf.ok s₁ ((hsplit s s₁ hg₁).mp hs).2
    exact ⟨s₂, by rw [packer_bind, h₁]; exact h₂, by rw [hg₂, hg₁, List.drop_drop]⟩
  · intro s hs
    by_cases ha : s.HasRoom a
    · obtain ⟨s₁, h₁, hg₁⟩ := hm.ok s ha
      obtain ⟨e, s₂, h₂⟩ := hf.error s₁ fun hb => hs ((hsplit s s₁ hg₁).mpr ⟨ha, hb⟩)
      exact ⟨e, s₂, by rw [packer_bind, h₁]; exact h₂⟩
    · obtain ⟨e, s₁, h₁⟩ := hm.error s ha
      exact ⟨e, s₁, by rw [packer_bind, h₁]⟩

/-- `ifb_try_pack_user_info` makes seven writes. -/
theorem needs_userInfo (user : UserInfo) : Needs (ifbTryPackUserInfo mp user) 7 := by
  have hsum : Needs (ifbTryPackUserInfo mp user) (1 + (1 + (1 + (1 + (1 + (1 + 1)))))) := by
    unfold ifbTryPackUserInfo
    exact .bind (needs_write _ _) (.bind (needs_write _ _) (.bind (needs_write _ _)
      (.bind (needs_write _ _) (.bind (needs_write _ _) (.bind (needs_write _ _)
        (needs_write _ _))))))
  exact hsum

theorem needs_pure : Needs (pure ()) 0 where
  ok s _ := ⟨s, rfl, rfl⟩
  error s hs := absurd (fun b hb => absurd hb (by simp)) hs

theorem needs_strFull (text : String) : Needs (ifbTryPackStrFull mp text) 2 := by
  have hsum : Needs (ifbTryPackStrFull mp text) (1 + 1) :=
    (needs_write _ _).bind (needs_write _ _)
  exact hsum

/-- `ifb_try_pack_player_pos` makes ten writes. -/
theorem needs_playerPos (pos : PlayerPos) : Needs (ifbTryPackPlayerPos mp pos) 10 := by
  have hsum : Needs (ifbTryPackPlayerPos mp pos) (1 + (2 + (1 + (2 + (1 + (2 + 1)))))) := by
    unfold ifbTryPackPlayerPos
    exact .bind (needs_write _ _) (.bind (needs_strFull _) (.bind (needs_write _ _)
      (.bind (needs_strFull _) (.bind (needs_write _ _) (.bind (needs_strFull _)
        (needs_write _ _))))))
  exact hsum

/-- Each position of an array takes twelve. -/
theorem needs_packPosFrom (ps : List PlayerPos) (i : Nat) :
    Needs (packPosFrom mp i (ps.map some)) (12 * ps.length) := by
  induction ps generalizing i with
  | nil => exact needs_pure
  | cons p ps ih =>
    have hsum : 2 + (10 + 12 * ps.length) = 12 * (p :: ps).length := by
      rw [List.length_cons]
      omega
    rw [← hsum]
    exact .bind (needs_strFull _) (.bind (needs_playerPos p) (ih (i + 1)))

/-- The writes of `ifb_try_pack_game_state`. -/
def gameStateWrites : Nat := 52

theorem needs_gameState (gs : GameState) : Needs (ifbTryPackGameState mp gs) gameStateWrites := by
  have hsum : Needs (ifbTryPackGameState mp gs) (1 + (2 + (1 + 12 * 4))) := by
    unfold ifbTryPackGameState
    exact .bind (needs_write _ _) (.bind (needs_strFull _) (.bind (needs_write _ _)
      (needs_packPosFrom [gs.pos1, gs.pos2, gs.pos3, gs.pos4] 0)))
  exact hsum

end MasterRelay.Protocol
