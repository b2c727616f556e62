import MasterRelay.Protocol.Fields

/-!
# What the game-state decoder selects

`ifb_try_unpack_player_pos` compares the start of each key with `is_exists`, `x` and `y`, without
its length, and overwrites what it finds; `ifb_try_unpack_game_state` decodes each position it comes
to. For any reader:

* **`unpackPlayerPos_selection`**: a position is what the last entries that are found select, and
  the old contents of `*out` do not count (`unpackPlayerPos_out`).
* **`unpackGameState_eq_ok`**: a payload is accepted when every position in it is and each field has
  an entry, and then each field comes from its last one.
-/

namespace MasterRelay.Protocol

open MasterRelay.Lib.LastMatch
open MasterRelay.Lib.MsgPack

/-! ## Positions -/

/-- `memcmp` finds `lit` at the key. -/
def Reader.finds (rd : Reader) (lit : Bytes) (k : Object) : Bool := rd.memcmp k lit == some true

/-- The key can be compared with every field of a position. -/
def Reader.Comparable (rd : Reader) (k : Object) : Prop :=
  (rd.memcmp k (cStr "is_exists")).isSome = true ∧ (rd.memcmp k (cStr "x")).isSome = true ∧
    (rd.memcmp k (cStr "y")).isSome = true

instance (rd : Reader) (k : Object) : Decidable (rd.Comparable k) :=
  inferInstanceAs (Decidable (_ ∧ _ ∧ _))

variable (mp : Msgpack) (rd : Reader)

theorem error_bind {ε α β : Type} (e : ε) (f : α → Except ε β) :
    (Except.error e >>= f) = .error e := rfl

theorem compare_eq_finds {k : Object} {lit : Bytes} (h : (rd.memcmp k lit).isSome = true) :
    rd.compare k lit = .ok (rd.finds lit k) := by
  unfold Reader.compare Reader.finds
  obtain ⟨b, hb⟩ := Option.isSome_iff_exists.mp h
  rw [hb]
  cases b <;> rfl

theorem compare_eq_fault {k : Object} {lit : Bytes} (h : ¬ (rd.memcmp k lit).isSome = true) :
    rd.compare k lit = .error .fault := by
  unfold Reader.compare
  rw [Option.not_isSome_iff_eq_none.mp h]

/-- What an entry with a comparable key writes. -/
def playerPosWrite (st : PlayerPosLoop) (kv : Object × Object) : PlayerPosLoop where
  out :=
    { isExists := (fieldAt (rd.finds (cStr "is_exists")) boolean? kv).getD st.out.isExists
      x := ((fieldAt (rd.finds (cStr "x")) some kv).map fun v => Int32.ofInt (rd.viaI64 v)).getD
        st.out.x
      y := ((fieldAt (rd.finds (cStr "y")) some kv).map fun v => Int32.ofInt (rd.viaI64 v)).getD
        st.out.y }
  isFIsExistsParsed :=
    (fieldAt (rd.finds (cStr "is_exists")) boolean? kv).isSome || st.isFIsExistsParsed
  isFXParsed := rd.finds (cStr "x") kv.1 || st.isFXParsed
  isFYParsed := rd.finds (cStr "y") kv.1 || st.isFYParsed

theorem playerPosEntry_comparable (st : PlayerPosLoop) {kv : Object × Object}
    (h : rd.Comparable kv.1) : playerPosEntry rd st kv = .ok (playerPosWrite rd st kv) := by
  obtain ⟨he, hx, hy⟩ := h
  obtain ⟨k, v⟩ := kv
  simp only [playerPosEntry, compare_eq_finds rd he, compare_eq_finds rd hx,
    compare_eq_finds rd hy, ok_bind, playerPosWrite, fieldAt]
  cases rd.finds (cStr "is_exists") k with
  | false =>
    cases rd.finds (cStr "x") k <;> cases rd.finds (cStr "y") k <;> simp [pure, Except.pure]
  | true =>
    cases rd.finds (cStr "x") k <;> cases rd.finds (cStr "y") k <;> cases v <;>
      simp [pure, Except.pure, boolean?]

theorem playerPosEntry_fault (st : PlayerPosLoop) {kv : Object × Object}
    (h : ¬ rd.Comparable kv.1) : playerPosEntry rd st kv = .error .fault := by
  unfold playerPosEntry
  by_cases he : (rd.memcmp kv.1 (cStr "is_exists")).isSome = true
  · rw [compare_eq_finds rd he, ok_bind]
    by_cases hx : (rd.memcmp kv.1 (cStr "x")).isSome = true
    · have hy : ¬ (rd.memcmp kv.1 (cStr "y")).isSome = true := fun hy => h ⟨he, hx, hy⟩
      rw [compare_eq_finds rd hx, ok_bind, compare_eq_fault rd hy]
      exact error_bind _ _
    · rw [compare_eq_fault rd hx]
      exact error_bind _ _
  · rw [compare_eq_fault rd he]
    exact error_bind _ _

/-- A variable after an entry that may write it. -/
theorem parsed_write {β : Type} (o : Option β) (flag : Bool) (value : β) :
    parsed (o.isSome || flag) (o.getD value) = o.or (parsed flag value) := by
  cases o <;> rfl

theorem isSome_valueAt {β : Type} (key : Object → Bool) (f : Object → β) (kv : Object × Object) :
    ((fieldAt key some kv).map f).isSome = key kv.1 := by
  unfold fieldAt
  cases key kv.1 <;> rfl

theorem playerPosWrite_isExists (st : PlayerPosLoop) (kv : Object × Object) :
    parsed (playerPosWrite rd st kv).isFIsExistsParsed (playerPosWrite rd st kv).out.isExists =
      (fieldAt (rd.finds (cStr "is_exists")) boolean? kv).or
        (parsed st.isFIsExistsParsed st.out.isExists) :=
  parsed_write _ _ _

theorem playerPosWrite_x (st : PlayerPosLoop) (kv : Object × Object) :
    parsed (playerPosWrite rd st kv).isFXParsed (playerPosWrite rd st kv).out.x =
      ((fieldAt (rd.finds (cStr "x")) some kv).map fun v => Int32.ofInt (rd.viaI64 v)).or
        (parsed st.isFXParsed st.out.x) := by
  rw [← parsed_write, isSome_valueAt]
  rfl

theorem playerPosWrite_y (st : PlayerPosLoop) (kv : Object × Object) :
    parsed (playerPosWrite rd st kv).isFYParsed (playerPosWrite rd st kv).out.y =
      ((fieldAt (rd.finds (cStr "y")) some kv).map fun v => Int32.ofInt (rd.viaI64 v)).or
        (parsed st.isFYParsed st.out.y) := by
  rw [← parsed_write, isSome_valueAt]
  rfl

/-- What follows the loop, by the fields that were parsed. -/
theorem playerPosResult_eq (st : PlayerPosLoop) :
    playerPosResult st =
      match parsed st.isFIsExistsParsed st.out.isExists, parsed st.isFXParsed st.out.x,
        parsed st.isFYParsed st.out.y with
      | none, _, _ => fail "field: 'is_exists' is not parsed."
      | some _, none, _ => fail "field: 'x' is not parsed."
      | some _, some _, none => fail "field: 'y' is not parsed."
      | some isExists, some x, some y => .ok ⟨isExists, x, y⟩ := by
  obtain ⟨⟨isExists, x, y⟩, f₁, f₂, f₃⟩ := st
  cases f₁ <;> cases f₂ <;> cases f₃ <;> rfl

/-- The flag of the last entry that is found to be one. -/
def lastExists (kvs : List (Object × Object)) : Option Bool :=
  lastMatch (fieldAt (rd.finds (cStr "is_exists")) boolean?) kvs

/-- The value of the last entry that is found to be this coordinate. -/
def lastCoordinate (name : Bytes) (kvs : List (Object × Object)) : Option Object :=
  lastMatch (fieldAt (rd.finds name) some) kvs

/-- The fields `ifb_try_unpack_player_pos` selects from comparable keys. -/
def playerPosSelection (kvs : List (Object × Object)) : Except Stop PlayerPos :=
  match lastExists rd kvs, lastCoordinate rd (cStr "x") kvs, lastCoordinate rd (cStr "y") kvs with
  | none, _, _ => fail "field: 'is_exists' is not parsed."
  | some _, none, _ => fail "field: 'x' is not parsed."
  | some _, some _, none => fail "field: 'y' is not parsed."
  | some isExists, some x, some y =>
    .ok ⟨isExists, Int32.ofInt (rd.viaI64 x), Int32.ofInt (rd.viaI64 y)⟩

/-- **`ifb_try_unpack_player_pos` on a map** returns what it selects, and faults where a key cannot
be compared. -/
theorem unpackPlayerPos_selection (out : PlayerPos) (kvs : List (Object × Object)) :
    ((∀ kv ∈ kvs, rd.Comparable kv.1) →
      ifbTryUnpackPlayerPos mp rd out (.map kvs) = playerPosSelection rd kvs) ∧
    (¬ (∀ kv ∈ kvs, rd.Comparable kv.1) →
      ifbTryUnpackPlayerPos mp rd out (.map kvs) = .error .fault) := by
  constructor
  · intro h
    have hfold := (foldlM_eq_ok (playerPosEntry rd) (playerPosWrite rd)
      (fun kv => rd.Comparable kv.1) (fun st _ hc => playerPosEntry_comparable rd st hc)
      (fun st _ hc => ⟨_, playerPosEntry_fault rd st hc⟩)).mpr
      ⟨h, (rfl : _ = kvs.foldl (playerPosWrite rd) ⟨out, false, false, false⟩)⟩
    rw [ifbTryUnpackPlayerPos, hfold, ok_bind, playerPosResult_eq]
    have he := foldl_lastMatch_unwritten (playerPosWrite rd)
      (fun st => parsed st.isFIsExistsParsed st.out.isExists) _ (playerPosWrite_isExists rd) kvs
      ⟨out, false, false, false⟩ rfl
    have hx := foldl_lastMatch_unwritten (playerPosWrite rd)
      (fun st => parsed st.isFXParsed st.out.x) _ (playerPosWrite_x rd) kvs
      ⟨out, false, false, false⟩ rfl
    have hy := foldl_lastMatch_unwritten (playerPosWrite rd)
      (fun st => parsed st.isFYParsed st.out.y) _ (playerPosWrite_y rd) kvs
      ⟨out, false, false, false⟩ rfl
    rw [he, hx, hy, lastMatch_value, lastMatch_value]
    unfold playerPosSelection lastExists lastCoordinate
    cases lastMatch (fieldAt (rd.finds (cStr "is_exists")) boolean?) kvs <;>
      cases lastMatch (fieldAt (rd.finds (cStr "x")) some) kvs <;>
        cases lastMatch (fieldAt (rd.finds (cStr "y")) some) kvs <;> rfl
  · intro h
    rw [ifbTryUnpackPlayerPos, foldlM_error (playerPosEntry rd) (fun kv => rd.Comparable kv.1)
      (fun st _ hc => playerPosEntry_fault rd st hc)
      (fun st _ hc => ⟨_, playerPosEntry_comparable rd st hc⟩) h, error_bind]

/-- The old contents of `*out` do not count. -/
theorem unpackPlayerPos_out (out out' : PlayerPos) (v : Object) :
    ifbTryUnpackPlayerPos mp rd out v = ifbTryUnpackPlayerPos mp rd out' v := by
  cases v with
  | map kvs =>
    by_cases h : ∀ kv ∈ kvs, rd.Comparable kv.1
    · rw [(unpackPlayerPos_selection mp rd out kvs).1 h,
        (unpackPlayerPos_selection mp rd out' kvs).1 h]
    · rw [(unpackPlayerPos_selection mp rd out kvs).2 h,
        (unpackPlayerPos_selection mp rd out' kvs).2 h]
  | _ => rfl

/-- **When a position is accepted**, and with what. -/
theorem unpackPlayerPos_eq_ok {out p : PlayerPos} {v : Object} :
    ifbTryUnpackPlayerPos mp rd out v = .ok p ↔
      ∃ kvs x y, v = .map kvs ∧ (∀ kv ∈ kvs, rd.Comparable kv.1) ∧
        lastExists rd kvs = some p.isExists ∧ lastCoordinate rd (cStr "x") kvs = some x ∧
        lastCoordinate rd (cStr "y") kvs = some y ∧
        p.x = Int32.ofInt (rd.viaI64 x) ∧ p.y = Int32.ofInt (rd.viaI64 y) := by
  constructor
  · intro h
    cases v with
    | map kvs =>
      by_cases hc : ∀ kv ∈ kvs, rd.Comparable kv.1
      · rw [(unpackPlayerPos_selection mp rd out kvs).1 hc, playerPosSelection] at h
        split at h
        · exact absurd h (by simp [fail])
        · exact absurd h (by simp [fail])
        · exact absurd h (by simp [fail])
        · rename_i isExists x y he hx hy
          cases h
          exact ⟨kvs, x, y, rfl, hc, he, hx, hy, rfl, rfl⟩
      · rw [(unpackPlayerPos_selection mp rd out kvs).2 hc] at h
        cases h
    | _ => exact absurd h (by simp [ifbTryUnpackPlayerPos, fail])
  · rintro ⟨kvs, x, y, rfl, hc, he, hx, hy, hpx, hpy⟩
    rw [(unpackPlayerPos_selection mp rd out kvs).1 hc, playerPosSelection, he, hx, hy]
    dsimp only
    rw [← hpx, ← hpy]

/-! ## The root of a game state -/

/-- The position an object decodes to. -/
def posOf (v : Object) : Option PlayerPos := (ifbTryUnpackPlayerPos mp rd .zero v).toOption

/-- Whether `is_f_pos_i_parsed`. -/
def GameStateLoop.posParsed (st : GameStateLoop) : Fin 4 → Bool :=
  ![st.isFPos1Parsed, st.isFPos2Parsed, st.isFPos3Parsed, st.isFPos4Parsed]

theorem setPos_pos (st : GameStateLoop) (i j : Fin 4) (p : PlayerPos) :
    parsed ((st.setPos i p).posParsed j) ((st.setPos i p).unpackRes.pos j) =
      if j = i then some p else parsed (st.posParsed j) (st.unpackRes.pos j) := by
  match i with
  | 0 => match j with
    | 0 | 1 | 2 | 3 => rfl
  | 1 => match j with
    | 0 | 1 | 2 | 3 => rfl
  | 2 => match j with
    | 0 | 1 | 2 | 3 => rfl
  | 3 => match j with
    | 0 | 1 | 2 | 3 => rfl

theorem setPos_tick (st : GameStateLoop) (i : Fin 4) (p : PlayerPos) :
    parsed (st.setPos i p).isFTickParsed (st.setPos i p).unpackRes.tick =
      parsed st.isFTickParsed st.unpackRes.tick := by
  match i with
  | 0 | 1 | 2 | 3 => rfl

theorem setTick_pos (st : GameStateLoop) (i : Fin 4) (n : Nat) :
    parsed ((st.setTick n).posParsed i) ((st.setTick n).unpackRes.pos i) =
      parsed (st.posParsed i) (st.unpackRes.pos i) := by
  match i with
  | 0 | 1 | 2 | 3 => rfl

/-- The entry is not refused: where it is a position, it decodes. -/
def Accepted (kv : Object × Object) : Prop :=
  isPosKey kv.1 = true → ∃ p, ifbTryUnpackPlayerPos mp rd .zero kv.2 = .ok p

/-- What an entry that is not refused writes. -/
def gameStateWrite (st : GameStateLoop) (kv : Object × Object) : GameStateLoop :=
  (gameStateEntry mp rd st kv).toOption.getD st

/-- An entry under a position key, whatever the position held. -/
theorem gameStateEntry_posOf {k : Slice} {v : Object} (st : GameStateLoop) {i : Fin 4}
    (h : k.bytes = posName i) :
    gameStateEntry mp rd st (.str k, v) =
      (ifbTryUnpackPlayerPos mp rd .zero v).map (st.setPos i) := by
  rw [gameStateEntry_pos mp rd h, unpackPlayerPos_out mp rd _ .zero]

theorem isPosKey_of_posName {k : Slice} {i : Fin 4} (h : k.bytes = posName i) :
    isPosKey (.str k) = true := decide_eq_true ⟨i, h⟩

theorem gameStateEntry_accepted (st : GameStateLoop) {kv : Object × Object}
    (h : Accepted mp rd kv) : gameStateEntry mp rd st kv = .ok (gameStateWrite mp rd st kv) := by
  obtain ⟨k, v⟩ := kv
  unfold gameStateWrite
  rcases rootKey_cases k with ⟨s, i, rfl, hi⟩ | ⟨hk, -⟩
  · obtain ⟨p, hp⟩ := h (isPosKey_of_posName hi)
    rw [gameStateEntry_posOf mp rd st hi, hp]
    rfl
  · obtain ⟨st', hst⟩ := gameStateEntry_notPos mp rd st v hk
    rw [hst]
    rfl

theorem gameStateEntry_refused (st : GameStateLoop) {kv : Object × Object}
    (h : ¬ Accepted mp rd kv) : ∃ e, gameStateEntry mp rd st kv = .error e := by
  obtain ⟨k, v⟩ := kv
  rcases rootKey_cases k with ⟨s, i, rfl, hi⟩ | ⟨hk, -⟩
  · rw [gameStateEntry_posOf mp rd st hi]
    cases hp : ifbTryUnpackPlayerPos mp rd .zero v with
    | error e => exact ⟨e, rfl⟩
    | ok p => exact absurd (fun _ => ⟨p, hp⟩) h
  · exact absurd (fun hpos => absurd (hpos.symm.trans hk) (by simp)) h

/-- A key that is none of `names` matches no field under them. -/
theorem fieldAt_miss {β : Type} {name : Bytes} {k : Object} (read : Object → Option β) (v : Object)
    (h : ∀ s, k = .str s → s.bytes ≠ name) : fieldAt (hasKey name) read (k, v) = none := by
  unfold fieldAt
  rw [if_neg]
  intro hkey
  obtain ⟨s, hs, hname⟩ := hasKey_iff.mp hkey
  exact h s hs hname

theorem fieldAt_hit {β : Type} {name : Bytes} {s : Slice} (read : Object → Option β) (v : Object)
    (h : s.bytes = name) : fieldAt (hasKey name) read (.str s, v) = read v :=
  if_pos (decide_eq_true h)

theorem gameStateWrite_tick (st : GameStateLoop) (kv : Object × Object) :
    parsed (gameStateWrite mp rd st kv).isFTickParsed (gameStateWrite mp rd st kv).unpackRes.tick =
      ((fieldAt (hasKey (cStr "tick")) natural? kv).map UInt32.ofNat).or
        (parsed st.isFTickParsed st.unpackRes.tick) := by
  obtain ⟨k, v⟩ := kv
  unfold gameStateWrite
  rcases rootKey_cases k with ⟨s, i, rfl, hi⟩ | ⟨-, ⟨s, rfl, hs⟩ | hother⟩
  · have hmiss : fieldAt (hasKey (cStr "tick")) natural? (.str s, v) = none :=
      fieldAt_miss _ _ fun s' hs' => Object.str.inj hs' ▸ hi ▸ posName_ne_tick i
    rw [gameStateEntry_posOf mp rd st hi, hmiss]
    cases ifbTryUnpackPlayerPos mp rd .zero v with
    | error e => rfl
    | ok p => exact setPos_tick st i p
  · rw [gameStateEntry_tick mp rd hs, fieldAt_hit _ _ hs]
    cases v <;> rfl
  · rw [gameStateEntry_other mp rd hother, fieldAt_miss _ _ fun s hs => (hother s hs).1]
    rfl

theorem gameStateWrite_pos (j : Fin 4) (st : GameStateLoop) (kv : Object × Object) :
    parsed ((gameStateWrite mp rd st kv).posParsed j)
        ((gameStateWrite mp rd st kv).unpackRes.pos j) =
      (fieldAt (hasKey (posName j)) (posOf mp rd) kv).or
        (parsed (st.posParsed j) (st.unpackRes.pos j)) := by
  obtain ⟨k, v⟩ := kv
  unfold gameStateWrite
  rcases rootKey_cases k with ⟨s, i, rfl, hi⟩ | ⟨-, ⟨s, rfl, hs⟩ | hother⟩
  · rw [gameStateEntry_posOf mp rd st hi]
    by_cases hji : j = i
    · subst hji
      rw [fieldAt_hit _ _ hi, posOf]
      cases ifbTryUnpackPlayerPos mp rd .zero v with
      | error e => rfl
      | ok p =>
        refine (setPos_pos st j j p).trans ?_
        rw [if_pos rfl]
        rfl
    · have hmiss : fieldAt (hasKey (posName j)) (posOf mp rd) (.str s, v) = none :=
        fieldAt_miss _ _ fun s' hs' hj =>
          hji (posName_injective j i (hj.symm.trans (Object.str.inj hs' ▸ hi)))
      rw [hmiss, Option.none_or]
      cases ifbTryUnpackPlayerPos mp rd .zero v with
      | error e => rfl
      | ok p =>
        refine (setPos_pos st i j p).trans ?_
        rw [if_neg hji]
  · have hmiss : fieldAt (hasKey (posName j)) (posOf mp rd) (.str s, v) = none :=
      fieldAt_miss _ _ fun s' hs' hj =>
        posName_ne_tick j (hj.symm.trans (Object.str.inj hs' ▸ hs))
    rw [gameStateEntry_tick mp rd hs, hmiss, Option.none_or]
    cases v with
    | positiveInteger n => exact setTick_pos st j n
    | _ => rfl
  · rw [gameStateEntry_other mp rd hother, fieldAt_miss _ _ fun s hs => (hother s hs).2 j]
    rfl

/-- A game state is its tick and its positions. -/
theorem GameState.ext_pos {gs gs' : GameState} (ht : gs.tick = gs'.tick)
    (hpos : ∀ i, gs.pos i = gs'.pos i) : gs = gs' := by
  obtain ⟨t, p₁, p₂, p₃, p₄⟩ := gs
  have h₁ := hpos 0
  have h₂ := hpos 1
  have h₃ := hpos 2
  have h₄ := hpos 3
  simp only [GameState.pos, Matrix.cons_val] at ht h₁ h₂ h₃ h₄
  rw [ht, h₁, h₂, h₃, h₄]

theorem parsed_eq_some {β : Type} {flag : Bool} {value b : β} :
    parsed flag value = some b ↔ flag = true ∧ value = b := by
  cases flag <;> simp [parsed]

/-- What follows the loop accepts when every flag is set. -/
theorem gameStateResult_flags (st : GameStateLoop) :
    gameStateResult st = .ok st.unpackRes ∧ st.isFTickParsed = true ∧ (∀ i, st.posParsed i = true) ∨
      (∃ msg, gameStateResult st = fail msg) ∧
        ¬ (st.isFTickParsed = true ∧ ∀ i, st.posParsed i = true) := by
  obtain ⟨gs, f₀, f₁, f₂, f₃, f₄⟩ := st
  by_cases hall : f₀ = true ∧ f₁ = true ∧ f₂ = true ∧ f₃ = true ∧ f₄ = true
  · obtain ⟨rfl, rfl, rfl, rfl, rfl⟩ := hall
    refine .inl ⟨rfl, rfl, fun i => ?_⟩
    match i with
    | 0 | 1 | 2 | 3 => rfl
  · refine .inr ⟨?_, fun h => hall ⟨h.1, h.2 0, h.2 1, h.2 2, h.2 3⟩⟩
    unfold gameStateResult
    split_ifs with h₀ h₁ h₂ h₃ h₄
    · exact ⟨_, rfl⟩
    · exact ⟨_, rfl⟩
    · exact ⟨_, rfl⟩
    · exact ⟨_, rfl⟩
    · exact ⟨_, rfl⟩
    · simp only [Bool.not_eq_true', Bool.not_eq_false] at h₀ h₁ h₂ h₃ h₄
      exact absurd ⟨h₀, h₁, h₂, h₃, h₄⟩ hall

theorem gameStateResult_eq_ok {st : GameStateLoop} {gs : GameState} :
    gameStateResult st = .ok gs ↔ parsed st.isFTickParsed st.unpackRes.tick = some gs.tick ∧
      ∀ i, parsed (st.posParsed i) (st.unpackRes.pos i) = some (gs.pos i) := by
  simp only [parsed_eq_some]
  rcases gameStateResult_flags st with ⟨hok, ht, hpos⟩ | ⟨⟨msg, hmsg⟩, hflags⟩
  · rw [hok]
    constructor
    · intro h
      cases h
      exact ⟨⟨ht, rfl⟩, fun i => ⟨hpos i, rfl⟩⟩
    · rintro ⟨⟨-, htick⟩, hall⟩
      rw [GameState.ext_pos htick fun i => (hall i).2]
  · rw [hmsg]
    constructor
    · intro h
      exact absurd h (by simp [fail])
    · rintro ⟨⟨ht, -⟩, hall⟩
      exact absurd ⟨ht, fun i => (hall i).1⟩ hflags

/-- **When a game state is accepted**: every position in it decodes and each field has an entry;
then each field comes from its last one. -/
theorem unpackGameState_eq_ok {data : Bytes} {kvs : List (Object × Object)} {gs : GameState}
    (h : mp.unpackNext data = .success (.map kvs)) :
    ifbTryUnpackGameState mp rd (some data) = .ok gs ↔
      (∀ kv ∈ kvs, Accepted mp rd kv) ∧
      (∃ n, lastNatural (cStr "tick") kvs = some n ∧ gs.tick = UInt32.ofNat n) ∧
      ∀ i, lastMatch (fieldAt (hasKey (posName i)) (posOf mp rd)) kvs = some (gs.pos i) := by
  have hfold : ∀ st', kvs.foldlM (gameStateEntry mp rd) .init = .ok st' ↔
      (∀ kv ∈ kvs, Accepted mp rd kv) ∧ st' = kvs.foldl (gameStateWrite mp rd) .init :=
    fun _ => foldlM_eq_ok (gameStateEntry mp rd) (gameStateWrite mp rd) (Accepted mp rd)
      (fun st _ hc => gameStateEntry_accepted mp rd st hc)
      fun st _ hc => gameStateEntry_refused mp rd st hc
  have htick := foldl_lastMatch_unwritten (gameStateWrite mp rd)
    (fun st => parsed st.isFTickParsed st.unpackRes.tick) _ (gameStateWrite_tick mp rd) kvs
    .init rfl
  have hpos := fun i => foldl_lastMatch_unwritten (gameStateWrite mp rd)
    (fun st => parsed (st.posParsed i) (st.unpackRes.pos i)) _ (gameStateWrite_pos mp rd i) kvs
    .init (by match i with | 0 | 1 | 2 | 3 => rfl)
  rw [lastMatch_value] at htick
  simp only [ifbTryUnpackGameState, h]
  constructor
  · intro hok
    obtain ⟨st', hst, hres⟩ := bind_ok hok
    obtain ⟨hall, rfl⟩ := (hfold st').mp hst
    obtain ⟨ht, hp⟩ := gameStateResult_eq_ok.mp hres
    rw [htick] at ht
    obtain ⟨n, hn, htn⟩ := Option.map_eq_some_iff.mp ht
    exact ⟨hall, ⟨n, hn, htn.symm⟩, fun i => (hpos i).symm.trans (hp i)⟩
  · rintro ⟨hall, ⟨n, hn, htn⟩, hp⟩
    rw [(hfold _).mpr ⟨hall, rfl⟩, ok_bind]
    refine gameStateResult_eq_ok.mpr ⟨?_, fun i => (hpos i).trans (hp i)⟩
    rw [htick, htn]
    exact Option.map_eq_some_iff.mpr ⟨n, hn, rfl⟩

end MasterRelay.Protocol
