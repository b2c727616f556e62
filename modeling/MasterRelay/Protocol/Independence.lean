import MasterRelay.Protocol.KeyReads

/-!
# What a decoded game state does not depend on

`ifb_try_unpack_player_pos` compares nine bytes of every key, so on a shorter key it reads the input
behind the key, and past the input. A comparison only matters where the value is a boolean, and
there the byte behind the key is `0xc2` or `0xc3`, which no letter of `is_exists` is: the comparison
fails as it would inside a longer key (`compare_isExists`).

So on a position whose keys are non-empty strings and whose coordinates are integers (`plainPos`),
the loop is the fold over `playerPosStep`, and neither the memory behind the input nor stale bytes
are in the result (`unpackGameState_independent`).
-/

namespace MasterRelay.Protocol

open MasterRelay.Lib.MsgPack

/-- The value is an integer. -/
def isInteger : Object → Bool
  | .positiveInteger _ => true
  | .negativeInteger _ => true
  | _ => false

/-- A non-empty string key, with an integer under it when it starts with `x` or `y`. -/
def plainEntry (kv : Object × Object) : Bool :=
  match kv.1 with
  | .str k => decide (k.bytes ≠ []) &&
      (!(keyStarts (cStr "x") kv.1 || keyStarts (cStr "y") kv.1) || isInteger kv.2)
  | _ => false

/-- A position all of whose entries are plain. -/
def plainPos : Object → Bool
  | .map kvs => kvs.all plainEntry
  | _ => true

/-- **Every position of the payload is plain.** -/
def plainPositions (mp : Msgpack) (payload : Bytes) : Bool :=
  match mp.unpackNext payload with
  | .success (.map kvs) => kvs.all fun kv => !isPosKey kv.1 || plainPos kv.2
  | _ => true

/-- The entries were read from one buffer, so a string key is followed by its value. -/
def Contiguous (kvs : List (Object × Object)) : Prop :=
  ∀ s v, (Object.str s, v) ∈ kvs → ∃ d k os r, Parses d (k + 1) s.after (v :: os) r

theorem Contiguous.tail {kv : Object × Object} {kvs : List (Object × Object)}
    (h : Contiguous (kv :: kvs)) : Contiguous kvs :=
  fun s v hm => h s v (List.mem_cons_of_mem _ hm)

/-- A comparison that reaches a byte the literal does not contain fails. -/
theorem memEq_boundary (past : Nat → UInt8) {c : UInt8} {tl : Bytes} :
    ∀ {mem lit : Bytes}, mem.length < lit.length → c ∉ lit → memEq (mem ++ c :: tl) past lit = false
  | _, [], hlen, _ => absurd hlen (by simp)
  | [], l :: lit, _, hc => by
    have hne : (l == c) = false := beq_eq_false_iff_ne.mpr fun e => hc (e ▸ List.mem_cons_self)
    simp only [List.nil_append, memEq, hne, Bool.false_and]
  | m :: mem, l :: lit, hlen, hc => by
    simp only [List.cons_append, memEq]
    rw [memEq_boundary past (by simpa using hlen) fun h => hc (List.mem_cons_of_mem _ h),
      Bool.and_false]

theorem keyStarts_short {lit : Bytes} {k : Slice} (h : k.bytes.length < lit.length) :
    keyStarts lit (.str k) = false := by
  rw [keyStarts, Bool.eq_false_iff]
  intro hp
  exact absurd (List.isPrefixOf_iff_prefix.mp hp).length_le (by omega)

variable (past : Nat → UInt8) (stale : Object → Int)

/-- **A key over a boolean is only compared with its own bytes**, however short it is. -/
theorem compare_isExists {k : Slice} {b : Bool}
    (h : ∃ d n os r, Parses d (n + 1) k.after (.boolean b :: os) r) :
    (Reader.buffer past stale).compare (.str k) (cStr "is_exists") =
      .ok (keyStarts (cStr "is_exists") (.str k)) := by
  by_cases hlen : (cStr "is_exists").length ≤ k.bytes.length
  · exact compare_inside _ hlen
  · obtain ⟨d, n, os, r, hp⟩ := h
    obtain ⟨c, tl, hafter, hc⟩ := parses_boolean hp
    have hmem : c ∉ cStr "is_exists" := by
      have hascii : ∀ x ∈ cStr "is_exists", x.toNat < 0x80 := by decide +kernel
      intro hm
      have := hascii c hm
      omega
    rw [keyStarts_short (by omega)]
    simp only [Reader.compare, Reader.buffer, Slice.mem, hafter,
      memEq_boundary past (Nat.lt_of_not_le hlen) hmem]

/-- A non-empty key decides a comparison of one byte. -/
theorem compare_letter (rd : Reader) {k : Slice} (h : k.bytes ≠ []) (lit : Bytes)
    (hlit : lit.length = 1) :
    rd.compare (.str k) lit = .ok (keyStarts lit (.str k)) := by
  have := List.length_pos_iff.mpr h
  exact compare_inside rd (by omega)

/-- **The loop body of `ifb_try_unpack_player_pos` on a plain entry** is `playerPosStep`. -/
theorem playerPosEntry_plain (st : PlayerPosLoop) {kv : Object × Object}
    (hplain : plainEntry kv = true) (hc : ∀ s, kv.1 = .str s →
      ∃ d n os r, Parses d (n + 1) s.after (kv.2 :: os) r) :
    playerPosEntry (.buffer past stale) st kv = .ok (playerPosStep (.buffer past stale) st kv) := by
  obtain ⟨k, v⟩ := kv
  cases k with
  | str k =>
    have hne : k.bytes ≠ [] := by
      simp only [plainEntry, Bool.and_eq_true] at hplain
      exact of_decide_eq_true hplain.1
    have hx := compare_letter (.buffer past stale) hne (cStr "x") rfl
    have hy := compare_letter (.buffer past stale) hne (cStr "y") rfl
    cases v with
    | boolean b =>
      simp only [playerPosEntry, compare_isExists past stale (hc k rfl), hx, hy, ok_bind]
      rfl
    | _ =>
      -- what the first comparison finds is not used
      have hcmp : ∃ b, (Reader.buffer past stale).compare (.str k) (cStr "is_exists") = .ok b :=
        ⟨_, rfl⟩
      obtain ⟨b, hb⟩ := hcmp
      simp only [playerPosEntry, hb, hx, hy, ok_bind, playerPosStep]
      cases b <;> cases keyStarts (cStr "is_exists") (.str k) <;> rfl
  | _ => exact absurd hplain (by simp [plainEntry])

/-- Integers are read without stale bytes. -/
theorem viaI64_integer (rd rd' : Reader) {v : Object} (h : isInteger v = true) :
    rd.viaI64 v = rd'.viaI64 v := by
  cases v with
  | positiveInteger n => rw [viaI64_positiveInteger, viaI64_positiveInteger]
  | negativeInteger i => rw [viaI64_negativeInteger, viaI64_negativeInteger]
  | _ => exact absurd h (by simp [isInteger])

theorem playerPosStep_plain (rd rd' : Reader) (st : PlayerPosLoop) {kv : Object × Object}
    (h : plainEntry kv = true) : playerPosStep rd st kv = playerPosStep rd' st kv := by
  obtain ⟨k, v⟩ := kv
  cases k with
  | str k =>
    simp only [plainEntry, Bool.and_eq_true, Bool.or_eq_true, Bool.not_eq_true'] at h
    rcases h.2 with hletters | hint
    · -- no coordinate is written
      have hl := Bool.or_eq_false_iff.mp hletters
      simp only [playerPosStep, hl.1, hl.2, Bool.false_eq_true, if_false]
    · simp only [playerPosStep, viaI64_integer rd rd' hint]
  | _ => exact absurd h (by simp [plainEntry])

variable (past' : Nat → UInt8) (stale' : Object → Int)

theorem playerPosFold_independent : ∀ (kvs : List (Object × Object)) (st : PlayerPosLoop),
    kvs.all plainEntry = true → Contiguous kvs →
      kvs.foldlM (playerPosEntry (.buffer past stale)) st =
        kvs.foldlM (playerPosEntry (.buffer past' stale')) st
  | [], _, _, _ => by rw [List.foldlM_nil, List.foldlM_nil]
  | kv :: kvs, st, h, hc => by
    simp only [List.all_cons, Bool.and_eq_true] at h
    have hkv : ∀ s, kv.1 = .str s → ∃ d n os r, Parses d (n + 1) s.after (kv.2 :: os) r :=
      fun s hs => hc s kv.2 (by rw [← hs]; exact List.mem_cons_self)
    rw [List.foldlM_cons, List.foldlM_cons, playerPosEntry_plain past stale st h.1 hkv,
      playerPosEntry_plain past' stale' st h.1 hkv, ok_bind, ok_bind,
      playerPosStep_plain (.buffer past stale) (.buffer past' stale') st h.1]
    exact playerPosFold_independent kvs _ h.2 hc.tail

theorem unpackPlayerPos_independent (mp : Msgpack) (out : PlayerPos) {v : Object}
    (hplain : plainPos v = true) (hc : ∀ kvs, v = .map kvs → Contiguous kvs) :
    ifbTryUnpackPlayerPos mp (.buffer past stale) out v =
      ifbTryUnpackPlayerPos mp (.buffer past' stale') out v := by
  cases v with
  | map kvs =>
    simp only [ifbTryUnpackPlayerPos]
    rw [playerPosFold_independent past stale past' stale' kvs _ hplain (hc kvs rfl)]
  | _ => rfl

theorem gameStateEntry_independent (mp : Msgpack) (st : GameStateLoop) {k v : Object}
    (h : isPosKey k = true → plainPos v = true ∧ ∀ es, v = .map es → Contiguous es) :
    gameStateEntry mp (.buffer past stale) st (k, v) =
      gameStateEntry mp (.buffer past' stale') st (k, v) := by
  rcases rootKey_cases k with ⟨s, i, rfl, hi⟩ | ⟨-, ⟨s, rfl, hs⟩ | hother⟩
  · obtain ⟨hp, hc⟩ := h (decide_eq_true ⟨i, hi⟩)
    rw [gameStateEntry_pos mp _ hi, gameStateEntry_pos mp _ hi,
      unpackPlayerPos_independent past stale past' stale' mp _ hp hc]
  · rw [gameStateEntry_tick mp _ hs, gameStateEntry_tick mp _ hs]
  · rw [gameStateEntry_other mp _ hother, gameStateEntry_other mp _ hother]

/-- The entries of the root, where positions are plain and read from one buffer. -/
theorem gameStateFold_independent (mp : Msgpack) {kvs : List (Object × Object)}
    (h : ∀ k v, (k, v) ∈ kvs → isPosKey k = true →
      plainPos v = true ∧ ∀ es, v = .map es → Contiguous es) (st : GameStateLoop) :
    kvs.foldlM (gameStateEntry mp (.buffer past stale)) st =
      kvs.foldlM (gameStateEntry mp (.buffer past' stale')) st := by
  induction kvs generalizing st with
  | nil => rw [List.foldlM_nil, List.foldlM_nil]
  | cons kv kvs ih =>
    rw [List.foldlM_cons, List.foldlM_cons, gameStateEntry_independent past stale past' stale' mp st
      (h kv.1 kv.2 List.mem_cons_self)]
    exact bind_congr fun st' => ih (fun k v hm => h k v (List.mem_cons_of_mem _ hm)) st'

/-- The entries of a map inside an unpacked map were read from one buffer. -/
theorem contiguous_of_unpacked {mp : Msgpack} (hmp : mp.Lawful) {payload : Bytes}
    {kvs : List (Object × Object)} (h : mp.unpackNext payload = .success (.map kvs)) {k : Object}
    {es : List (Object × Object)} (hm : (k, Object.map es) ∈ kvs) : Contiguous es := by
  obtain ⟨rest, hp⟩ := hmp.unpackNext_sound h
  obtain ⟨d, n, r, xs, r', hkvs, hxs⟩ := parses_mem_map hp List.mem_cons_self
  obtain ⟨d', n', q, ys, q', rfl, hys⟩ := parses_mem_map hxs (mem_of_mem_pairUp (hkvs ▸ hm)).2
  exact fun s v hm' => parses_pairs hys hm'

/-- **A plain payload decodes the same in every memory.** -/
theorem unpackGameState_independent {mp : Msgpack} (hmp : mp.Lawful) {payload : Bytes}
    (hplain : plainPositions mp payload = true) :
    ifbTryUnpackGameState mp (.buffer past stale) (some payload) =
      ifbTryUnpackGameState mp (.buffer past' stale') (some payload) := by
  cases h : mp.unpackNext payload with
  | success root =>
    cases root with
    | map kvs =>
      simp only [plainPositions, h, List.all_eq_true] at hplain
      simp only [ifbTryUnpackGameState, h]
      rw [gameStateFold_independent past stale past' stale' mp]
      intro k v hm hk
      refine ⟨by simpa [hk] using hplain (k, v) hm, ?_⟩
      rintro es rfl
      exact contiguous_of_unpacked hmp h hm
    | _ => simp only [ifbTryUnpackGameState, h]
  | _ => simp only [ifbTryUnpackGameState, h]

end MasterRelay.Protocol
