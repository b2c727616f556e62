import MasterRelay.Protocol.States

/-!
# Coordinates without a type

The decoders test the type of `id`, `tick`, `is_exists` and `is_master` before they take a value.
`x` and `y` they take from whatever stands there: `(int32_t)v.via.i64` of a string, a float or nil
is the bytes the union happens to hold.

* `InputTypeChecked`, `StateTypeChecked`: a returned coordinate was supplied by an integer, and
  entries with anything else under its key were skipped.
* **`coordinates_checked_iff`**: this holds exactly where the payload is not accepted anyway, or the
  last entries under `x` and `y` hold integers.
* `coordinates_notChecked`: a string under `x` is accepted.
-/

namespace MasterRelay.Protocol

open MasterRelay.Lib.LastMatch
open MasterRelay.Lib.MsgPack

/-- The entries of the first object of a payload, when it is a map. -/
def rootEntries (mp : Msgpack) (payload : Option Bytes) : List (Object × Object) :=
  match mp.unpackNext (payload.getD []) with
  | .success (.map kvs) => kvs
  | _ => []

/-- The same memory, with other stale bytes behind values that are no integers. -/
def Reader.withStale (rd : Reader) (stale : Object → Int) : Reader := { rd with stale := stale }

/-- An integer supplied the returned coordinate, the last one there is. -/
def CoordinateChecked (supplied : Option Object) (lastInteger : Option Int) (returned : Int32) :
    Prop :=
  (∃ v, supplied = some v ∧ isInteger v = true) ∧
    ∃ i, lastInteger = some i ∧ returned = Int32.ofInt i

/-- **The coordinates `ifb_try_unpack_player_input` returns are type-checked**, whatever the stale
bytes are. -/
def InputTypeChecked (mp : Msgpack) (rd : Reader) (payload : Option Bytes) : Prop :=
  ∀ stale pi, ifbTryUnpackPlayerInput mp (rd.withStale stale) payload = .ok pi →
    ∀ kvs, kvs = rootEntries mp payload →
      CoordinateChecked (lastValue (cStr "x") kvs)
        (lastMatch (fieldAt (hasKey (cStr "x")) integer?) kvs) pi.x ∧
      CoordinateChecked (lastValue (cStr "y") kvs)
        (lastMatch (fieldAt (hasKey (cStr "y")) integer?) kvs) pi.y

/-- **The coordinates `ifb_try_unpack_game_state` returns are type-checked**: each position comes
from the last map under its key. -/
def StateTypeChecked (mp : Msgpack) (rd : Reader) (payload : Option Bytes) : Prop :=
  ∀ stale gs, ifbTryUnpackGameState mp (rd.withStale stale) payload = .ok gs →
    ∀ i es, lastValue (posName i) (rootEntries mp payload) = some (.map es) →
      CoordinateChecked (lastCoordinate rd (cStr "x") es)
        (lastMatch (fieldAt (rd.finds (cStr "x")) integer?) es) (gs.pos i).x ∧
      CoordinateChecked (lastCoordinate rd (cStr "y") es)
        (lastMatch (fieldAt (rd.finds (cStr "y")) integer?) es) (gs.pos i).y

/-! ## The condition -/

/-- What is selected is an integer, when something is. -/
def IntegerIfAny (v : Option Object) : Prop := ∀ o, v = some o → isInteger o = true

/-- A player input has an entry for each field. -/
def CompleteInput (kvs : List (Object × Object)) : Prop :=
  (∃ k n, (Object.str k, Object.positiveInteger n) ∈ kvs ∧ k.bytes = cStr "id") ∧
    (∃ k v, (Object.str k, v) ∈ kvs ∧ k.bytes = cStr "x") ∧
    ∃ k v, (Object.str k, v) ∈ kvs ∧ k.bytes = cStr "y"

/-- A position whose keys can be compared, with an entry found for each field. -/
def CompletePos (rd : Reader) (v : Object) : Prop :=
  ∃ es, v = .map es ∧ (∀ kv ∈ es, rd.Comparable kv.1) ∧
    (∃ k b, (k, Object.boolean b) ∈ es ∧ rd.finds (cStr "is_exists") k = true) ∧
    (∃ k v, (k, v) ∈ es ∧ rd.finds (cStr "x") k = true) ∧
    ∃ k v, (k, v) ∈ es ∧ rd.finds (cStr "y") k = true

/-- A game state has an entry for each field, and every position in it is complete. -/
def CompleteState (rd : Reader) (kvs : List (Object × Object)) : Prop :=
  (∀ kv ∈ kvs, isPosKey kv.1 = true → CompletePos rd kv.2) ∧
    (∃ k n, (Object.str k, Object.positiveInteger n) ∈ kvs ∧ k.bytes = cStr "tick") ∧
    ∀ i, ∃ k v, (Object.str k, v) ∈ kvs ∧ k.bytes = posName i

/-- **The player inputs whose coordinates are integers**: where every field is there, the last
entries under `x` and `y` hold integers. -/
def InputIntegers (mp : Msgpack) (payload : Option Bytes) : Prop :=
  CompleteInput (rootEntries mp payload) →
    IntegerIfAny (lastValue (cStr "x") (rootEntries mp payload)) ∧
      IntegerIfAny (lastValue (cStr "y") (rootEntries mp payload))

/-- **The game states whose coordinates are integers**: where every field is there, the last entries
found to be `x` and `y` in the last map under each position key hold integers. -/
def StateIntegers (mp : Msgpack) (rd : Reader) (payload : Option Bytes) : Prop :=
  payload ≠ none → CompleteState rd (rootEntries mp payload) →
    ∀ i es, lastValue (posName i) (rootEntries mp payload) = some (.map es) →
      IntegerIfAny (lastCoordinate rd (cStr "x") es) ∧
        IntegerIfAny (lastCoordinate rd (cStr "y") es)

/-! ## Accepted payloads -/

variable {mp : Msgpack} {rd : Reader} {payload : Option Bytes}

theorem rootEntries_map (payload : Option Bytes) {kvs : List (Object × Object)}
    (h : mp.unpackNext (payload.getD []) = .success (.map kvs)) :
    rootEntries mp payload = kvs := by
  unfold rootEntries
  rw [h]

/-- Only a map is accepted. -/
theorem playerInput_map {pi : PlayerInput} (h : ifbTryUnpackPlayerInput mp rd payload = .ok pi) :
    mp.unpackNext (payload.getD []) = .success (.map (rootEntries mp payload)) := by
  cases hroot : mp.unpackNext (payload.getD []) with
  | success root =>
    cases root with
    | map kvs => rw [rootEntries_map _ hroot]
    | _ => exact absurd h (by simp [ifbTryUnpackPlayerInput, hroot, fail])
  | _ => exact absurd h (by simp [ifbTryUnpackPlayerInput, hroot, fail])

theorem gameState_map {gs : GameState} (h : ifbTryUnpackGameState mp rd payload = .ok gs) :
    ∃ data, payload = some data ∧
      mp.unpackNext data = .success (.map (rootEntries mp payload)) := by
  cases payload with
  | none => exact absurd h (by simp [ifbTryUnpackGameState, fail])
  | some data =>
    refine ⟨data, rfl, ?_⟩
    cases hroot : mp.unpackNext data with
    | success root =>
      cases root with
      | map kvs => rw [rootEntries_map (some data) hroot]
      | _ => exact absurd h (by simp [ifbTryUnpackGameState, hroot, fail])
    | _ => exact absurd h (by simp [ifbTryUnpackGameState, hroot, fail])

/-- A payload with an entry somewhere in its root unpacks to a map. -/
theorem unpackNext_of_mem {kv : Object × Object} (h : kv ∈ rootEntries mp payload) :
    mp.unpackNext (payload.getD []) = .success (.map (rootEntries mp payload)) := by
  unfold rootEntries at h ⊢
  split at h
  · assumption
  · exact absurd h List.not_mem_nil

theorem completeInput_iff {kvs : List (Object × Object)} :
    CompleteInput kvs ↔ (∃ n, lastNatural (cStr "id") kvs = some n) ∧
      (∃ v, lastValue (cStr "x") kvs = some v) ∧ ∃ v, lastValue (cStr "y") kvs = some v := by
  rw [lastNatural_isSome, lastValue_isSome, lastValue_isSome]
  exact Iff.rfl

theorem lastExists_isSome {es : List (Object × Object)} :
    (∃ b, lastExists rd es = some b) ↔
      ∃ k b, (k, Object.boolean b) ∈ es ∧ rd.finds (cStr "is_exists") k = true := by
  rw [lastExists, lastMatch_isSome]
  constructor
  · rintro ⟨⟨k, v⟩, hmem, b, hf⟩
    obtain ⟨hkey, hread⟩ := fieldAt_eq_some.mp hf
    obtain rfl := boolean?_eq_some.mp hread
    exact ⟨k, b, hmem, hkey⟩
  · rintro ⟨k, b, hmem, hkey⟩
    exact ⟨_, hmem, b, fieldAt_eq_some.mpr ⟨hkey, rfl⟩⟩

theorem lastCoordinate_isSome {es : List (Object × Object)} {name : Bytes} :
    (∃ v, lastCoordinate rd name es = some v) ↔
      ∃ k v, (k, v) ∈ es ∧ rd.finds name k = true := by
  rw [lastCoordinate, lastMatch_isSome]
  constructor
  · rintro ⟨⟨k, v⟩, hmem, b, hf⟩
    exact ⟨k, v, hmem, (fieldAt_eq_some.mp hf).1⟩
  · rintro ⟨k, v, hmem, hkey⟩
    exact ⟨_, hmem, v, fieldAt_eq_some.mpr ⟨hkey, rfl⟩⟩

/-- The complete positions are the ones that are accepted. -/
theorem completePos_iff {v : Object} (out : PlayerPos) :
    CompletePos rd v ↔ ∃ p, ifbTryUnpackPlayerPos mp rd out v = .ok p := by
  constructor
  · rintro ⟨es, rfl, hc, he, hx, hy⟩
    obtain ⟨b, hb⟩ := lastExists_isSome.mpr he
    obtain ⟨x, hx⟩ := lastCoordinate_isSome.mpr hx
    obtain ⟨y, hy⟩ := lastCoordinate_isSome.mpr hy
    exact ⟨⟨b, _, _⟩, (unpackPlayerPos_eq_ok mp rd).mpr ⟨es, x, y, rfl, hc, hb, hx, hy, rfl, rfl⟩⟩
  · rintro ⟨p, hp⟩
    obtain ⟨es, x, y, rfl, hc, hb, hx, hy, -, -⟩ := (unpackPlayerPos_eq_ok mp rd).mp hp
    exact ⟨es, rfl, hc, lastExists_isSome.mp ⟨_, hb⟩, lastCoordinate_isSome.mp ⟨x, hx⟩,
      lastCoordinate_isSome.mp ⟨y, hy⟩⟩

/-- Where every position under the key decodes, the last one is what is selected. -/
theorem lastPos_of_lastValue {kvs : List (Object × Object)} {i : Fin 4} {v : Object}
    {p : PlayerPos} (h : lastValue (posName i) kvs = some v)
    (hp : ifbTryUnpackPlayerPos mp rd .zero v = .ok p) :
    lastMatch (fieldAt (hasKey (posName i)) (posOf mp rd)) kvs = some p := by
  have hbind := lastMatch_bind (g := posOf mp rd) h (c := p) (by rw [posOf, hp]; rfl)
  rw [← hbind]
  refine lastMatch_congr fun kv _ => ?_
  unfold fieldAt
  cases hasKey (posName i) kv.1 <;> rfl

theorem isPosKey_iff {k : Object} : isPosKey k = true ↔ ∃ i, hasKey (posName i) k = true := by
  cases k with
  | str s =>
    rw [isPosKey, decide_eq_true_eq]
    exact exists_congr fun i => by rw [hasKey, decide_eq_true_eq]
  | _ =>
    refine ⟨fun h => absurd h (by simp [isPosKey]), ?_⟩
    rintro ⟨i, h⟩
    exact absurd h (by simp [hasKey])

/-- **The complete game states are the ones that are accepted.** -/
theorem completeState_iff {data : Bytes} {kvs : List (Object × Object)}
    (h : mp.unpackNext data = .success (.map kvs)) :
    CompleteState rd kvs ↔ ∃ gs, ifbTryUnpackGameState mp rd (some data) = .ok gs := by
  constructor
  · rintro ⟨hall, htick, hpos⟩
    obtain ⟨n, hn⟩ := lastNatural_isSome.mpr htick
    have hlast : ∀ i, ∃ p, lastMatch (fieldAt (hasKey (posName i)) (posOf mp rd)) kvs = some p := by
      intro i
      obtain ⟨v, hv⟩ := lastValue_isSome.mpr (hpos i)
      obtain ⟨kv, hmem, hf⟩ := lastMatch_mem hv
      obtain ⟨hkey, hread⟩ := fieldAt_eq_some.mp hf
      cases hread
      obtain ⟨p, hp⟩ := (completePos_iff .zero).mp (hall kv hmem (isPosKey_iff.mpr ⟨i, hkey⟩))
      exact ⟨p, lastPos_of_lastValue hv hp⟩
    obtain ⟨p₁, h₁⟩ := hlast 0
    obtain ⟨p₂, h₂⟩ := hlast 1
    obtain ⟨p₃, h₃⟩ := hlast 2
    obtain ⟨p₄, h₄⟩ := hlast 3
    refine ⟨⟨UInt32.ofNat n, p₁, p₂, p₃, p₄⟩, (unpackGameState_eq_ok mp rd h).mpr
      ⟨fun kv hmem hkey => (completePos_iff .zero).mp (hall kv hmem hkey), ⟨n, hn, rfl⟩,
        fun i => ?_⟩⟩
    match i with
    | 0 => exact h₁
    | 1 => exact h₂
    | 2 => exact h₃
    | 3 => exact h₄
  · rintro ⟨gs, hgs⟩
    obtain ⟨hall, ⟨n, hn, -⟩, hpos⟩ := (unpackGameState_eq_ok mp rd h).mp hgs
    refine ⟨fun kv hmem hkey => (completePos_iff .zero).mpr (hall kv hmem hkey),
      lastNatural_isSome.mp ⟨n, hn⟩, fun i => ?_⟩
    obtain ⟨k, v, p, hmem, hk, -⟩ := lastField_isSome.mp ⟨_, hpos i⟩
    exact ⟨k, v, hmem, hk⟩

/-! ## The exact condition -/

/-- An integer that is selected last is the last integer. -/
theorem coordinateChecked {key : Object → Bool} {kvs : List (Object × Object)} {v : Object}
    (h : lastMatch (fieldAt key some) kvs = some v) (hint : isInteger v = true) (rd : Reader) :
    CoordinateChecked (some v) (lastMatch (fieldAt key integer?) kvs)
      (Int32.ofInt (rd.viaI64 v)) := by
  have hsome : ∃ i, integer? v = some i := by
    cases v with
    | positiveInteger n => exact ⟨n, rfl⟩
    | negativeInteger i => exact ⟨i, rfl⟩
    | _ => exact absurd hint (by simp [isInteger])
  obtain ⟨i, hi⟩ := hsome
  refine ⟨⟨v, rfl, hint⟩, i, ?_, ?_⟩
  · rw [← lastMatch_bind h hi]
    refine lastMatch_congr fun kv _ => ?_
    unfold fieldAt
    cases key kv.1 <;> rfl
  · rw [← Int32.toInt_inj, ofInt_viaI64_integer rd hi, Int32.toInt_ofInt]
    rfl

/-- Of an accepted game state, each position is what the last map under its key decodes to. -/
theorem gameState_pos {data : Bytes} {kvs : List (Object × Object)} {gs : GameState}
    (h : mp.unpackNext data = .success (.map kvs))
    (hgs : ifbTryUnpackGameState mp rd (some data) = .ok gs) (i : Fin 4) {v : Object}
    (hv : lastValue (posName i) kvs = some v) : ∃ es x y, v = .map es ∧
      lastExists rd es = some (gs.pos i).isExists ∧
      lastCoordinate rd (cStr "x") es = some x ∧ lastCoordinate rd (cStr "y") es = some y ∧
      (gs.pos i).x = Int32.ofInt (rd.viaI64 x) ∧ (gs.pos i).y = Int32.ofInt (rd.viaI64 y) := by
  obtain ⟨hall, -, hpos⟩ := (unpackGameState_eq_ok mp rd h).mp hgs
  obtain ⟨kv, hmem, hf⟩ := lastMatch_mem hv
  obtain ⟨hkey, hread⟩ := fieldAt_eq_some.mp hf
  cases hread
  obtain ⟨p, hp⟩ := hall kv hmem (isPosKey_iff.mpr ⟨i, hkey⟩)
  obtain rfl : p = gs.pos i :=
    Option.some.inj ((lastPos_of_lastValue hv hp).symm.trans (hpos i))
  obtain ⟨es, x, y, hes, -, he, hx, hy, hpx, hpy⟩ := (unpackPlayerPos_eq_ok mp rd).mp hp
  exact ⟨es, x, y, hes, he, hx, hy, hpx, hpy⟩

theorem inputTypeChecked_iff : InputTypeChecked mp rd payload ↔ InputIntegers mp payload := by
  constructor
  · intro h hcomplete
    obtain ⟨⟨n, hn⟩, ⟨x, hx⟩, ⟨y, hy⟩⟩ := completeInput_iff.mp hcomplete
    obtain ⟨k, m, hmem, -⟩ := hcomplete.1
    have hok : ∃ pi, ifbTryUnpackPlayerInput mp (rd.withStale fun _ => 0) payload = .ok pi := by
      rw [unpackPlayerInput_selection _ payload (unpackNext_of_mem hmem)]
      exact ⟨_, playerInputSelection_eq_ok.mpr ⟨n, x, y, hn, hx, hy, rfl⟩⟩
    obtain ⟨pi, hpi⟩ := hok
    obtain ⟨⟨⟨x', hx', hxint⟩, -⟩, ⟨y', hy', hyint⟩, -⟩ := h _ pi hpi _ rfl
    constructor
    · intro o ho
      exact Option.some.inj (ho.symm.trans hx') ▸ hxint
    · intro o ho
      exact Option.some.inj (ho.symm.trans hy') ▸ hyint
  · rintro h stale pi hpi kvs rfl
    have hmap := playerInput_map hpi
    rw [unpackPlayerInput_selection _ payload hmap] at hpi
    obtain ⟨n, x, y, hn, hx, hy, rfl⟩ := playerInputSelection_eq_ok.mp hpi
    obtain ⟨hxint, hyint⟩ := h (completeInput_iff.mpr ⟨⟨n, hn⟩, ⟨x, hx⟩, ⟨y, hy⟩⟩)
    rw [hx, hy]
    exact ⟨coordinateChecked hx (hxint x hx) _, coordinateChecked hy (hyint y hy) _⟩

theorem stateTypeChecked_iff : StateTypeChecked mp rd payload ↔ StateIntegers mp rd payload := by
  constructor
  · intro h hne hcomplete i es hes
    obtain ⟨data, rfl⟩ := Option.ne_none_iff_exists'.mp hne
    obtain ⟨k, m, hmem, -⟩ := hcomplete.2.1
    have hmap := unpackNext_of_mem hmem
    -- the stale bytes do not decide what is accepted
    have hcomplete' : CompleteState (rd.withStale fun _ => 0) (rootEntries mp (some data)) :=
      hcomplete
    obtain ⟨gs, hgs⟩ := (completeState_iff hmap).mp hcomplete'
    obtain ⟨⟨⟨x, hx, hxint⟩, -⟩, ⟨y, hy, hyint⟩, -⟩ := h _ gs hgs i es hes
    constructor
    · intro o ho
      exact Option.some.inj (ho.symm.trans hx) ▸ hxint
    · intro o ho
      exact Option.some.inj (ho.symm.trans hy) ▸ hyint
  · intro h stale gs hgs i es hes
    obtain ⟨data, rfl, hmap⟩ := gameState_map hgs
    have hcomplete : CompleteState (rd.withStale stale) (rootEntries mp (some data)) :=
      (completeState_iff hmap).mpr ⟨gs, hgs⟩
    obtain ⟨hxint, hyint⟩ := h (by simp) hcomplete i es hes
    obtain ⟨es', x, y, heq, -, hx, hy, hpx, hpy⟩ := gameState_pos hmap hgs i hes
    cases heq
    have hx' : lastCoordinate rd (cStr "x") es = some x := hx
    have hy' : lastCoordinate rd (cStr "y") es = some y := hy
    rw [hx', hy', hpx, hpy]
    exact ⟨coordinateChecked hx' (hxint x hx') _, coordinateChecked hy' (hyint y hy') _⟩

/-- **Where coordinates are type-checked**: exactly on the payloads that are not accepted anyway, or
whose coordinates are supplied by integers. -/
theorem coordinates_checked_iff (mp : Msgpack) (rd : Reader) (payload : Option Bytes) :
    (InputTypeChecked mp rd payload ↔ InputIntegers mp payload) ∧
      (StateTypeChecked mp rd payload ↔ StateIntegers mp rd payload) :=
  ⟨inputTypeChecked_iff, stateTypeChecked_iff⟩

/-- `{"id": 1, "x": "up", "y": nil}`. -/
def untypedInput : Bytes :=
  [0x83, 0xa2, 0x69, 0x64, 0x01, 0xa1, 0x78, 0xa2, 0x75, 0x70, 0xa1, 0x79, 0xc0]

/-- A string and nil are accepted as coordinates, and the slave moves by whatever is there. -/
theorem coordinates_notChecked :
    ifbTryUnpackPlayerInput reference (.buffer (fun _ => 0) fun _ => 5) (some untypedInput) =
      .ok ⟨1, 5, 5⟩ ∧
    ¬ InputTypeChecked reference (.buffer (fun _ => 0) fun _ => 0) (some untypedInput) := by
  refine ⟨by decide +kernel, fun h => ?_⟩
  obtain ⟨⟨⟨v, hv, hint⟩, -⟩, -⟩ := h (fun _ => 5) ⟨1, 5, 5⟩ (by decide +kernel) _ rfl
  have hany : (lastValue (cStr "x") (rootEntries reference (some untypedInput))).any isInteger =
      false := by decide +kernel
  rw [hv] at hany
  exact absurd (hint.symm.trans hany) (by simp)

end MasterRelay.Protocol
