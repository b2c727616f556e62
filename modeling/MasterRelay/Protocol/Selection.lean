import MasterRelay.Lib.MsgPack.Content
import MasterRelay.Protocol.Fields

/-!
# Which entries count

The selections of the flat decoders, against the same entries in another buffer, in another order
or among other entries.

* `lastField_perm`: where the keys are pairwise distinct the order of the entries does not count.
* `userInfoSelection_filter`, `playerInputFields_filter`: what is not selected from is ignored.
* **`flatDecoders_select`**: when the two decoders succeed, what they return, and what they ignore.
-/

namespace MasterRelay.Protocol

open MasterRelay.Lib.LastMatch
open MasterRelay.Lib.MsgPack

variable {β : Type} {name : Bytes} {kvs : List (Object × Object)}

/-! ## The same entries elsewhere -/

theorem hasKey_content (name : Bytes) (o : Object) : hasKey name o.content = hasKey name o := by
  cases o <;> simp only [Object.content, hasKey, Slice.content]

theorem natural?_content (o : Object) : natural? o.content = natural? o := by
  cases o <;> simp only [Object.content, natural?]

theorem boolean?_content (o : Object) : boolean? o.content = boolean? o := by
  cases o <;> simp only [Object.content, boolean?]

theorem lastNatural_content (name : Bytes) (kvs : List (Object × Object)) :
    lastNatural name (kvs.map entryContent) = lastNatural name kvs := by
  unfold lastNatural
  rw [lastMatch_map]
  refine lastMatch_congr fun kv _ => ?_
  simp only [fieldAt, entryContent, hasKey_content, natural?_content]

theorem lastBoolean_content (name : Bytes) (kvs : List (Object × Object)) :
    lastBoolean name (kvs.map entryContent) = lastBoolean name kvs := by
  unfold lastBoolean
  rw [lastMatch_map]
  refine lastMatch_congr fun kv _ => ?_
  simp only [fieldAt, entryContent, hasKey_content, boolean?_content]

theorem lastValue_content (name : Bytes) (kvs : List (Object × Object)) :
    lastValue name (kvs.map entryContent) = (lastValue name kvs).map Object.content := by
  unfold lastValue
  rw [lastMatch_map, ← lastMatch_value]
  refine lastMatch_congr fun kv _ => ?_
  simp only [fieldAt, entryContent, hasKey_content]
  cases hasKey name kv.1 <;> rfl

/-- Two string keys of one name are the same key. -/
theorem hasKey_unique {a b : Object} (ha : hasKey name a = true) (hb : hasKey name b = true) :
    a.content = b.content := by
  obtain ⟨k, rfl, hk⟩ := hasKey_iff.mp ha
  obtain ⟨l, rfl, hl⟩ := hasKey_iff.mp hb
  simp only [Object.content, Slice.content, hk, hl]

/-- Among pairwise distinct keys at most one has the name. -/
theorem hasKey_pairwise (h : (kvs.map fun kv => kv.1.content).Nodup) (name : Bytes) :
    kvs.Pairwise fun a b => hasKey name a.1 = false ∨ hasKey name b.1 = false := by
  refine (List.pairwise_map.mp h).imp fun {a b} hne => ?_
  by_contra hboth
  rw [not_or, Bool.not_eq_false, Bool.not_eq_false] at hboth
  exact hne (hasKey_unique hboth.1 hboth.2)

/-- **Distinct keys select whatever their order.** -/
theorem lastField_perm {kvs' : List (Object × Object)} {read : Object → Option β}
    (hkeys : (kvs.map fun kv => kv.1.content).Nodup)
    (hp : (kvs.map entryContent).Perm (kvs'.map entryContent)) :
    lastMatch (fieldAt (hasKey name) read) (kvs.map entryContent) =
      lastMatch (fieldAt (hasKey name) read) (kvs'.map entryContent) := by
  refine lastMatch_perm hp (List.pairwise_map.mpr ((hasKey_pairwise hkeys name).imp ?_))
  intro a b h
  simp only [fieldAt, entryContent, hasKey_content]
  rcases h with ha | hb
  · exact .inl (by rw [ha]; rfl)
  · exact .inr (by rw [hb]; rfl)

/-- The entry is one `ifb_fun_try_unpack_user_info` selects from. -/
def userInfoField (kv : Object × Object) : Bool :=
  (fieldAt (hasKey (cStr "id")) natural? kv).isSome ||
    (fieldAt (hasKey (cStr "is_master")) boolean? kv).isSome

/-- The entry is one `ifb_try_unpack_player_input` selects from. -/
def playerInputField (kv : Object × Object) : Bool :=
  (fieldAt (hasKey (cStr "id")) natural? kv).isSome || hasKey (cStr "x") kv.1 ||
    hasKey (cStr "y") kv.1

/-- A coordinate two calls take from the same value: an integer gives the same, and so does anything
else whose stale bytes are the same. -/
def SameCoordinate (rd rd' : Reader) (v v' : Option Object) (i i' : Int32) : Prop :=
  ∃ o o', v = some o ∧ v' = some o' ∧ o'.content = o.content ∧
    (isInteger o = true ∨ rd'.viaI64 o' = rd.viaI64 o → i' = i)

/-- Two results of `ifb_try_unpack_player_input`: the same failure, or the same id and the same
coordinates. -/
def SameInput (rd rd' : Reader) (kvs kvs' : List (Object × Object)) :
    Except Stop PlayerInput → Except Stop PlayerInput → Prop
  | .ok pi, .ok pi' => pi'.id = pi.id ∧
      SameCoordinate rd rd' (lastValue (cStr "x") kvs) (lastValue (cStr "x") kvs') pi.x pi'.x ∧
      SameCoordinate rd rd' (lastValue (cStr "y") kvs) (lastValue (cStr "y") kvs') pi.y pi'.y
  | .error e, .error e' => e' = e
  | _, _ => False

/-- The content of an integer is the integer. -/
theorem viaI64_content (rd rd' : Reader) {o o' : Object} (hc : o'.content = o.content)
    (h : isInteger o = true) : rd'.viaI64 o' = rd.viaI64 o := by
  have hsame : o' = o := by
    cases o with
    | positiveInteger n => cases o' <;> simp_all [Object.content]
    | negativeInteger i => cases o' <;> simp_all [Object.content]
    | _ => exact absurd h (by simp [isInteger])
  rw [hsame, viaI64_integer rd' rd h]

theorem sameCoordinate (rd rd' : Reader) {o o' : Object} (hc : o'.content = o.content) :
    SameCoordinate rd rd' (some o) (some o') (Int32.ofInt (rd.viaI64 o))
      (Int32.ofInt (rd'.viaI64 o')) := by
  refine ⟨o, o', rfl, rfl, hc, fun h => ?_⟩
  rcases h with hint | hview
  · rw [viaI64_content rd rd' hc hint]
  · rw [hview]

variable {kvs' : List (Object × Object)}

/-- Values that are there together. -/
theorem map_content_cases {v v' : Option Object}
    (h : v'.map Object.content = v.map Object.content) :
    v = none ∧ v' = none ∨ ∃ o o', v = some o ∧ v' = some o' ∧ o'.content = o.content := by
  cases v with
  | none => exact .inl ⟨rfl, Option.map_eq_none_iff.mp h⟩
  | some o =>
    obtain ⟨o', rfl, hc⟩ := Option.map_eq_some_iff.mp h
    exact .inr ⟨o, o', rfl, rfl, hc⟩

/-- **The same fields, the same result.** -/
theorem playerInputSelection_same (rd rd' : Reader)
    (hid : lastNatural (cStr "id") kvs' = lastNatural (cStr "id") kvs)
    (hx : (lastValue (cStr "x") kvs').map Object.content =
      (lastValue (cStr "x") kvs).map Object.content)
    (hy : (lastValue (cStr "y") kvs').map Object.content =
      (lastValue (cStr "y") kvs).map Object.content) :
    SameInput rd rd' kvs kvs' (playerInputSelection rd kvs) (playerInputSelection rd' kvs') := by
  unfold playerInputSelection
  rw [hid]
  cases lastNatural (cStr "id") kvs with
  | none => rfl
  | some n =>
    rcases map_content_cases hx with ⟨hx₁, hx₂⟩ | ⟨x, x', hx₁, hx₂, hxc⟩
    · rw [hx₁, hx₂]
      rfl
    · rcases map_content_cases hy with ⟨hy₁, hy₂⟩ | ⟨y, y', hy₁, hy₂, hyc⟩
      · rw [hx₁, hx₂, hy₁, hy₂]
        rfl
      · simp only [SameInput, hx₁, hx₂, hy₁, hy₂]
        exact ⟨trivial, sameCoordinate rd rd' hxc, sameCoordinate rd rd' hyc⟩

/-- What is not selected from does not count. -/
theorem userInfoSelection_filter (kvs : List (Object × Object)) :
    userInfoSelection ((kvs.filter userInfoField).map entryContent) = userInfoSelection kvs := by
  have hid : lastNatural (cStr "id") (kvs.filter userInfoField) = lastNatural (cStr "id") kvs :=
    lastMatch_filter fun kv _ h =>
      Option.not_isSome_iff_eq_none.mp (Bool.eq_false_iff.mp (Bool.or_eq_false_iff.mp h).1)
  have hm : lastBoolean (cStr "is_master") (kvs.filter userInfoField) =
      lastBoolean (cStr "is_master") kvs :=
    lastMatch_filter fun kv _ h =>
      Option.not_isSome_iff_eq_none.mp (Bool.eq_false_iff.mp (Bool.or_eq_false_iff.mp h).2)
  unfold userInfoSelection
  rw [lastNatural_content, lastBoolean_content, hid, hm]

theorem playerInputFields_filter (kvs : List (Object × Object)) :
    lastNatural (cStr "id") (kvs.filter playerInputField) = lastNatural (cStr "id") kvs ∧
      lastValue (cStr "x") (kvs.filter playerInputField) = lastValue (cStr "x") kvs ∧
      lastValue (cStr "y") (kvs.filter playerInputField) = lastValue (cStr "y") kvs := by
  have hsplit : ∀ kv, playerInputField kv = false →
      fieldAt (hasKey (cStr "id")) natural? kv = none ∧
        hasKey (cStr "x") kv.1 = false ∧ hasKey (cStr "y") kv.1 = false := by
    intro kv h
    obtain ⟨hidx, hy⟩ := Bool.or_eq_false_iff.mp h
    obtain ⟨hid, hx⟩ := Bool.or_eq_false_iff.mp hidx
    exact ⟨Option.not_isSome_iff_eq_none.mp (Bool.eq_false_iff.mp hid), hx, hy⟩
  refine ⟨lastMatch_filter fun kv _ h => (hsplit kv h).1, lastMatch_filter fun kv _ h => ?_,
    lastMatch_filter fun kv _ h => ?_⟩
  · rw [fieldAt, (hsplit kv h).2.1]
    rfl
  · rw [fieldAt, (hsplit kv h).2.2]
    rfl

/-- **What the flat decoders return.** On a map, each succeeds exactly when every field has an entry
with its key (and, for `id` and `is_master`, a value of its type). It returns the last of these,
integers modulo `2^32`, and every other entry is ignored; where the keys are pairwise distinct, the
order of the entries is, too. -/
theorem flatDecoders_select (mp : Msgpack) (rd : Reader) (data : Option Bytes)
    (h : mp.unpackNext (data.getD []) = .success (.map kvs)) :
    ((∃ ui, ifbFunTryUnpackUserInfo mp rd data = .ok ui) ↔
      (∃ k n, (Object.str k, Object.positiveInteger n) ∈ kvs ∧ k.bytes = cStr "id") ∧
        ∃ k b, (Object.str k, Object.boolean b) ∈ kvs ∧ k.bytes = cStr "is_master") ∧
    (∀ ui, ifbFunTryUnpackUserInfo mp rd data = .ok ui →
      (∃ n, lastNatural (cStr "id") kvs = some n ∧ ui.id.toNat = n % 2 ^ 32) ∧
        lastBoolean (cStr "is_master") kvs = some ui.isMaster) ∧
    ((∃ pi, ifbTryUnpackPlayerInput mp rd data = .ok pi) ↔
      (∃ k n, (Object.str k, Object.positiveInteger n) ∈ kvs ∧ k.bytes = cStr "id") ∧
        (∃ k v, (Object.str k, v) ∈ kvs ∧ k.bytes = cStr "x") ∧
        ∃ k v, (Object.str k, v) ∈ kvs ∧ k.bytes = cStr "y") ∧
    (∀ pi, ifbTryUnpackPlayerInput mp rd data = .ok pi →
      (∃ n, lastNatural (cStr "id") kvs = some n ∧ pi.id.toNat = n % 2 ^ 32) ∧
      (∃ v, lastValue (cStr "x") kvs = some v ∧
        ∀ i, integer? v = some i → pi.x.toInt = i.bmod (2 ^ 32)) ∧
      ∃ v, lastValue (cStr "y") kvs = some v ∧
        ∀ i, integer? v = some i → pi.y.toInt = i.bmod (2 ^ 32)) ∧
    ∀ rd' data' kvs', mp.unpackNext (data'.getD []) = .success (.map kvs') →
      ((kvs'.filter userInfoField).map entryContent = (kvs.filter userInfoField).map entryContent →
        ifbFunTryUnpackUserInfo mp rd' data' = ifbFunTryUnpackUserInfo mp rd data) ∧
      ((kvs'.filter playerInputField).map entryContent =
          (kvs.filter playerInputField).map entryContent →
        SameInput rd rd' kvs kvs' (ifbTryUnpackPlayerInput mp rd data)
          (ifbTryUnpackPlayerInput mp rd' data')) ∧
      ((kvs.map fun kv => kv.1.content).Nodup →
        (kvs.map entryContent).Perm (kvs'.map entryContent) →
        ifbFunTryUnpackUserInfo mp rd' data' = ifbFunTryUnpackUserInfo mp rd data ∧
          SameInput rd rd' kvs kvs' (ifbTryUnpackPlayerInput mp rd data)
            (ifbTryUnpackPlayerInput mp rd' data')) := by
  rw [unpackUserInfo_selection rd data h, unpackPlayerInput_selection rd data h]
  refine ⟨?_, ?_, ?_, ?_, ?_⟩
  · rw [← lastNatural_isSome, ← lastBoolean_isSome]
    constructor
    · rintro ⟨ui, hui⟩
      obtain ⟨n, hn, -, hb⟩ := userInfoSelection_eq_ok.mp hui
      exact ⟨⟨n, hn⟩, ⟨_, hb⟩⟩
    · rintro ⟨⟨n, hn⟩, ⟨b, hb⟩⟩
      exact ⟨⟨UInt32.ofNat n, b⟩, userInfoSelection_eq_ok.mpr ⟨n, hn, rfl, hb⟩⟩
  · intro ui hui
    obtain ⟨n, hn, hid, hb⟩ := userInfoSelection_eq_ok.mp hui
    exact ⟨⟨n, hn, by rw [hid, UInt32.toNat_ofNat']⟩, hb⟩
  · rw [← lastNatural_isSome, ← lastValue_isSome, ← lastValue_isSome]
    constructor
    · rintro ⟨pi, hpi⟩
      obtain ⟨n, x, y, hn, hx, hy, -⟩ := playerInputSelection_eq_ok.mp hpi
      exact ⟨⟨n, hn⟩, ⟨x, hx⟩, ⟨y, hy⟩⟩
    · rintro ⟨⟨n, hn⟩, ⟨x, hx⟩, ⟨y, hy⟩⟩
      exact ⟨_, playerInputSelection_eq_ok.mpr ⟨n, x, y, hn, hx, hy, rfl⟩⟩
  · intro pi hpi
    obtain ⟨n, x, y, hn, hx, hy, rfl⟩ := playerInputSelection_eq_ok.mp hpi
    exact ⟨⟨n, hn, UInt32.toNat_ofNat'⟩, ⟨x, hx, fun i hi => ofInt_viaI64_integer rd hi⟩,
      ⟨y, hy, fun i hi => ofInt_viaI64_integer rd hi⟩⟩
  · intro rd' data' kvs' h'
    rw [unpackUserInfo_selection rd' data' h', unpackPlayerInput_selection rd' data' h']
    refine ⟨fun hfilter => ?_, fun hfilter => ?_, fun hkeys hperm => ⟨?_, ?_⟩⟩
    · rw [← userInfoSelection_filter kvs', hfilter, userInfoSelection_filter kvs]
    · obtain ⟨hid, hx, hy⟩ := playerInputFields_filter kvs
      obtain ⟨hid', hx', hy'⟩ := playerInputFields_filter kvs'
      refine playerInputSelection_same rd rd' ?_ ?_ ?_
      · rw [← hid', ← hid, ← lastNatural_content, hfilter, lastNatural_content]
      · rw [← hx', ← hx, ← lastValue_content, hfilter, lastValue_content]
      · rw [← hy', ← hy, ← lastValue_content, hfilter, lastValue_content]
    · unfold userInfoSelection
      rw [← lastNatural_content _ kvs, ← lastBoolean_content _ kvs, ← lastNatural_content _ kvs',
        ← lastBoolean_content _ kvs']
      unfold lastNatural lastBoolean
      rw [lastField_perm hkeys hperm, lastField_perm hkeys hperm]
    · have hnat : lastNatural (cStr "id") kvs' = lastNatural (cStr "id") kvs := by
        rw [← lastNatural_content, ← lastNatural_content _ kvs]
        exact (lastField_perm hkeys hperm).symm
      refine playerInputSelection_same rd rd' hnat ?_ ?_
      · rw [← lastValue_content, ← lastValue_content]
        exact (lastField_perm hkeys hperm).symm
      · rw [← lastValue_content, ← lastValue_content]
        exact (lastField_perm hkeys hperm).symm

/-- A payload that unpacks to a map, with what its entries pass. -/
theorem unpackNext_of_eval (mp : Msgpack) (buf : Bytes) (Q : List (Object × Object) → Bool)
    (h : (match mp.unpackNext buf with
      | .success (.map kvs) => Q kvs
      | _ => false) = true) :
    ∃ kvs, mp.unpackNext buf = .success (.map kvs) ∧ Q kvs = true := by
  split at h
  · rename_i kvs hbuf
    exact ⟨kvs, hbuf, h⟩
  · exact absurd h (by simp)

/-- `{"id": 7, "is_master": true, "x": 2, "y": nil, "x": -1, "id": 2^32 + 1, "id": -3}`. -/
def repeatedFields : Bytes :=
  [0x87, 0xa2, 0x69, 0x64, 0x07, 0xa9] ++ cStr "is_master" ++
    [0xc3, 0xa1, 0x78, 0x02, 0xa1, 0x79, 0xc0, 0xa1, 0x78, 0xff, 0xa2, 0x69, 0x64, 0xcf, 0, 0, 0, 1,
      0, 0, 0, 1, 0xa2, 0x69, 0x64, 0xfd]

/-- The last `id` that is not negative counts, and the last `x`. -/
theorem flatDecoders_select_repeatedFields : ∃ ui pi,
    ifbFunTryUnpackUserInfo reference (.strict fun _ => 0) (some repeatedFields) = .ok ui ∧
    ui.id.toNat = 1 ∧ ui.isMaster = true ∧
    ifbTryUnpackPlayerInput reference (.strict fun _ => 0) (some repeatedFields) = .ok pi ∧
    pi.id.toNat = 1 ∧ pi.x.toInt = -1 := by
  obtain ⟨kvs, h, hQ⟩ := unpackNext_of_eval reference repeatedFields
    (fun kvs => decide (lastNatural (cStr "id") kvs = some (2 ^ 32 + 1)) &&
      decide (lastBoolean (cStr "is_master") kvs = some true) &&
      decide ((lastValue (cStr "x") kvs).bind integer? = some (-1)) &&
      (lastValue (cStr "y") kvs).isSome) (by decide +kernel)
  simp only [Bool.and_eq_true, decide_eq_true_eq] at hQ
  obtain ⟨⟨⟨hid, hm⟩, hx⟩, hy⟩ := hQ
  obtain ⟨v, hv, hint⟩ := Option.bind_eq_some_iff.mp hx
  obtain ⟨w, hw⟩ := Option.isSome_iff_exists.mp hy
  obtain ⟨hui, huiEq, hpi, hpiEq, -⟩ :=
    flatDecoders_select reference (.strict fun _ => 0) (some repeatedFields) h
  obtain ⟨ui, hui⟩ := hui.mpr
    ⟨lastNatural_isSome.mp ⟨_, hid⟩, lastBoolean_isSome.mp ⟨_, hm⟩⟩
  obtain ⟨pi, hpi⟩ := hpi.mpr
    ⟨lastNatural_isSome.mp ⟨_, hid⟩, lastValue_isSome.mp ⟨_, hv⟩, lastValue_isSome.mp ⟨_, hw⟩⟩
  obtain ⟨⟨n, hn, huid⟩, hmaster⟩ := huiEq ui hui
  obtain ⟨⟨n', hn', hpid⟩, ⟨v', hv', hxv⟩, -⟩ := hpiEq pi hpi
  obtain rfl := Option.some.inj (hn.symm.trans hid)
  obtain rfl := Option.some.inj (hn'.symm.trans hid)
  obtain rfl := Option.some.inj (hv'.symm.trans hv)
  refine ⟨ui, pi, hui, huid, Option.some.inj (hmaster.symm.trans hm), hpi, hpid, ?_⟩
  rw [hxv _ hint]
  rfl

end MasterRelay.Protocol
