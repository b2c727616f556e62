import MasterRelay.Protocol.RoundTrip

/-!
# A list of positions

`ifb_try_pack_player_pos_count` over an array of any length. It prints each key into 32 bytes, and
the header of the map stands elsewhere, as a literal of its caller.

* `posKey_eq`, `posLabels_nodup`: the keys are not cut off, and no two of them are equal.
* `packPosFrom_null`: what has been written when a NULL pointer is met.
* `parses_posEntries`: the bytes are one key and one map for each position.
* **`posCount_encodes`**: all of it, for an array shorter than `2^63`.
-/

namespace MasterRelay.Protocol

open MasterRelay.Lib.MsgPack

/-! ## The keys -/

/-- The key of the position at index `i`: its 1-based number in decimal. -/
def posLabel (i : Nat) : String := "pos_" ++ toString (i + 1)

/-- The key of a `size_t` that fits a `long` is 23 characters long at most. -/
theorem posKey_eq {i : Nat} (h : i + 1 < 2 ^ 63) : posKey i = posLabel i := by
  have hdigits : (Nat.toDigits 10 (i + 1)).length ≤ 19 :=
    (Nat.length_toDigits_le_iff (by decide) (by decide)).mpr (by omega)
  have hlen : ("pos_".toList ++ Nat.toDigits 10 (i + 1)).length ≤ 31 := by
    rw [List.length_append]
    have hfour : "pos_".toList.length = 4 := rfl
    omega
  rw [posKey, List.take_of_length_le hlen, String.ofList_append, posLabel,
    Nat.toString_eq_ofList_toDigits, String.ofList_toList]

/-- The buffer of the key holds 31 characters. -/
theorem posKey_length (i : Nat) : (cStr (posKey i)).length ≤ 31 := by
  rw [cStr, List.length_map, posKey, String.toList_ofList]
  exact List.length_take_le _ _

theorem posLabel_ascii {i : Nat} {c : Char} (h : c ∈ (posLabel i).toList) : c.toNat < 256 := by
  rw [posLabel, String.toList_append, List.mem_append] at h
  rcases h with h | h
  · have hall : "pos_".toList.all (fun c => decide (c.toNat < 256)) = true := rfl
    exact of_decide_eq_true (List.all_eq_true.mp hall c h)
  · rw [Nat.toString_eq_ofList_toDigits, String.toList_ofList] at h
    have hdigit := Nat.isDigit_of_mem_toDigits (by decide) (by decide) h
    rw [Char.isDigit_iff_toNat] at hdigit
    have hnine : '9'.toNat = 57 := rfl
    omega

/-- Characters of one byte each are read back from their bytes. -/
theorem cStr_chars {s : String} (h : ∀ c ∈ s.toList, c.toNat < 256) :
    (cStr s).map (fun b => Char.ofNat b.toNat) = s.toList := by
  rw [cStr, List.map_map]
  refine (List.map_congr_left fun c hc => ?_).trans (List.map_id _)
  have hbyte : (UInt8.ofNat c.toNat).toNat = c.toNat := UInt8.toNat_ofNat_of_lt' (h c hc)
  show Char.ofNat (UInt8.ofNat c.toNat).toNat = c
  rw [hbyte, Char.ofNat_toNat]

/-- Different numbers make different labels. -/
theorem posLabel_injective {i j : Nat} (h : cStr (posLabel i) = cStr (posLabel j)) : i = j := by
  have hchars : (posLabel i).toList = (posLabel j).toList := by
    rw [← cStr_chars fun c hc => posLabel_ascii hc, h, cStr_chars fun c hc => posLabel_ascii hc]
  simp only [posLabel, String.toList_append, Nat.toString_eq_ofList_toDigits,
    String.toList_ofList] at hchars
  have hdigits := List.append_cancel_left hchars
  have hnat := congrArg (Nat.ofDigitChars 10 · 0) hdigits
  simp only [Nat.ofDigitChars_ten_toDigits] at hnat
  omega

/-- **The keys of an array are pairwise distinct.** -/
theorem posLabels_nodup (n : Nat) : ((List.range n).map fun i => cStr (posLabel i)).Nodup :=
  List.nodup_range.map fun _ _ h => posLabel_injective h

/-! ## The bytes -/

variable {mp : Msgpack}

/-- A packer whose writes all find room. -/
theorem Emits.run {m : Packer Unit} {out : Bytes} (h : Emits m out) {s : Sbuf} (hs : s.Roomy) :
    ∃ s', m s = (.ok (), s') ∧ s'.data = s.data ++ out ∧ s'.Roomy := by
  obtain ⟨s', hrun, hroom⟩ := h.roomy s hs
  exact ⟨s', hrun, h.ok s s' hrun, hroom⟩

/-- The loop over the first entries, and from there on. -/
theorem packPosFrom_append (ps : List PlayerPos) (rest : List (Option PlayerPos)) (i : Nat) :
    packPosFrom mp i (ps.map some ++ rest) =
      packPosFrom mp i (ps.map some) >>= fun _ => packPosFrom mp (i + ps.length) rest := by
  induction ps generalizing i with
  | nil => simp [packPosFrom]
  | cons p ps ih =>
    have hnext : i + 1 + ps.length = i + (p :: ps).length := by rw [List.length_cons]; omega
    simp only [List.map_cons, List.cons_append, packPosFrom, ih, bind_assoc, hnext]

/-- **At a NULL pointer the entries before it have been written.** -/
theorem packPosFrom_null (ps : List PlayerPos) (rest : List (Option PlayerPos)) (i : Nat)
    {s : Sbuf} (hs : s.Roomy) : ∃ s', packPosFrom mp i (ps.map some ++ none :: rest) s =
      (.error ("invalid ptr at index " ++ toString (i + ps.length)), s') ∧
      s'.data = s.data ++ posEntriesBytes mp i ps := by
  have hemits : Emits (packPosFrom mp i (ps.map some)) _ := emits_packPosFrom ps i
  obtain ⟨s', hrun, hdata, -⟩ := hemits.run hs
  refine ⟨s', ?_, hdata⟩
  rw [packPosFrom_append, packer_bind, hrun]
  rfl

/-- An array holds no NULL pointer, or it has a first one. -/
theorem exists_null (arr : List (Option PlayerPos)) :
    (∃ ps : List PlayerPos, arr = ps.map some) ∨
      ∃ (ps : List PlayerPos) (rest : List (Option PlayerPos)),
        arr = ps.map some ++ none :: rest := by
  induction arr with
  | nil => exact .inl ⟨[], rfl⟩
  | cons a arr ih =>
    rcases a with _ | p
    · exact .inr ⟨[], arr, rfl⟩
    · rcases ih with ⟨ps, rfl⟩ | ⟨ps, rest, rfl⟩
      · exact .inl ⟨p :: ps, rfl⟩
      · exact .inr ⟨p :: ps, rest, rfl⟩

/-! ## The entries -/

/-- `es` are the entries of the positions `ps` from index `i` on: the key is the label of the
position, and the value a map of three entries that `ifb_try_unpack_player_pos` turns back into the
position. -/
structure PosPairs (mp : Msgpack) (i : Nat) (ps : List PlayerPos)
    (es : List (Object × Object)) : Prop where
  count : es.length = ps.length
  entry : ∀ j p, ps[j]? = some p → ∃ after kvs,
    es[j]? = some (Object.str ⟨cStr (posLabel (i + j)), after⟩, Object.map kvs) ∧ kvs.length = 3 ∧
      ∀ past stale out, ifbTryUnpackPlayerPos mp (.buffer past stale) out (.map kvs) = .ok p

theorem posPairs_nil (i : Nat) : PosPairs mp i [] [] where
  count := rfl
  entry j p h := by simp at h

theorem PosPairs.cons {i : Nat} {p : PlayerPos} {ps : List PlayerPos}
    {kvs es : List (Object × Object)} (after : Bytes) (hp : PosEntries p kvs)
    (h : PosPairs mp (i + 1) ps es) :
    PosPairs mp i (p :: ps) ((Object.str ⟨cStr (posLabel i), after⟩, Object.map kvs) :: es) where
  count := by rw [List.length_cons, List.length_cons, h.count]
  entry j q hj := by
    rcases j with _ | j
    · obtain rfl : p = q := by simpa using hj
      refine ⟨after, kvs, rfl, ?_, fun past stale out => unpack_posEntries mp past stale out p hp⟩
      obtain ⟨a, b, c, rfl⟩ := hp
      rfl
    · rw [List.getElem?_cons_succ] at hj ⊢
      rw [show i + (j + 1) = i + 1 + j by omega]
      exact h.entry j q hj

/-- **The bytes of the loop are one key and one map for each position**, whatever follows them. -/
theorem parses_posEntries (hmp : mp.Lawful) (d : Nat) (r : Bytes) (ps : List PlayerPos) (i : Nat)
    (hi : i + ps.length < 2 ^ 63) : ∃ es, PosPairs mp i ps es ∧
      Parses (d + 1) (2 * ps.length) (posEntriesBytes mp i ps ++ r) (flatten es) r := by
  induction ps generalizing i with
  | nil => exact ⟨[], posPairs_nil i, .zero _ r⟩
  | cons p ps ih =>
    rw [List.length_cons] at hi
    obtain ⟨es, hes, htail⟩ := ih (i + 1) (by omega)
    obtain ⟨kvs, hkvs, hval⟩ := parses_playerPos hmp p htail
    have hlen : (cStr (posKey i)).length < 2 ^ 32 := by have := posKey_length i; omega
    have hkey := parses_str hmp (posKey i) hlen hval
    rw [posKey_eq (by omega)] at hkey
    refine ⟨_, .cons (playerPosBytes mp p ++ (posEntriesBytes mp (i + 1) ps ++ r)) hkvs hes, ?_⟩
    rw [posEntriesBytes, posKey_eq (by omega), List.length_cons, Nat.mul_succ, List.append_assoc,
      List.append_assoc]
    exact hkey

/-! ## The root map -/

/-- The tick entry of a root map, followed by the positions. -/
def rootEntriesBytes (mp : Msgpack) (tick : UInt32) (ps : List PlayerPos) : Bytes :=
  strBytes mp "tick" ++ (mp.packUint32 tick ++ posEntriesBytes mp 0 ps)

/-- **As many entries as the header says**: the tick and one for each position. -/
theorem parses_rootEntries (hmp : mp.Lawful) (d : Nat) (r : Bytes) (tick : UInt32)
    {ps : List PlayerPos} (hn : ps.length < 2 ^ 63) : ∃ after es, PosPairs mp 0 ps es ∧
      Parses (d + 1) (2 * (1 + ps.length)) (rootEntriesBytes mp tick ps ++ r)
        (flatten ((.str ⟨cStr "tick", after⟩, .positiveInteger tick.toNat) :: es)) r := by
  obtain ⟨es, hes, hp⟩ := parses_posEntries hmp d r ps 0 (by omega)
  have htick := parses_str hmp "tick" (by decide) (parses_uint32 hmp tick hp)
  refine ⟨mp.packUint32 tick ++ (posEntriesBytes mp 0 ps ++ r), es, hes, ?_⟩
  rw [rootEntriesBytes, List.append_assoc, List.append_assoc, Nat.mul_add, Nat.add_comm (2 * 1)]
  exact htick

/-- `ifb_try_pack_game_state` writes the header of four positions and a tick. -/
theorem packGameState_root (gs : GameState) {s : Sbuf} (hs : s.Roomy) : ∃ s',
    ifbTryPackGameState mp gs s = (.ok (), s') ∧ s'.data = s.data ++ (mp.packMap (1 + 4) ++
      rootEntriesBytes mp gs.tick [gs.pos1, gs.pos2, gs.pos3, gs.pos4]) := by
  obtain ⟨s', hrun, hdata, -⟩ := (emits_gameState gs).run hs
  exact ⟨s', hrun, hdata⟩

/-- **The encoder of a list of positions.** For an array of fewer than `2^63` pointers and a packer
that never fails:

* it returns true exactly when no pointer is NULL, and has appended the entries of all positions;
* at a first NULL pointer it returns false, having appended the entries of those before it;
* these entries are one pair for each position, whatever follows them;
* the keys are pairwise distinct;
* under a root header the tick and the positions are `1 + n` entries, which is what the header of a
  caller has to say, and what `ifb_try_pack_game_state` says. -/
theorem posCount_encodes (hmp : mp.Lawful) {arr : List (Option PlayerPos)}
    (hn : arr.length < 2 ^ 63) {s : Sbuf} (hs : s.Roomy) :
    ((∃ s', ifbTryPackPlayerPosCount mp arr s = (.ok (), s')) ↔ none ∉ arr) ∧
    (∀ ps : List PlayerPos, arr = ps.map some → ∃ s',
      ifbTryPackPlayerPosCount mp arr s = (.ok (), s') ∧
      s'.data = s.data ++ posEntriesBytes mp 0 ps) ∧
    (∀ (ps : List PlayerPos) rest, arr = ps.map some ++ none :: rest → ∃ s',
      ifbTryPackPlayerPosCount mp arr s =
        (.error ("invalid ptr at index " ++ toString ps.length), s') ∧
      s'.data = s.data ++ posEntriesBytes mp 0 ps) ∧
    (∀ ps : List PlayerPos, ps.length ≤ arr.length → ∀ d r, ∃ es, PosPairs mp 0 ps es ∧
      Parses (d + 1) (2 * ps.length) (posEntriesBytes mp 0 ps ++ r) (flatten es) r) ∧
    ((List.range arr.length).map fun i => cStr (posLabel i)).Nodup ∧
    (∀ ps : List PlayerPos, ps.length ≤ arr.length → ∀ d r tick, ∃ after es,
      PosPairs mp 0 ps es ∧
      Parses (d + 1) (2 * (1 + ps.length)) (rootEntriesBytes mp tick ps ++ r)
        (flatten ((.str ⟨cStr "tick", after⟩, .positiveInteger tick.toNat) :: es)) r ∧
      (1 + ps.length < 2 ^ 32 →
        Parses (d + 2) 1 (mp.packMap (1 + ps.length) ++ (rootEntriesBytes mp tick ps ++ r))
          [.map ((.str ⟨cStr "tick", after⟩, .positiveInteger tick.toNat) :: es)] r)) ∧
    (∀ gs, ∃ s', ifbTryPackGameState mp gs s = (.ok (), s') ∧
      s'.data = s.data ++ (mp.packMap (1 + 4) ++
        rootEntriesBytes mp gs.tick [gs.pos1, gs.pos2, gs.pos3, gs.pos4])) := by
  have hall : ∀ ps : List PlayerPos, ∃ s', ifbTryPackPlayerPosCount mp (ps.map some) s =
      (.ok (), s') ∧ s'.data = s.data ++ posEntriesBytes mp 0 ps := by
    intro ps
    have hemits : Emits (packPosFrom mp 0 (ps.map some)) _ := emits_packPosFrom ps 0
    obtain ⟨s', hrun, hdata, -⟩ := hemits.run hs
    exact ⟨s', hrun, hdata⟩
  have hnull : ∀ (ps : List PlayerPos) rest, ∃ s',
      ifbTryPackPlayerPosCount mp (ps.map some ++ none :: rest) s =
        (.error ("invalid ptr at index " ++ toString ps.length), s') ∧
      s'.data = s.data ++ posEntriesBytes mp 0 ps := by
    intro ps rest
    obtain ⟨s', hrun, hdata⟩ := @packPosFrom_null mp ps rest 0 s hs
    exact ⟨s', by rw [ifbTryPackPlayerPosCount, hrun, Nat.zero_add], hdata⟩
  refine ⟨?_, ?_, ?_, ?_, posLabels_nodup _, ?_, fun gs => packGameState_root gs hs⟩
  · rcases exists_null arr with ⟨ps, rfl⟩ | ⟨ps, rest, rfl⟩
    · obtain ⟨s', hrun, -⟩ := hall ps
      exact iff_of_true ⟨s', hrun⟩ (by simp)
    · obtain ⟨s', hrun, -⟩ := hnull ps rest
      have hfalse : ¬ ∃ s₁, ifbTryPackPlayerPosCount mp (ps.map some ++ none :: rest) s =
          (.ok (), s₁) := by
        rintro ⟨s₁, h⟩
        cases hrun.symm.trans h
      exact iff_of_false hfalse (by simp)
  · rintro ps rfl
    exact hall ps
  · rintro ps rest rfl
    exact hnull ps rest
  · intro ps hps d r
    exact parses_posEntries hmp d r ps 0 (by omega)
  · intro ps hps d r tick
    obtain ⟨after, es, hes, hp⟩ := @parses_rootEntries mp hmp d r tick ps (by omega)
    refine ⟨after, es, hes, hp, fun hlen => ?_⟩
    have h := Parses.map (hmp.packMap (1 + ps.length) hlen _) hp (.zero _ r)
    rwa [pairUp_flatten] at h

/-- A position, and then a NULL pointer. -/
theorem posCount_encodes_scenario : ∃ s',
    ifbTryPackPlayerPosCount reference [some ⟨true, 5, -7⟩, none] (Sbuf.init []) =
      (.error ("invalid ptr at index " ++ toString 1), s') ∧
    s'.data = (Sbuf.init []).data ++ posEntriesBytes reference 0 [⟨true, 5, -7⟩] :=
  (posCount_encodes reference_lawful (by decide) fun _ hb => absurd hb List.not_mem_nil).2.2.1
    [⟨true, 5, -7⟩] [] rfl

end MasterRelay.Protocol
