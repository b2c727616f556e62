import MasterRelay.Server.Pointers

/-!
# The registry with its pointers

* **`pointers_refine`**: while the place of `p` reads as no player, the server with its pointers is
  `server`.
* **`records_leak`**: a copy for every registration, all of them live for ever.
* `pointers_occupied`: when the place of `p` reads as a player, nobody is registered.
-/

namespace MasterRelay.Server

open MasterRelay.Lib.Blocks
open MasterRelay.Lib.MsgPack
open MasterRelay.Lib.Runs
open MasterRelay.Protocol

variable {A P : Type} [DecidableEq A] [DecidableEq P] {m m' : Pointers A P} {t t' : Table P}

/-! ## The two servers -/

/-- What an event is to the server of tables; a change on the stack is nothing. -/
def tableEvent : PointerEvent A P → Option (Event P)
  | .connect peer => some (.connect peer)
  | .receive env copy peer data =>
    some (.receive { env with mallocPlayer := copy.isSome } peer data)
  | .disconnect peer => some (.disconnect peer)
  | .overwrite _ => none

/-- `malloc` gives an address that is not live. -/
def FreshCopy (m : Pointers A P) (e : PointerEvent A P) : Prop :=
  ∀ env a peer data, e = .receive env (some a) peer data → m.heap a = none

/-- The place of `p` is not used for what reads as a player. -/
def StaysVacant (e : PointerEvent A P) : Prop :=
  ∀ p, e = .overwrite p → p.isExists = false

/-- Both fault, or both go on with the same outputs and agree again. -/
def SameStep (r : Option (Pointers A P × List (Output P)))
    (r' : Option (Table P × List (Output P))) : Prop :=
  (r = none ∧ r' = none) ∨ ∃ m' t' out, r = some (m', out) ∧ r' = some (t', out) ∧ Agrees m' t'

theorem register_same (h : Agrees m t) {mp : Msgpack} {env : Env P} {copy : Option A} {peer : P}
    (hfresh : ∀ a, copy = some a → m.heap a = none) :
    SameStep (m.handlePlayerRegister mp env copy peer)
      (handlePlayerRegister mp { env with mallocPlayer := copy.isSome } t peer) := by
  have hactive : m.isPlayerActive peer = some (isPlayerActive t peer) := by
    rw [Pointers.isPlayerActive, first_eq h (looks_isPlayerActive peer)]
    rfl
  unfold Pointers.handlePlayerRegister handlePlayerRegister
  rw [hactive, getActivePlayersCount_eq h]
  cases isPlayerActive t peer with
  | true => exact .inr ⟨m, t, [], rfl, rfl, h⟩
  | false =>
    dsimp only
    unfold Pointers.tryRegisterPlayer tryRegisterPlayer
    rw [first_eq h looks_free]
    cases firstSlot freeTest t with
    | none => exact .inr ⟨m, t, [], rfl, rfl, h⟩
    | some i =>
      cases copy with
      | none => exact .inl ⟨rfl, rfl⟩
      | some a =>
        have hagrees := agrees_register h (i := i)
          (p := newPlayer peer (getActivePlayersCount t == 0)) (hfresh a rfl)
        refine .inr ⟨_, _, announce mp env _ peer i (getActivePlayersCount t == 0), ?_, rfl,
          hagrees⟩
        simp only [Option.map_some, malloc_fresh _ (hfresh a rfl), announce_eq hagrees]

/-- **A packet does to the pointers what it does to the table.** -/
theorem receive_same (h : Agrees m t) {mp : Msgpack} {env : Env P} {copy : Option A} {peer : P}
    {data : Bytes} (hfresh : ∀ a, copy = some a → m.heap a = none) :
    SameStep (m.onReceive mp env copy peer data)
      (onReceive mp { env with mallocPlayer := copy.isSome } t peer data) := by
  unfold Pointers.onReceive onReceive
  rw [first_eq h (looks_getPlayerByPeer peer)]
  cases ifbPtclTryParseMessageByType data with
  | error e => exact .inr ⟨m, t, [], rfl, rfl, h⟩
  | ok msg =>
    obtain ⟨type, payload⟩ := msg
    cases type with
    | none => exact .inr ⟨m, t, [], rfl, rfl, h⟩
    | resUserInfo => exact .inr ⟨m, t, [], rfl, rfl, h⟩
    | slaveConnected => exact .inr ⟨m, t, [], rfl, rfl, h⟩
    | reqUserInfo => exact register_same h hfresh
    | gameStateUpd =>
      dsimp only
      cases ifbTryUnpackGameState mp env.reader payload with
      | error e =>
        cases e with
        | err msg => exact .inr ⟨m, t, [], rfl, rfl, h⟩
        | fault => exact .inl ⟨rfl, rfl⟩
      | ok gs =>
        have hsame : handleGameStateUpdatedByMaster mp
            { env with mallocPlayer := copy.isSome } gs =
              handleGameStateUpdatedByMaster mp env gs := rfl
        dsimp only
        rw [hsame]
        cases handleGameStateUpdatedByMaster mp env gs with
        | none => exact .inl ⟨rfl, rfl⟩
        | some out => exact .inr ⟨m, t, out, rfl, rfl, h⟩
    | playerInput =>
      dsimp only
      rw [tryGetMasterClient_eq h]
      cases hmaster : tryGetMasterClient t with
      | error e => exact .inr ⟨m, t, [], rfl, rfl, h⟩
      | ok master =>
        obtain ⟨p, hread, hpeer⟩ := master_read h hmaster
        have hsame : ifbTryRelayPacket { env with mallocPlayer := copy.isSome } data
            (t master).peer .streamPuppetInputs false false =
              ifbTryRelayPacket env data (t master).peer .streamPuppetInputs false false := rfl
        simp only [hread, hpeer, hsame]
        cases ifbTryRelayPacket env data (t master).peer .streamPuppetInputs false false with
        | error e =>
          cases e with
          | err msg => exact .inr ⟨m, t, [], rfl, rfl, h⟩
          | fault => exact .inl ⟨rfl, rfl⟩
        | ok o => exact .inr ⟨m, t, [o], rfl, rfl, h⟩

/-- So does a disconnect. -/
theorem disconnect_same (h : Agrees m t) (mp : Msgpack) (peer : P) :
    SameStep ((pointerServer mp).step m (.disconnect peer))
      ((server mp).step t (.disconnect peer)) := by
  simp only [pointerServer, pointerStep, server, serverStep, Pointers.tryRemovePlayer,
    tryRemovePlayer, first_eq h (looks_remove peer)]
  cases hi : firstSlot (removeTest peer) t with
  | none => exact .inr ⟨m, t, [], rfl, rfl, h⟩
  | some i =>
    obtain ⟨p, hread, hp⟩ := h.reads i
    have hexists : p.isExists = true := by
      have htest := (firstSlot_some hi).1
      rw [removeTest, Bool.and_eq_true] at htest
      rw [hp.1]
      exact htest.1
    obtain ⟨m', hwrite, hagrees⟩ := agrees_remove h hread hexists
      (show ({ p with peer := none, isExists := false } : ActivePlayer P).isExists = false from rfl)
    simp only [hread, hwrite, Option.map_some]
    exact .inr ⟨m', _, [], rfl, rfl, hagrees⟩

/-- The steps of the server with its pointers. -/
abbrev PointerMove (A P : Type) : Type :=
  Step (Pointers A P) (PointerEvent A P) (Output P)

variable {mp : Msgpack} {tr : List (PointerMove A P)}

/-- An event does to the pointers what it does to the table. -/
theorem pointer_same (h : Agrees m t) {e : PointerEvent A P} {e' : Event P}
    (hfresh : FreshCopy m e) (he : tableEvent e = some e') :
    SameStep ((pointerServer mp).step m e) ((server mp).step t e') := by
  cases e with
  | connect peer =>
    cases he
    exact .inr ⟨m, t, [], rfl, rfl, h⟩
  | receive env copy peer data =>
    cases he
    exact receive_same h fun a ha => hfresh env a peer data (by rw [ha])
  | disconnect peer =>
    cases he
    exact disconnect_same h mp peer
  | overwrite p => cases he

/-- **The server with its pointers is `server`**, as long as the place of `p` reads as no player. In
every run from the start in which `malloc` gives addresses that are not live: the outputs are those
of a run of `server` at the same events, no copy is in two slots, and an event faults exactly where
it faults there. -/
theorem pointers_refine (hr : Run (pointerServer mp) .init tr m)
    (hfresh : ∀ x ∈ tr, FreshCopy x.pre x.event) (hvacant : ∀ x ∈ tr, StaysVacant x.event) :
    ∃ tu t, Run (server mp) initTable tu t ∧
      tu.map Step.event = tr.filterMap (fun x => tableEvent x.event) ∧ outputs tu = outputs tr ∧
      Agrees m t ∧ ∀ e e', FreshCopy m e → tableEvent e = some e' →
        ((pointerServer mp).step m e = none ↔ (server mp).step t e' = none) := by
  have hrun : ∃ tu t, Run (server mp) initTable tu t ∧
      tu.map Step.event = tr.filterMap (fun x => tableEvent x.event) ∧ outputs tu = outputs tr ∧
      Agrees m t := by
    refine hr.trace (I := fun tr m => (∀ x ∈ tr, FreshCopy x.pre x.event ∧ StaysVacant x.event) →
      ∃ tu t, Run (server mp) initTable tu t ∧
        tu.map Step.event = tr.filterMap (fun x => tableEvent x.event) ∧
        outputs tu = outputs tr ∧ Agrees m t) ?_ (fun _ => ⟨[], initTable, Run.nil _, rfl, rfl,
          agrees_init⟩) fun x hx => ⟨hfresh x hx, hvacant x hx⟩
    intro tr m e m' out ih hs hall
    obtain ⟨tu, t, hru, hevents, houts, h⟩ := ih fun x hx => hall x (List.mem_append_left _ hx)
    obtain ⟨hfresh, hvacant⟩ := hall _ (List.mem_append_right _ List.mem_cons_self)
    have houtputs : outputs (tr ++ [⟨m, e, out, m'⟩]) = outputs tr ++ out := by
      rw [outputs, outputs, List.flatMap_append, List.flatMap_singleton]
    rw [houtputs, List.filterMap_append]
    cases he : tableEvent e with
    | none =>
      cases e with
      | connect peer => cases he
      | receive env copy peer data => cases he
      | disconnect peer => cases he
      | overwrite p =>
        cases hs
        refine ⟨tu, t, hru, ?_, ?_, fun i => ?_, hvacant p rfl, h.distinct⟩
        · rw [hevents]
          exact (List.append_nil _).symm
        · rw [houts]
          exact (List.append_nil _).symm
        · obtain ⟨q, hread, hq⟩ := h.reads i
          unfold Pointers.read at hread ⊢
          cases hi : m.activePlayers i with
          | some a =>
            rw [hi] at hread
            exact ⟨q, hread, hq⟩
          | none =>
            rw [hi] at hread
            cases hread
            refine ⟨p, rfl, ?_, fun hp => ?_⟩
            · rw [hvacant p rfl, ← hq.1, h.vacant]
            · exact absurd (hvacant p rfl) (by simp [hp])
    | some e' =>
      rcases pointer_same h hfresh he with ⟨hnone, -⟩ | ⟨m₁, t', out', hs', hst, h'⟩
      · cases hnone.symm.trans hs
      · cases hs'.symm.trans hs
        refine ⟨_, t', hru.append (Run.single hst), ?_, ?_, h'⟩
        · rw [List.map_append, hevents, List.filterMap_cons, he]
          rfl
        · rw [outputs, List.flatMap_append, List.flatMap_singleton, ← houts]
          rfl
  obtain ⟨tu, t, hru, hevents, houts, h⟩ := hrun
  refine ⟨tu, t, hru, hevents, houts, h, fun e e' hfr he => ?_⟩
  rcases pointer_same h hfr he with ⟨hnone, hnone'⟩ | ⟨m', t', out, hs, hs', -⟩
  · exact iff_of_true hnone hnone'
  · rw [hs, hs']
    exact iff_of_false (by simp) (by simp)

/-- A player comes, another one comes, and the first one goes and comes back; in between the place
of `p` is used for something else. -/
def comesBack : List (PointerEvent Nat Nat) :=
  [.connect 1, .receive .ideal (some 1) 1 (frame .reqUserInfo none), .connect 2,
    .receive .ideal (some 2) 2 (frame .reqUserInfo none), .overwrite ⟨5, some 7, false, true, true⟩,
    .disconnect 1, .connect 1, .receive .ideal (some 3) 1 (frame .reqUserInfo none)]

/-- A copy is fresh, and the place of `p` stays vacant. -/
def wellPlaced (x : PointerMove Nat Nat) : Bool :=
  match x.event with
  | .connect _ => true
  | .receive _ none _ _ => true
  | .receive _ (some a) _ _ => (x.pre.heap a).isNone
  | .disconnect _ => true
  | .overwrite p => !p.isExists

/-- The answers are those of `server`. -/
theorem pointers_refine_comesBack : ∃ tr, ∃ m : Pointers Nat Nat,
    Run (pointerServer reference) .init tr m ∧ (outputs tr).length = 4 ∧
    ∃ tu t, Run (server reference) initTable tu t ∧ outputs tu = outputs tr := by
  obtain ⟨tr, m, hr, -, hQ⟩ := run_of_exec (pointerServer reference) (.init : Pointers Nat Nat)
    comesBack (fun tr _ => decide ((outputs tr).length = 4) && tr.all wellPlaced)
    (by decide +kernel)
  rw [Bool.and_eq_true, decide_eq_true_eq, List.all_eq_true] at hQ
  obtain ⟨hsent, hall⟩ := hQ
  have hfresh : ∀ x ∈ tr, FreshCopy x.pre x.event := by
    intro x hx env a peer data he
    have hx' := hall x hx
    rw [wellPlaced, he] at hx'
    exact Option.isNone_iff_eq_none.mp hx'
  have hvacant : ∀ x ∈ tr, StaysVacant x.event := by
    intro x hx p he
    have hx' := hall x hx
    rw [wellPlaced, he] at hx'
    simpa using hx'
  obtain ⟨tu, t, hru, -, houts, -⟩ := pointers_refine hr hfresh hvacant
  exact ⟨tr, m, hr, hsent, tu, t, hru, houts⟩

/-! ## What is never freed -/

omit [DecidableEq P] in
theorem write_live {i : Slot} {p : ActivePlayer P} (h : m.write i p = some m') :
    m'.activePlayers = m.activePlayers ∧ ∀ a, (m'.heap a).isSome = (m.heap a).isSome := by
  unfold Pointers.write at h
  split at h
  · cases h
    exact ⟨rfl, fun a => rfl⟩
  · rename_i b hb
    split_ifs at h with hlive
    cases h
    refine ⟨rfl, fun a => ?_⟩
    by_cases ha : a = b
    · subst ha
      simp [hlive]
    · exact congrArg Option.isSome (Function.update_of_ne ha ..)

omit [DecidableEq P] in
/-- A registration is a new copy in one slot. -/
theorem tryRegister_copy {copy : Option A} {player : ActivePlayer P} {i : Slot}
    (h : m.tryRegisterPlayer copy player = some (.ok (m', i))) :
    ∃ a, malloc m.heap a player = some m'.heap ∧
      m'.activePlayers = Function.update m.activePlayers i (some a) := by
  unfold Pointers.tryRegisterPlayer at h
  split at h
  · cases h
  · cases h
  · split at h
    · cases h
    · rename_i a
      obtain ⟨heap, hm, heq⟩ := Option.map_eq_some_iff.mp h
      cases heq
      exact ⟨a, hm, rfl⟩

/-- **All a packet can do to the pointers**: a registration; what is sent otherwise is a game state
or a player input. -/
theorem pointer_receive_cases {env : Env P} {copy : Option A} {peer : P} {data : Bytes}
    {out : List (Output P)} (h : m.onReceive mp env copy peer data = some (m', out)) :
    (m' = m ∧ ∀ q d reliable forced, .send q .critical d reliable forced ∉ out) ∨
      ∃ player i, m.tryRegisterPlayer copy player = some (.ok (m', i)) := by
  have hnone : m' = m → out = [] →
      (m' = m ∧ ∀ q d reliable forced, .send q .critical d reliable forced ∉ out) ∨
      ∃ player i, m.tryRegisterPlayer copy player = some (.ok (m', i)) := by
    rintro rfl rfl
    exact .inl ⟨rfl, fun _ _ _ _ => List.not_mem_nil⟩
  unfold Pointers.onReceive at h
  split at h
  · cases h
    exact hnone rfl rfl
  · split at h
    · cases h
    · split at h
      · unfold Pointers.handlePlayerRegister at h
        split at h
        · cases h
          exact hnone rfl rfl
        · split at h
          · cases h
          · cases h
            exact hnone rfl rfl
          · rename_i m₁ i hregister
            obtain ⟨out', -, heq⟩ := Option.map_eq_some_iff.mp h
            cases heq
            exact .inr ⟨_, i, hregister⟩
        · cases h
      · split at h
        · cases h
        · cases h
          exact hnone rfl rfl
        · obtain ⟨out', hout, heq⟩ := Option.map_eq_some_iff.mp h
          cases heq
          refine .inl ⟨rfl, fun q d reliable forced hmem => ?_⟩
          rcases handleGameState_cases hout with rfl | rfl
          · exact absurd hmem List.not_mem_nil
          · cases List.mem_singleton.mp hmem
      · split at h
        · cases h
        · cases h
          exact hnone rfl rfl
        · split at h
          · cases h
          · split at h
            · cases h
            · cases h
              exact hnone rfl rfl
            · rename_i o hrelay
              cases h
              refine .inl ⟨rfl, fun q d reliable forced hmem => ?_⟩
              obtain ⟨p, -, rfl⟩ := tryRelay_eq_ok hrelay
              cases List.mem_singleton.mp hmem
      all_goals
        cases h
        exact hnone rfl rfl

/-- A disconnect sends nothing, and makes no copy. -/
theorem disconnect_slots {peer : P} {out : List (Output P)}
    (hs : (pointerServer mp).step m (.disconnect peer) = some (m', out)) :
    out = [] ∧ m'.activePlayers = m.activePlayers ∧
      ∀ a, (m'.heap a).isSome = (m.heap a).isSome := by
  simp only [pointerServer, pointerStep, Pointers.tryRemovePlayer] at hs
  split at hs
  · cases hs
  · rename_i m₁ hremove
    cases hs
    split at hremove
    · cases hremove
    · cases hremove
    · split at hremove
      · cases hremove
      · obtain ⟨m₂, hwrite, heq⟩ := Option.map_eq_some_iff.mp hremove
        cases heq
        exact ⟨rfl, write_live hwrite⟩
  · cases hs
    exact ⟨rfl, rfl, fun _ => rfl⟩

/-- **All a step does to the heap**: it writes to what is live, or makes a copy for one slot. -/
theorem heap_step {e : PointerEvent A P} {out : List (Output P)}
    (hs : (pointerServer mp).step m e = some (m', out)) :
    (m'.activePlayers = m.activePlayers ∧ ∀ a, (m'.heap a).isSome = (m.heap a).isSome) ∨
      ∃ a p i, malloc m.heap a p = some m'.heap ∧
        m'.activePlayers = Function.update m.activePlayers i (some a) := by
  cases e with
  | connect peer =>
    cases hs
    exact .inl ⟨rfl, fun _ => rfl⟩
  | overwrite p =>
    cases hs
    exact .inl ⟨rfl, fun _ => rfl⟩
  | disconnect peer => exact .inl (disconnect_slots hs).2
  | receive env copy peer data =>
    rcases pointer_receive_cases hs with ⟨rfl, -⟩ | ⟨player, i, hregister⟩
    · exact .inl ⟨rfl, fun _ => rfl⟩
    · obtain ⟨a, hm, hslots⟩ := tryRegister_copy hregister
      exact .inr ⟨a, player, i, hm, hslots⟩

/-- The step registers a player: a slot gets another pointer. -/
def Registers (x : PointerMove A P) : Bool :=
  decide (∃ i, x.post.activePlayers i ≠ x.pre.activePlayers i)

/-- **Every registration leaks a record.** In every run from the start, whatever is on the stack:
there is a live copy for each registration there has been, and all of them but ten at the most are
in no slot. -/
theorem records_leak (hr : Run (pointerServer mp) .init tr m) :
    ∃ copies, Owned m.heap copies ∧ copies.length = tr.countP Registers ∧
      tr.countP Registers ≤
        (copies.filter fun a => decide (∀ i, m.activePlayers i ≠ some a)).length +
          activePlayersSize := by
  have hrun : ∃ copies, Owned m.heap copies ∧ copies.length = tr.countP Registers ∧
      ∀ i a, m.activePlayers i = some a → a ∈ copies := by
    refine hr.trace (I := fun tr m => ∃ copies, Owned m.heap copies ∧
      copies.length = tr.countP Registers ∧ ∀ i a, m.activePlayers i = some a → a ∈ copies) ?_ ?_
    · rintro tr m e m' out ⟨copies, ho, hcount, hslots⟩ hs
      rw [List.countP_append]
      rcases heap_step hs with ⟨hsame, hlive⟩ | ⟨a, p, i, hm, hslot⟩
      · refine ⟨copies, ⟨ho.nodup, fun a => by rw [hlive, ho.live]⟩, ?_, fun i a hi => ?_⟩
        · rw [hcount, List.countP_cons_of_neg (by simp [Registers, hsame])]
          rfl
        · exact hslots i a (by rwa [← hsame])
      · obtain ⟨ho', -, -⟩ := ho.malloc hm
        have hnew : m.activePlayers i ≠ some a := fun hi =>
          (List.nodup_cons.mp ho'.nodup).1 (hslots i a hi)
        have hregisters : Registers ⟨m, e, out, m'⟩ = true := by
          refine decide_eq_true ⟨i, fun hsame => hnew ?_⟩
          rw [← hsame, hslot, Function.update_self]
        refine ⟨a :: copies, ho', ?_, fun j b hj => ?_⟩
        · rw [List.length_cons, hcount, List.countP_cons_of_pos hregisters]
          rfl
        · rw [hslot] at hj
          by_cases hji : j = i
          · rw [hji, Function.update_self] at hj
            exact List.mem_cons.mpr (.inl (Option.some.inj hj).symm)
          · rw [Function.update_of_ne hji] at hj
            exact List.mem_cons_of_mem _ (hslots j b hj)
    · exact ⟨[], owned_empty, rfl, fun i a hi => absurd hi (by simp [Pointers.init])⟩
  obtain ⟨copies, ho, hcount, -⟩ := hrun
  refine ⟨copies, ho, hcount, ?_⟩
  -- what is in a slot is at most one copy for each of the ten
  have hkept : (copies.filter fun a => !decide (∀ i, m.activePlayers i ≠ some a)).length ≤
      activePlayersSize := by
    have hsub : ((copies.filter fun a => !decide (∀ i, m.activePlayers i ≠ some a)).map some) ⊆
        (List.finRange activePlayersSize).map m.activePlayers := by
      intro o ho
      obtain ⟨a, ha, rfl⟩ := List.mem_map.mp ho
      obtain ⟨-, hslot⟩ := List.mem_filter.mp ha
      simp only [Bool.not_eq_true', decide_eq_false_iff_not, not_forall, not_not] at hslot
      obtain ⟨i, hi⟩ := hslot
      exact List.mem_map.mpr ⟨i, List.mem_finRange i, hi⟩
    have hnodup := (ho.nodup.filter fun a => !decide (∀ i, m.activePlayers i ≠ some a)).map
      (Option.some_injective A)
    have hle := (List.subperm_of_subset hnodup hsub).length_le
    rwa [List.length_map, List.length_map, List.length_finRange] at hle
  have hsplit := List.length_eq_length_filter_add (l := copies)
    fun a => decide (∀ i, m.activePlayers i ≠ some a)
  omega

/-- Three copies, for two players. -/
theorem records_leak_comesBack : ∃ tr, ∃ m : Pointers Nat Nat,
    Run (pointerServer reference) .init tr m ∧ tr.countP Registers = 3 ∧
    ∃ copies, Owned m.heap copies ∧ copies.length = 3 := by
  obtain ⟨tr, m, hr, -, hQ⟩ := run_of_exec (pointerServer reference) (.init : Pointers Nat Nat)
    comesBack (fun tr _ => decide (tr.countP Registers = 3)) (by decide +kernel)
  have hcount := of_decide_eq_true hQ
  obtain ⟨copies, ho, hlength, -⟩ := records_leak hr
  exact ⟨tr, m, hr, hcount, copies, ho, hlength.trans hcount⟩

/-! ## The place of `p` is used again -/

omit [DecidableEq A] [DecidableEq P] in
/-- With a player where `p` was, no slot is free that has no copy of its own. -/
theorem search_occupied (hnone : ∀ i, m.activePlayers i = none)
    (hocc : isPlayerExistsAndConnected m.stack = true) (slots : List Slot) :
    m.search freeTest slots = some none := by
  induction slots with
  | nil => rfl
  | cons i slots ih =>
    have hread : m.read i = some m.stack := by
      rw [Pointers.read, hnone i]
    have hfree : freeTest m.stack = false := by
      rw [freeTest, hocc]
      rfl
    rw [Pointers.search, hread]
    dsimp only
    rw [hfree]
    exact ih

/-- **A server whose stack reads as a player registers nobody.** In every run from a state in which
nobody has been registered, in which the place of `p` reads as a connected player at every step: no
slot gets a player, and nothing is sent on the critical channel, to anybody. -/
theorem pointers_occupied {m₀ : Pointers A P} (hr : Run (pointerServer mp) m₀ tr m)
    (hnone : ∀ i, m₀.activePlayers i = none)
    (hocc : ∀ x ∈ tr, isPlayerExistsAndConnected x.pre.stack = true) :
    (∀ i, m.activePlayers i = none) ∧
      ∀ x ∈ tr, ∀ q d reliable forced, .send q .critical d reliable forced ∉ x.out := by
  have hstep : ∀ (m : Pointers A P) e m' out, (∀ i, m.activePlayers i = none) →
      isPlayerExistsAndConnected m.stack = true →
      (pointerServer mp).step m e = some (m', out) → (∀ i, m'.activePlayers i = none) ∧
        ∀ q d reliable forced, .send q .critical d reliable forced ∉ out := by
    intro m e m' out hnone hocc hs
    cases e with
    | connect peer =>
      cases hs
      exact ⟨hnone, fun _ _ _ _ => List.not_mem_nil⟩
    | overwrite p =>
      cases hs
      exact ⟨hnone, fun _ _ _ _ => List.not_mem_nil⟩
    | disconnect peer =>
      obtain ⟨rfl, hslots, -⟩ := disconnect_slots hs
      rw [hslots]
      exact ⟨hnone, fun _ _ _ _ => List.not_mem_nil⟩
    | receive env copy peer data =>
      rcases pointer_receive_cases hs with ⟨rfl, hout⟩ | ⟨player, i, hregister⟩
      · exact ⟨hnone, hout⟩
      · rw [Pointers.tryRegisterPlayer, Pointers.first, search_occupied hnone hocc] at hregister
        cases hregister
  have hrun : ∀ {tr : List (PointerMove A P)} {m}, Run (pointerServer mp) m₀ tr m →
      (∀ x ∈ tr, isPlayerExistsAndConnected x.pre.stack = true) →
      ∀ i, m.activePlayers i = none := fun hr hocc =>
    hr.invariantWhere (I := fun m => ∀ i, m.activePlayers i = none)
      (P := fun x => isPlayerExistsAndConnected x.pre.stack = true)
      (fun m e m' out hnone hocc hs => (hstep m e m' out hnone hocc hs).1) hocc hnone
  refine ⟨hrun hr hocc, fun x hx => ?_⟩
  obtain ⟨hs, t₁, t₂, rfl, hr₁, -⟩ := hr.mem hx
  have hpre := hrun hr₁ fun y hy => hocc y (List.mem_append_left _ hy)
  exact (hstep x.pre x.event x.post x.out hpre (hocc x hx) hs).2

/-- Two peers ask, and hear nothing. -/
theorem pointers_occupied_twoPeers : ∃ tr, ∃ m : Pointers Nat Nat,
    Run (pointerServer reference)
      { Pointers.init with stack := ⟨9, some 7, true, true, false⟩ } tr m ∧
    tr.length = 2 ∧ (∀ i, m.activePlayers i = none) ∧
    ∀ x ∈ tr, ∀ q d reliable forced, .send q .critical d reliable forced ∉ x.out := by
  obtain ⟨tr, m, hr, -, hQ⟩ := run_of_exec (pointerServer reference)
    ({ Pointers.init with stack := ⟨9, some 7, true, true, false⟩ } : Pointers Nat Nat)
    [.receive .ideal (some 1) 1 (frame .reqUserInfo none),
      .receive .ideal (some 2) 2 (frame .reqUserInfo none)]
    (fun tr _ => decide (tr.length = 2) && tr.all fun x => isPlayerExistsAndConnected x.pre.stack)
    (by decide +kernel)
  rw [Bool.and_eq_true, decide_eq_true_eq, List.all_eq_true] at hQ
  exact ⟨tr, m, hr, hQ.1, pointers_occupied hr (fun _ => rfl) hQ.2⟩

end MasterRelay.Server
