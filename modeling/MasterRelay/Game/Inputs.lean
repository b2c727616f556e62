import MasterRelay.Client.Slots
import MasterRelay.Game.World

/-!
# Whose input moves a slave

The server passes player inputs on without looking at them, and the master goes by the id in the
payload. So the last input of slave `k` on the master, and its position, depend on the packets with
its id, and on nothing else in the player inputs: but whoever sends such a packet is obeyed.

* `inputs_byId`: only a player input with the id of slave `k`, sent to the server by some peer,
  changes its last input; and two runs that differ in player inputs without that id (and in the game
  states the server passes around) give slave `k` the same inputs and the same positions.
* `otherSlave_obeyed` is a run in which the peer of slot 2 moves slave 1.
-/

namespace MasterRelay.Game

open MasterRelay.Client
open MasterRelay.Lib.MsgPack
open MasterRelay.Lib.Runs
open MasterRelay.Protocol
open MasterRelay.Server

variable {P : Type} [DecidableEq P] {mp : Msgpack} {m : P} {k : Fin othersCount}
  {w w' v v' : World P} {out out' : List ClientOutput}

/-! ## What changes an input -/

/-- **All a step does to the input of slave `k`**: nothing, unless it delivers a player input with
the id of slave `k`. -/
theorem input_step {e : WorldEvent P} {inputs : Fin othersCount → PlayerInput}
    (hs : (world mp m).step w e = some (w', out))
    (hin : w.client.shared.lastPlayerInputs = some inputs) :
    ∃ inputs', w'.client.shared.lastPlayerInputs = some inputs' ∧
      (inputs' k = inputs k ∨ ∃ ch i env payload pi, e = .deliver ch i env ∧
        (w.flight ch)[i]? = some (frame .playerInput payload) ∧
        ifbTryUnpackPlayerInput mp env.net.reader payload = .ok pi ∧
        pi.id = UInt32.ofNat (k + 1) ∧ inputs' k = { inputs k with x := pi.x, y := pi.y }) := by
  cases e with
  | server se =>
    obtain ⟨r, -, heq⟩ := Option.map_eq_some_iff.mp hs
    cases heq
    exact ⟨inputs, hin, .inl rfl⟩
  | drop ch i =>
    cases hs
    exact ⟨inputs, hin, .inl rfl⟩
  | deliver ch i env =>
    obtain ⟨c, rfl, ⟨-, rfl⟩ | ⟨d, hd, hr⟩⟩ := deliver_cases hs
    · exact ⟨inputs, hin, .inl rfl⟩
    · simp only [client, clientStep] at hr
      split_ifs at hr
      obtain ⟨⟨s, pc⟩, hnet, heq⟩ := Option.map_eq_some_iff.mp hr
      cases heq
      rcases receive_inputs hnet hin with hsame | ⟨payload, pi, j, hparse, hpi, hj, hset⟩
      · exact ⟨inputs, hsame, .inl rfl⟩
      · refine ⟨_, hset, ?_⟩
        by_cases hjk : k = j
        · subst hjk
          rw [(parse_eq_ok hparse).1] at hd
          exact .inr ⟨ch, i, env, payload, pi, rfl, hd, hpi, slaveIndex_eq_some.mp hj,
            Function.update_self ..⟩
        · exact .inl (Function.update_of_ne hjk ..)
  | thread ce =>
    obtain ⟨c, rfl, hr, hno⟩ := thread_cases hs
    exact ⟨inputs, thread_inputs hr hno hin, .inl rfl⟩

/-! ## Two runs -/

/-- Two events that agree on slave `k`: the same event, player inputs from the same peer that are
not for slave `k`, or any two game states. -/
inductive SameBut (mp : Msgpack) (k : Fin othersCount) : WorldEvent P → WorldEvent P → Prop
  | same (e : WorldEvent P) : SameBut mp k e e
  | inputs (env : Env P) (peer : P) {p p' : Option Bytes}
      (h : ¬ InputFor mp k (frame .playerInput p)) (h' : ¬ InputFor mp k (frame .playerInput p')) :
      SameBut mp k (.server (.receive env peer (frame .playerInput p)))
        (.server (.receive env peer (frame .playerInput p')))
  | states (env env' : Env P) (peer peer' : P) (p p' : Option Bytes) :
      SameBut mp k (.server (.receive env peer (frame .gameStateUpd p)))
        (.server (.receive env' peer' (frame .gameStateUpd p')))

/-- **The relation of the two runs**: the same table, clients that agree on slave `k`, packets under
way that do, and game states on the stream channel, as many as there may be. -/
structure SameWorld (mp : Msgpack) (k : Fin othersCount) (w v : World P) : Prop where
  table : w.table = v.table
  client : SameClient k w.client v.client
  flight : ∀ ch, ch ≠ .stream → List.Forall₂ (SamePacket mp k) (w.flight ch) (v.flight ch)
  states : ∀ d, d ∈ w.flight .stream ∨ d ∈ v.flight .stream → ∃ p, d = frame .gameStateUpd p

theorem forall₂_eraseIdx {α : Type} {R : α → α → Prop} {l l' : List α} (h : List.Forall₂ R l l')
    (i : Nat) : List.Forall₂ R (l.eraseIdx i) (l'.eraseIdx i) := by
  rw [List.eraseIdx_eq_take_drop_succ, List.eraseIdx_eq_take_drop_succ]
  exact List.rel_append (List.forall₂_take i h) (List.forall₂_drop (i + 1) h)

theorem forall₂_getElem? {α : Type} {R : α → α → Prop} {l l' : List α} (h : List.Forall₂ R l l')
    (i : Nat) :
    (l[i]? = none ∧ l'[i]? = none) ∨ ∃ a b, l[i]? = some a ∧ l'[i]? = some b ∧ R a b := by
  by_cases hi : i < l.length
  · have hi' : i < l'.length := h.length_eq ▸ hi
    exact .inr ⟨l[i], l'[i], List.getElem?_eq_getElem hi, List.getElem?_eq_getElem hi',
      h.get hi hi'⟩
  · have hi' : ¬ i < l'.length := h.length_eq ▸ hi
    exact .inl ⟨List.getElem?_eq_none (Nat.not_lt.mp hi), List.getElem?_eq_none (Nat.not_lt.mp hi')⟩

/-- Player inputs of the same peer: both are sent on to the same peer, or neither is. -/
theorem relay_same {env : Env P} {t t₁ t₂ : Table P} {peer : P} {p p' : Option Bytes}
    {o o' : List (Output P)}
    (hs : (server mp).step t (.receive env peer (frame .playerInput p)) = some (t₁, o))
    (hs' : (server mp).step t (.receive env peer (frame .playerInput p')) = some (t₂, o')) :
    t₁ = t ∧ t₂ = t ∧ (o = [] ∧ o' = [] ∨
      ∃ q, o = [.send q .streamPuppetInputs (frame .playerInput p) false false] ∧
        o' = [.send q .streamPuppetInputs (frame .playerInput p') false false]) := by
  obtain ⟨r, hr⟩ := parse_frame_type (t := .playerInput) rfl p
  obtain ⟨r', hr'⟩ := parse_frame_type (t := .playerInput) rfl p'
  rw [receive_eq] at hs hs'
  simp only [onReceive, hr, hr'] at hs hs'
  cases hmaster : tryGetMasterClient t with
  | error e =>
    rw [hmaster] at hs hs'
    cases hs
    cases hs'
    exact ⟨rfl, rfl, .inl ⟨rfl, rfl⟩⟩
  | ok i =>
    simp only [hmaster, ifbTryRelayPacket, enetPacketCreate] at hs hs'
    cases hpeer : (t i).peer with
    | none => simp [hpeer] at hs
    | some q =>
      -- whether the packet is made and sent does not depend on its bytes
      by_cases hcreate : env.packetCreate .playerInput = true
      · by_cases hsend : env.peerSend q .streamPuppetInputs = 0
        · simp only [hpeer, hcreate, hsend, if_true, ne_eq, not_true_eq_false, if_false] at hs hs'
          cases hs
          cases hs'
          exact ⟨rfl, rfl, .inr ⟨q, rfl, rfl⟩⟩
        · simp only [hpeer, hcreate, hsend, if_true, ne_eq, not_false_eq_true, fail] at hs hs'
          cases hs
          cases hs'
          exact ⟨rfl, rfl, .inl ⟨rfl, rfl⟩⟩
      · simp [hpeer, hcreate] at hs

/-- A game state leaves the table alone and puts nothing on the other channels. -/
theorem state_frame {env : Env P} {t t' : Table P} {peer : P} {p : Option Bytes}
    {o : List (Output P)}
    (hs : (server mp).step t (.receive env peer (frame .gameStateUpd p)) = some (t', o)) :
    t' = t ∧ ∀ ch, ch ≠ .stream → o.filterMap (arrives m ch) = [] := by
  rw [receive_eq] at hs
  rcases onReceive_cases hs with ⟨hreq, -⟩ | ⟨-, rfl, rfl | ⟨q, gs, -, -, rfl⟩ |
    ⟨q, master, r, heq, -⟩⟩
  · exact absurd (isRequest_frame.mp hreq) (by decide)
  · exact ⟨rfl, fun _ _ => rfl⟩
  · exact ⟨rfl, fun ch hch => by simp [arrives, hch.symm]⟩
  · cases heq

/-- What two related events of the server put on the other channels is related. -/
theorem server_same {t t₁ t₂ : Table P} {e e' : Event P} {o o' : List (Output P)}
    (he : SameBut mp k (.server e) (.server e')) (hs : (server mp).step t e = some (t₁, o))
    (hs' : (server mp).step t e' = some (t₂, o')) :
    t₁ = t₂ ∧ ∀ ch, ch ≠ .stream →
      List.Forall₂ (SamePacket mp k) (o.filterMap (arrives m ch))
        (o'.filterMap (arrives m ch)) := by
  cases he with
  | same =>
    obtain ⟨rfl, rfl⟩ := Prod.mk.inj (Option.some.inj (hs.symm.trans hs'))
    exact ⟨rfl, fun ch _ => List.forall₂_same.mpr fun d _ => .refl d⟩
  | inputs env peer h h' =>
    obtain ⟨rfl, rfl, ⟨rfl, rfl⟩ | ⟨q, rfl, rfl⟩⟩ := relay_same hs hs'
    · exact ⟨rfl, fun ch _ => List.Forall₂.nil⟩
    · refine ⟨rfl, fun ch _ => ?_⟩
      by_cases hq : q = m ∧ ChannelId.streamPuppetInputs = ch
      · simp only [List.filterMap_cons, arrives, if_pos hq, List.filterMap_nil]
        exact .cons (.inr ⟨_, _, rfl, rfl, h, h'⟩) .nil
      · simp only [List.filterMap_cons, arrives, if_neg hq, List.filterMap_nil]
        exact .nil
  | states env env' peer peer' p p' =>
    obtain ⟨rfl, hnone⟩ := state_frame (m := m) hs
    obtain ⟨rfl, hnone'⟩ := state_frame (m := m) hs'
    refine ⟨rfl, fun ch hch => ?_⟩
    rw [hnone ch hch, hnone' ch hch]
    exact .nil

omit [DecidableEq P] in
/-- Removing the same packet from both. -/
theorem SameWorld.remove (h : SameWorld mp k w v) (ch : ChannelId) (i : Nat) {c d : ClientState}
    (hc : SameClient k c d) :
    SameWorld mp k ⟨w.table, remove ch i w.flight, c⟩ ⟨v.table, remove ch i v.flight, d⟩ := by
  refine ⟨h.table, hc, fun ch' hch' => ?_, fun d hd => ?_⟩
  · show List.Forall₂ _ (Game.remove ch i w.flight ch') (Game.remove ch i v.flight ch')
    unfold Game.remove
    by_cases heq : ch' = ch
    · subst heq
      rw [Function.update_self, Function.update_self]
      exact forall₂_eraseIdx (h.flight ch' hch') i
    · rw [Function.update_of_ne heq, Function.update_of_ne heq]
      exact h.flight ch' hch'
  · exact h.states d (hd.imp mem_remove mem_remove)

/-- Related events of the server keep the relation. -/
theorem server_keeps {e e' : Event P} (h : SameWorld mp k w v)
    (he : SameBut mp k (.server e) (.server e'))
    (hw : (world mp m).step w (.server e) = some (w', out))
    (hv : (world mp m).step v (.server e') = some (v', out')) : SameWorld mp k w' v' := by
  obtain ⟨⟨t₁, o⟩, hs, heq⟩ := Option.map_eq_some_iff.mp hw
  obtain ⟨⟨t₂, o'⟩, hs', heq'⟩ := Option.map_eq_some_iff.mp hv
  cases heq
  cases heq'
  rw [← h.table] at hs'
  obtain ⟨htable, harr⟩ := server_same (m := m) he hs hs'
  refine ⟨htable, h.client, fun ch hch => List.rel_append (h.flight ch hch) (harr ch hch),
    fun d hd => ?_⟩
  have hnew : ∀ {t t' : Table P} {e : Event P} {o : List (Output P)},
      (server mp).step t e = some (t', o) → d ∈ o.filterMap (arrives m .stream) →
        ∃ p, d = frame .gameStateUpd p := by
    intro t t' e o hs hd
    rcases arrives_cases hs hd with ⟨hch, -⟩ | ⟨-, hstate⟩ | ⟨hch, -⟩
    · cases hch
    · exact hstate
    · cases hch
  rcases hd with hd | hd <;> rcases List.mem_append.mp hd with hold | hadded
  · exact h.states d (.inl hold)
  · exact hnew hs hadded
  · exact h.states d (.inr hold)
  · exact hnew hs' hadded

omit [DecidableEq P] in
/-- A delivery on the stream channel changes nothing in the client. -/
theorem deliver_stream {i : Nat} {env : ClientEnv} {c : ClientState}
    (hstates : ∀ d ∈ w.flight .stream, ∃ p, d = frame .gameStateUpd p)
    (h : (w.flight .stream)[i]? = none ∧ c = w.client ∨ ∃ d, (w.flight .stream)[i]? = some d ∧
      (client mp).step w.client (.receive env d) = some (c, out)) : c = w.client := by
  rcases h with ⟨-, rfl⟩ | ⟨d, hd, hr⟩
  · rfl
  · obtain ⟨p, rfl⟩ := hstates d (List.mem_of_getElem? hd)
    exact clientReceive_gameState hr

/-- **Related events keep the relation.** -/
theorem sameWorld_step {e e' : WorldEvent P} (h : SameWorld mp k w v) (he : SameBut mp k e e')
    (hw : (world mp m).step w e = some (w', out)) (hv : (world mp m).step v e' = some (v', out')) :
    SameWorld mp k w' v' := by
  cases he with
  | inputs env peer h₁ h₂ => exact server_keeps h (.inputs env peer h₁ h₂) hw hv
  | states env env' peer peer' p p' => exact server_keeps h (.states env env' peer peer' p p') hw hv
  | same =>
    cases e with
    | server se => exact server_keeps h (.same _) hw hv
    | drop ch i =>
      cases hw
      cases hv
      exact h.remove ch i h.client
    | deliver ch i env =>
      obtain ⟨c, rfl, hc⟩ := deliver_cases hw
      obtain ⟨d, rfl, hd⟩ := deliver_cases hv
      refine h.remove ch i ?_
      by_cases hch : ch = .stream
      · subst hch
        rw [deliver_stream (fun d hd => h.states d (.inl hd)) hc,
          deliver_stream (fun d hd => h.states d (.inr hd)) hd]
        exact h.client
      · rcases forall₂_getElem? (h.flight ch hch) i with ⟨hn, hn'⟩ | ⟨a, b, ha, hb, hab⟩
        · rcases hc with ⟨-, rfl⟩ | ⟨a, ha, -⟩
          · rcases hd with ⟨-, rfl⟩ | ⟨b, hb, -⟩
            · exact h.client
            · exact absurd (hn'.symm.trans hb) (by simp)
          · exact absurd (hn.symm.trans ha) (by simp)
        · rcases hc with ⟨hn, -⟩ | ⟨a', ha', hr⟩
          · exact absurd (hn.symm.trans ha) (by simp)
          · rcases hd with ⟨hn, -⟩ | ⟨b', hb', hr'⟩
            · exact absurd (hn.symm.trans hb) (by simp)
            · obtain rfl : a = a' := Option.some.inj (ha.symm.trans ha')
              obtain rfl : b = b' := Option.some.inj (hb.symm.trans hb')
              exact clientReceive_same h.client hab hr hr'
    | thread ce =>
      obtain ⟨c, rfl, hr, -⟩ := thread_cases hw
      obtain ⟨d, rfl, hr', -⟩ := thread_cases hv
      exact ⟨h.table, thread_same h.client hr hr', h.flight, h.states⟩

/-! ## Runs -/

/-- The last input and the position of slave `k`. -/
def slotView (k : Fin othersCount) (w : World P) : Option PlayerInput × Option PlayerPos :=
  (w.client.shared.lastPlayerInputs.map (· k), w.client.shared.currentGameState.map (·.pos k.succ))

omit [DecidableEq P] in
theorem SameWorld.view (h : SameWorld mp k w v) : slotView k w = slotView k v := by
  unfold slotView
  rw [h.client.shared.input, h.client.shared.pos]

omit [DecidableEq P] in
theorem sameWorld_init : SameWorld mp k (World.init : World P) .init where
  table := rfl
  client := ⟨.refl _, rfl, fun _ => .refl _⟩
  flight _ _ := .nil
  states _ hd := absurd (hd.elim id id) List.not_mem_nil

/-- **A slave is moved by its id.** In every run, the last input of slave `k`, once it is there,
changes only when a player input with the id of slave `k` is delivered, which some peer sent to the
server earlier in the run. Two runs whose events agree on slave `k` pass through the same last
inputs and the same positions of slave `k`. -/
theorem inputs_byId (mp : Msgpack) (m : P) (k : Fin othersCount) :
    (∀ t₁ x t₂ w, Run (world mp m) .init (t₁ ++ x :: t₂) w →
      ∀ inputs, x.pre.client.shared.lastPlayerInputs = some inputs →
        ∃ inputs', x.post.client.shared.lastPlayerInputs = some inputs' ∧ (inputs' k ≠ inputs k →
          ∃ ch i env payload pi, x.event = .deliver ch i env ∧
            (x.pre.flight ch)[i]? = some (frame .playerInput payload) ∧
            ifbTryUnpackPlayerInput mp env.net.reader payload = .ok pi ∧
            pi.id = UInt32.ofNat (k + 1) ∧ inputs' k = { inputs k with x := pi.x, y := pi.y } ∧
            WasSent t₁ (frame .playerInput payload))) ∧
    ∀ tr tu w v, Run (world mp m) .init tr w → Run (world mp m) .init tu v →
      List.Forall₂ (SameBut mp k) (tr.map Step.event) (tu.map Step.event) →
      (states tr).map (slotView k) = (states tu).map (slotView k) := by
  constructor
  · intro t₁ x t₂ w hr inputs hin
    obtain ⟨hr₁, hs, -⟩ := hr.split
    obtain ⟨inputs', hin', hcase⟩ := input_step (k := k) hs hin
    refine ⟨inputs', hin', fun hne => ?_⟩
    rcases hcase with hsame | ⟨ch, i, env, payload, pi, he, hd, hpi, hid, hset⟩
    · exact absurd hsame hne
    · exact ⟨ch, i, env, payload, pi, he, hd, hpi, hid, hset,
        inputs_wereSent hr₁ ch payload (List.mem_of_getElem? hd)⟩
  · intro tr tu w v hw hv hE
    rw [List.forall₂_map_left_iff, List.forall₂_map_right_iff] at hE
    obtain ⟨-, hall⟩ := hw.lockstep (R := SameWorld mp k) (E := SameBut mp k)
      (fun _ _ _ _ _ _ _ _ h he hs hs' => sameWorld_step h he hs hs') hv hE sameWorld_init
    exact List.forall₂_eq_eq_eq ▸ List.rel_map (fun _ _ h => h.view) hall

/-- Three peers register, and the client of the first becomes the master. -/
def threePeers : List (WorldEvent Nat) :=
  [.server (.receive .ideal 1 [1]), .server (.receive .ideal 2 [1]),
    .server (.receive .ideal 3 [1]), .deliver .critical 0 .ideal, .thread (.netSection .ideal),
    .thread (.netSection .ideal)]

/-- A peer sends a player input. -/
def sendsInput (peer : Nat) (pi : PlayerInput) : WorldEvent Nat :=
  .server (.receive .ideal peer (inputPacket reference pi))

/-- The first player input under way arrives. -/
def inputArrives : WorldEvent Nat := .deliver .streamPuppetInputs 0 .ideal

/-- Slave 1 next to two different inputs of slave 2. -/
theorem inputs_byId_otherInputs : ∃ tr tu w v,
    Run (world reference 1) .init tr w ∧ Run (world reference 1) .init tu v ∧
    tr.map Step.event =
      threePeers ++ [sendsInput 3 ⟨2, 5, 5⟩, sendsInput 2 ⟨1, 3, 4⟩, inputArrives, inputArrives] ∧
    tu.map Step.event =
      threePeers ++ [sendsInput 3 ⟨2, -9, 8⟩, sendsInput 2 ⟨1, 3, 4⟩, inputArrives, inputArrives] ∧
    (states tr).map (slotView 0) = (states tu).map (slotView 0) := by
  obtain ⟨tr, w, hr, hev, -⟩ := run_of_exec (world reference 1) .init
    (threePeers ++ [sendsInput 3 ⟨2, 5, 5⟩, sendsInput 2 ⟨1, 3, 4⟩, inputArrives, inputArrives])
    (fun _ _ => true) (by decide +kernel)
  obtain ⟨tu, v, hu, hev', -⟩ := run_of_exec (world reference 1) .init
    (threePeers ++ [sendsInput 3 ⟨2, -9, 8⟩, sendsInput 2 ⟨1, 3, 4⟩, inputArrives, inputArrives])
    (fun _ _ => true) (by decide +kernel)
  refine ⟨tr, tu, w, v, hr, hu, hev, hev', (inputs_byId reference 1 0).2 tr tu w v hr hu ?_⟩
  have hother : ∀ x y, ¬ InputFor reference 0 (inputPacket reference ⟨2, x, y⟩) := fun x y h =>
    absurd (show (2 : UInt32) = 1 from (inputFor_inputPacket reference_lawful _).mp h) (by decide)
  rw [hev, hev']
  exact List.rel_append (List.forall₂_same.mpr fun e _ => .same e)
    (.cons (.inputs .ideal 3 (hother _ _) (hother _ _)) (List.forall₂_same.mpr fun e _ => .same e))

/-- Nobody but the peer of slot 2 sends a player input, and slave 1 is moved. -/
theorem otherSlave_obeyed : ∃ tr w, Run (world reference 1) .init tr w ∧
    tr.map Step.event = threePeers ++ [sendsInput 3 ⟨1, 3, 4⟩, inputArrives] ∧
    isPlayerExistsAndConnected (w.table (1 : Fin 10)) = true ∧
    (w.table (1 : Fin 10)).peer = some 2 ∧
    isPlayerExistsAndConnected (w.table (2 : Fin 10)) = true ∧
    (w.table (2 : Fin 10)).peer = some 3 ∧
    ∃ x ∈ tr, (slotView 0 x.pre).1 = some ⟨1, 0, 0⟩ ∧ (slotView 0 x.post).1 = some ⟨1, 3, 4⟩ := by
  obtain ⟨tr, w, hr, hev, hQ⟩ := run_of_exec (world reference 1) .init
    (threePeers ++ [sendsInput 3 ⟨1, 3, 4⟩, inputArrives])
    (fun tr w => isPlayerExistsAndConnected (w.table (1 : Fin 10)) &&
      decide ((w.table (1 : Fin 10)).peer = some 2) &&
      isPlayerExistsAndConnected (w.table (2 : Fin 10)) &&
      decide ((w.table (2 : Fin 10)).peer = some 3) &&
      tr.any fun x => decide ((slotView 0 x.pre).1 = some ⟨1, 0, 0⟩) &&
        decide ((slotView 0 x.post).1 = some ⟨1, 3, 4⟩)) (by decide +kernel)
  simp only [Bool.and_eq_true, decide_eq_true_eq, List.any_eq_true] at hQ
  obtain ⟨⟨⟨⟨h₁, h₂⟩, h₃⟩, h₄⟩, hmoved⟩ := hQ
  exact ⟨tr, w, hr, hev, h₁, h₂, h₃, h₄, hmoved⟩

end MasterRelay.Game
