import MasterRelay.Protocol.RoundTrip
import MasterRelay.Server.Refine

/-!
# Who is told which id

The history of the answers to a peer against the table. `toldStep` keeps, for one peer, the payloads
of the `RES_USER_INFO` packets sent to it since it last disconnected. `step_told` says when a step
sends one; `told_step` is the invariant between the history and the table: nothing was sent, or one
packet, with the seat and the role the peer has.

**`identity_stable`**: between a registration and the disconnect at most one answer is sent, what it
says stays true, the id is the lowest slot that was free, and peers that are active together were
told different ids.
-/

namespace MasterRelay.Server

open MasterRelay.Lib.MsgPack
open MasterRelay.Lib.Runs
open MasterRelay.Protocol

variable {P : Type} [DecidableEq P]

/-- The payload of an output that is a `RES_USER_INFO` for `p`. -/
def userInfoTo (p : P) : Output P → Option Bytes
  | .send q _ data _ _ =>
    if q = p ∧ data.head? = some MessageType.resUserInfo.toByte then some data.tail else none
  | .broadcast _ _ _ _ => none

/-- The event is a disconnect of `p`. -/
def disconnects (p : P) : Event P → Bool
  | .disconnect q => decide (q = p)
  | _ => false

/-- The answers to `p` since its last disconnect, after one more step. -/
def toldStep (p : P) (told : List Bytes) (x : Step (Table P) (Event P) (Output P)) : List Bytes :=
  if disconnects p x.event then [] else told ++ x.out.filterMap (userInfoTo p)

/-- The answers to `p` since its last disconnect. -/
def toldSince (p : P) (tr : List (Step (Table P) (Event P) (Output P))) : List Bytes :=
  tr.foldl (toldStep p) []

variable {mp : Msgpack} {env : Env P} {t t' : Table P} {out : List (Output P)} {p : P}

theorem userInfoTo_send {q : P} {ch : ChannelId} {ty : MessageType} {payload : Bytes}
    {reliable forced : Bool} :
    userInfoTo p (.send q ch (frame ty (some payload)) reliable forced) =
      if q = p ∧ ty = .resUserInfo then some payload else none := by
  have hty : some ty.toByte = some MessageType.resUserInfo.toByte ↔ ty = .resUserInfo := by
    cases ty <;> simp [MessageType.toByte]
  simp only [userInfoTo, frame, List.head?_cons, List.tail_cons, Option.getD_some, hty]

/-- An announcement tells the new player its slot and role, or nothing; it tells nobody else. -/
theorem announce_told (mp : Msgpack) (env : Env P) (t : Table P) (p peer : P) (i : Slot)
    (m : Bool) :
    (announce mp env t peer i m).filterMap (userInfoTo p) = [] ∨
      (announce mp env t peer i m).filterMap (userInfoTo p) =
        if peer = p then [userInfoBytes mp ⟨UInt32.ofNat i, m⟩] else [] := by
  rcases announce_cases mp env t peer i m with h | h | ⟨master, q, -, -, -, h⟩
  · exact .inl (by rw [h, List.filterMap_nil])
  · right
    rw [h]
    by_cases hp : peer = p <;> simp [userInfoTo_send, hp]
  · -- the second packet is of another type
    right
    rw [h]
    by_cases hp : peer = p <;> simp [userInfoTo_send, hp]

/-- **All a step can tell `p`**: nothing, or, when it registers `p`, the slot it takes. -/
theorem step_told {e : Event P} (hs : (server mp).step t e = some (t', out)) :
    out.filterMap (userInfoTo p) = [] ∨ ∃ env data i m, e = .receive env p data ∧
      IsRequest data ∧ isPlayerActive t p = false ∧ firstSlot freeTest t = some i ∧
      t' = Function.update t i (newPlayer p m) ∧
      out.filterMap (userInfoTo p) = [userInfoBytes mp ⟨UInt32.ofNat i, m⟩] := by
  cases e with
  | connect peer =>
    cases hs
    exact .inl rfl
  | receive env peer data =>
    rcases onReceive_cases hs with ⟨hreq, hreg⟩ | ⟨-, -, hout⟩
    · rcases handlePlayerRegister_cases hreg with ⟨-, -, rfl⟩ | ⟨i, m, hnew, hfree, -, rfl, rfl⟩
      · exact .inl rfl
      · rcases announce_told mp env (Function.update t i (newPlayer peer m)) p peer i m with h | h
        · exact .inl h
        · by_cases hp : peer = p
          · subst hp
            exact .inr ⟨env, data, i, m, rfl, hreq, hnew, hfree, rfl, h.trans (if_pos rfl)⟩
          · exact .inl (h.trans (if_neg hp))
    · rcases hout with rfl | ⟨payload, gs, rfl, -, rfl⟩ | ⟨payload, master, q, rfl, -, -, rfl⟩
      · exact .inl rfl
      · exact .inl rfl
      · refine .inl ?_
        simp [userInfoTo, frame, MessageType.toByte]
  | disconnect peer =>
    obtain ⟨rfl, -⟩ := disconnect_cases hs
    exact .inl rfl

/-- What was told to `p` against its seat: nothing, or one packet with its slot and role. -/
def ToldInv (mp : Msgpack) (p : P) (told : List Bytes) (t : Table P) : Prop :=
  ∃ r : ServerRoster P, Sim t r ∧ (told = [] ∨ ∃ i m, r.seat i = some ⟨p, m⟩ ∧
    told = [userInfoBytes mp ⟨UInt32.ofNat i, m⟩])

/-- **Every step keeps the history and the table together.** -/
theorem told_step {told : List Bytes} {e : Event P} (h : ToldInv mp p told t)
    (hs : (server mp).step t e = some (t', out)) :
    ToldInv mp p (toldStep p told ⟨t, e, out, t'⟩) t' := by
  obtain ⟨r, hsim, htold⟩ := h
  have hsim' := sim_step hsim hs
  refine ⟨rosterStep r e, hsim', ?_⟩
  unfold toldStep
  split
  · exact .inl rfl
  · rename_i hstay
    simp only at hstay ⊢
    rcases step_told (p := p) hs with hnone |
      ⟨env, data, i, m, rfl, hreq, hnew, hfree, rfl, hsent⟩
    · -- nothing is told: `p` keeps its seat
      rw [hnone, List.append_nil]
      rcases htold with rfl | ⟨i, m, hseat, rfl⟩
      · exact .inl rfl
      · refine .inr ⟨i, m, ?_, rfl⟩
        cases e with
        | connect peer => exact hseat
        | receive env peer data =>
          rw [rosterStep]
          split
          · exact join_keeps hseat peer
          · exact hseat
        | disconnect peer =>
          refine leave_some.mpr ⟨hseat, ?_⟩
          rintro rfl
          exact hstay (by simp [disconnects])
    · -- `p` registers: it had no seat, so nothing had been told
      rcases htold with rfl | ⟨j, k, hseat, -⟩
      · refine .inr ⟨i, m, (sim_seat hsim').mpr ?_, by rw [hsent, List.nil_append]⟩
        simp [newPlayer, isPlayerExistsAndConnected]
      · have hact := (isPlayerActive_iff hsim.proper p).mpr
          ⟨j, hsim.same ▸ peerAt_some.mpr ⟨k, hseat⟩⟩
        exact absurd hact (by simp [hnew])

/-- **Over every run.** -/
theorem told_run {tr : List (Step (Table P) (Event P) (Output P))}
    (hr : Run (server mp) initTable tr t) : ToldInv mp p (toldSince p tr) t :=
  hr.history (toldStep p) (I := ToldInv mp p) (fun _ _ _ _ _ h hs => told_step h hs)
    ⟨Roster.empty, sim_init, .inl rfl⟩

theorem slot_id_injective {i j : Slot} (h : UInt32.ofNat i = UInt32.ofNat j) : i = j := by
  have hlt : ∀ k : Slot, (k : Nat) < 2 ^ 32 := fun k => by
    have := k.isLt
    unfold activePlayersSize at this
    omega
  have h' := congrArg UInt32.toNat h
  rw [UInt32.toNat_ofNat_of_lt' (hlt i), UInt32.toNat_ofNat_of_lt' (hlt j)] at h'
  exact Fin.ext h'

/-- What a client reads in a `RES_USER_INFO`. -/
def Says (mp : Msgpack) (payload : Bytes) (u : UserInfo) : Prop :=
  ∀ rd, ifbFunTryUnpackUserInfo mp rd (some payload) = .ok u

theorem says_userInfoBytes (hmp : mp.Lawful) (u : UserInfo) : Says mp (userInfoBytes mp u) u := by
  intro rd
  have h := unpack_userInfoBytes hmp rd u []
  rwa [List.append_nil] at h

theorem says_unique {payload : Bytes} {u v : UserInfo} (hu : Says mp payload u)
    (hv : Says mp payload v) : u = v :=
  Except.ok.inj ((hu (.strict fun _ => 0)).symm.trans (hv (.strict fun _ => 0)))

/-- **Identity is stable.** In every run of the server from the initial table, for what was told to
a peer since it last disconnected:
it is at most one packet; it says the slot and the role the peer has now; the packet of a step says
the lowest slot that was not active before it, which the peer takes; and peers that were told
something have different ids. -/
theorem identity_stable (hmp : mp.Lawful) {tr : List (Step (Table P) (Event P) (Output P))}
    (hr : Run (server mp) initTable tr t) :
    (∀ p, (toldSince p tr).length ≤ 1) ∧
      (∀ p, ∀ b ∈ toldSince p tr, ∃ i, isPlayerExistsAndConnected (t i) = true ∧
        (t i).peer = some p ∧ Says mp b ⟨UInt32.ofNat i, (t i).isMaster⟩) ∧
      (∀ x ∈ tr, ∀ p, ∀ b ∈ x.out.filterMap (userInfoTo p), ∃ i,
        isPlayerExistsAndConnected (x.pre i) = false ∧
        (∀ j < i, isPlayerExistsAndConnected (x.pre j) = true) ∧ (x.post i).peer = some p ∧
        Says mp b ⟨UInt32.ofNat i, (x.post i).isMaster⟩) ∧
      ∀ p q b c u v, p ≠ q → b ∈ toldSince p tr → c ∈ toldSince q tr → Says mp b u → Says mp c v →
        u.id ≠ v.id := by
  have hinv := fun p => told_run (p := p) hr
  refine ⟨fun p => ?_, fun p b hb => ?_, fun x hx p b hb => ?_,
    fun p q b c u v hpq hb hc hu hv => ?_⟩
  · obtain ⟨r, -, h | ⟨i, m, -, h⟩⟩ := hinv p <;> simp [h]
  · obtain ⟨r, hsim, h | ⟨i, m, hseat, h⟩⟩ := hinv p
    · exact absurd hb (by simp [h])
    · obtain ⟨hact, hpeer, rfl⟩ := (sim_seat hsim).mp hseat
      obtain rfl : b = _ := List.mem_singleton.mp (h ▸ hb)
      exact ⟨i, hact, hpeer, says_userInfoBytes hmp _⟩
  · obtain ⟨hs, -⟩ := hr.mem hx
    rcases step_told (p := p) hs with h | ⟨env, data, i, m, -, -, -, hfree, hpost, hsent⟩
    · exact absurd hb (by simp [h])
    · obtain rfl : b = _ := List.mem_singleton.mp (hsent ▸ hb)
      obtain ⟨hi, hlt⟩ := firstSlot_some hfree
      refine ⟨i, ?_, fun j hj => ?_, ?_, ?_⟩
      · simpa [freeTest] using hi
      · simpa [freeTest] using hlt j hj
      · simp [hpost, newPlayer]
      · rw [hpost, Function.update_self]
        exact says_userInfoBytes hmp _
  · obtain ⟨r, hsim, h | ⟨i, m, hseat, h⟩⟩ := hinv p
    · exact absurd hb (by simp [h])
    · obtain ⟨r', hsim', h' | ⟨j, k, hseat', h'⟩⟩ := hinv q
      · exact absurd hc (by simp [h'])
      · obtain rfl : b = _ := List.mem_singleton.mp (h ▸ hb)
        obtain rfl : c = _ := List.mem_singleton.mp (h' ▸ hc)
        rw [says_unique hu (says_userInfoBytes hmp _), says_unique hv (says_userInfoBytes hmp _)]
        intro hid
        obtain rfl := slot_id_injective hid
        -- one slot, two peers
        have hp := ((sim_seat hsim).mp hseat).2.1
        have hq := ((sim_seat hsim').mp hseat').2.1
        exact hpq (Option.some.inj (hp.symm.trans hq))

/-- The second peer was told once. -/
theorem identity_stable_secondPeer : ∃ tr, ∃ t : Table Nat, Run (server reference) initTable tr t ∧
    toldSince 2 tr ≠ [] ∧ (toldSince 2 tr).length ≤ 1 := by
  obtain ⟨tr, t, hr, -, hQ⟩ := run_of_exec (server reference) initTable
    [.receive .ideal 1 [1], .receive .ideal 2 [1], .receive .ideal 2 [1]]
    (fun tr _ => decide (toldSince 2 tr ≠ [])) (by decide +kernel)
  exact ⟨tr, t, hr, of_decide_eq_true hQ, (identity_stable reference_lawful hr).1 2⟩

end MasterRelay.Server
