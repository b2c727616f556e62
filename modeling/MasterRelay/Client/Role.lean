import MasterRelay.Client.Dispatch
import MasterRelay.Lib.LastMatch

/-!
# A client acts in its role

`MY_USER_INFO` is what the last accepted `RES_USER_INFO` said (`assigned`), and a call of
`try_execute_tick` looks nowhere else for the role: a master sends its state, a slave its input
under its id, and a client without a user info nothing. The world belongs to masters: a client that
has never been one has neither a state nor inputs.

* `role_step`: what one step does to the role and to the world, and what it sends.
* **`role_of_run`**: over every run of the client from its start.
-/

namespace MasterRelay.Client

open MasterRelay.Lib.LastMatch
open MasterRelay.Lib.MsgPack
open MasterRelay.Lib.Runs
open MasterRelay.Protocol

/-- The user info an event brings: an accepted `RES_USER_INFO`. -/
def acceptedUserInfo (mp : Msgpack) : AtomicEvent → Option UserInfo
  | .receive env data =>
    match received mp env.net.reader data with
    | .userInfo ui => some ui
    | _ => none
  | .tick _ _ => none

/-- **The role of the client**: what the last accepted `RES_USER_INFO` of the steps said. -/
def assigned (mp : Msgpack) (tr : List (Step Shared AtomicEvent ClientOutput)) : Option UserInfo :=
  lastMatch (fun x => acceptedUserInfo mp x.event) tr

/-- A client that has just started. -/
def Shared.init : Shared := ⟨none, none, none⟩

/-- What a client with this user info may send in a tick. -/
def ActsAs (mp : Msgpack) (c : TickCall) (ui : UserInfo) (o : Output Unit) : Prop :=
  ui.isMaster = true ∧ (∃ gs, o.data = frame .gameStateUpd (some (gameStateBytes mp gs))) ∨
    ui.isMaster = false ∧ o.data = inputPacket mp ⟨ui.id, c.userInput.x, c.userInput.y⟩

variable {mp : Msgpack} {s s' : Shared} {out : List ClientOutput} {e : AtomicEvent}

/-! ## One step -/

/-- What the end of a master's call sends. -/
theorem sendGameState_sent {env : ClientEnv} {gs : GameState} {o : Output Unit}
    (h : .sent o ∈ sendGameState mp env gs) :
    o.data = frame .gameStateUpd (some (gameStateBytes mp gs)) := by
  unfold sendGameState at h
  split at h
  · simp at h
  · rename_i sbuf hpack
    split at h
    · simp at h
    · rename_i o' hsend
      obtain rfl := packed_eq_ok (emits_gameState gs) hpack
      obtain ⟨p, -, rfl⟩ := trySend_eq_ok hsend
      simp only [List.mem_cons, ClientOutput.sent.injEq, List.not_mem_nil, or_false] at h
      rcases h with rfl | h
      · rfl
      · cases h

/-- What a slave sends: its input, under its id. -/
theorem slaveTick_sent {env : ClientEnv} {input : UserInput} {sent : List (Output Unit)}
    {ui : UserInfo} {o : Output Unit} (hui : s.myUserInfo = some ui)
    (h : handleCmdSlaveTick mp env s input = some sent) (ho : o ∈ sent) :
    o.data = inputPacket mp ⟨ui.id, input.x, input.y⟩ := by
  unfold handleCmdSlaveTick at h
  rw [hui] at h
  dsimp only at h
  split at h
  · cases h
    exact absurd ho List.not_mem_nil
  · rename_i sbuf hpack
    split at h
    · cases h
      exact absurd ho List.not_mem_nil
    · rename_i o' hsend
      cases h
      obtain rfl := packed_eq_ok (emits_playerInput _) hpack
      obtain ⟨p, -, rfl⟩ := trySend_eq_ok hsend
      obtain rfl := List.mem_singleton.mp ho
      rfl

/-- **A call acts in the role of the client**, and leaves the role and, but for a master, the world
alone. -/
theorem tick_role {env : ClientEnv} {c : TickCall}
    (h : tryExecuteTick mp env s c = some (s', out)) :
    s'.myUserInfo = s.myUserInfo ∧ s'.lastPlayerInputs = s.lastPlayerInputs ∧
      (s.currentGameState = none → s'.currentGameState = none) ∧
      ∀ o, .sent o ∈ out → ∃ ui, s.myUserInfo = some ui ∧ ActsAs mp c ui o := by
  rcases tryExecuteTick_cases h with ⟨rfl, err, rfl⟩ |
    ⟨ui, gs, inputs, hui, hmaster, hgs, hin, rfl, rfl⟩ | ⟨ui, sent, hui, hslave, hsent, rfl, rfl⟩
  · refine ⟨rfl, rfl, id, fun o ho => ?_⟩
    cases List.mem_singleton.mp ho
  · refine ⟨rfl, rfl, fun hnone => absurd (hgs.symm.trans hnone) (by simp), fun o ho => ?_⟩
    exact ⟨ui, hui, .inl ⟨hmaster, _, sendGameState_sent ho⟩⟩
  · refine ⟨rfl, rfl, id, fun o ho => ⟨ui, hui, .inr ⟨hslave, ?_⟩⟩⟩
    rcases List.mem_append.mp ho with hmem | hmem
    · obtain ⟨o', ho', heq⟩ := List.mem_map.mp hmem
      cases heq
      exact slaveTick_sent hui hsent ho'
    · cases List.mem_singleton.mp hmem

/-- **What a packet does to the role and to the world.** -/
theorem receive_role {env : ClientEnv} {data : Bytes}
    (h : handleReceive mp env s data = some s') :
    s'.myUserInfo = (acceptedUserInfo mp (.receive env data)).or s.myUserInfo ∧
      ((∀ ui, acceptedUserInfo mp (.receive env data) = some ui → ui.isMaster = false) →
        s.currentGameState = none → s.lastPlayerInputs = none →
          s'.currentGameState = none ∧ s'.lastPlayerInputs = none) := by
  have hchanges := changes_receive h
  dsimp only [acceptedUserInfo]
  cases hrec : received mp env.net.reader data with
  | userInfo ui =>
    rw [hrec, Changes] at hchanges
    cases hmaster : ui.isMaster with
    | true =>
      rw [hmaster, if_pos rfl] at hchanges
      subst hchanges
      exact ⟨rfl, fun hno => absurd (hmaster.symm.trans (hno ui rfl)) (by simp)⟩
    | false =>
      rw [hmaster, if_neg Bool.false_ne_true] at hchanges
      subst hchanges
      exact ⟨rfl, fun _ hgs hin => ⟨hgs, hin⟩⟩
  | slaveConnected ui =>
    rw [handleReceive_slaveConnected hrec] at h
    cases h
    obtain ⟨hinfo, hinputs⟩ := handleOnSlaveConnected_frame ui s
    refine ⟨hinfo, fun _ hgs hin => ⟨?_, hinputs.trans hin⟩⟩
    unfold handleOnSlaveConnected
    rw [hgs]
    exact hgs
  | playerInput pi =>
    rw [hrec, Changes] at hchanges
    split at hchanges
    · obtain ⟨inputs, hin, rfl⟩ := hchanges
      exact ⟨rfl, fun _ _ hnone => absurd (hin.symm.trans hnone) (by simp)⟩
    · subst hchanges
      exact ⟨rfl, fun _ hgs hin => ⟨hgs, hin⟩⟩
  | ignored =>
    rw [hrec, Changes] at hchanges
    subst hchanges
    exact ⟨rfl, fun _ hgs hin => ⟨hgs, hin⟩⟩

/-! ## Over a run -/

variable {tr : List (Step Shared AtomicEvent ClientOutput)}

theorem assigned_snoc (tr : List (Step Shared AtomicEvent ClientOutput))
    (x : Step Shared AtomicEvent ClientOutput) :
    assigned mp (tr ++ [x]) = (acceptedUserInfo mp x.event).or (assigned mp tr) :=
  lastMatch_snoc _ tr x

/-- The client has never been told that it is the master. -/
def NeverMaster (mp : Msgpack) (tr : List (Step Shared AtomicEvent ClientOutput)) : Prop :=
  ∀ x ∈ tr, ∀ ui, acceptedUserInfo mp x.event = some ui → ui.isMaster = false

/-- The invariant between the steps so far and the globals. -/
structure RoleInv (mp : Msgpack) (tr : List (Step Shared AtomicEvent ClientOutput)) (s : Shared) :
    Prop where
  info : s.myUserInfo = assigned mp tr
  world : NeverMaster mp tr → s.currentGameState = none ∧ s.lastPlayerInputs = none

/-- **Every step keeps the role.** -/
theorem role_step (h : RoleInv mp tr s) (hs : (atomicClient mp).step s e = some (s', out)) :
    RoleInv mp (tr ++ [⟨s, e, out, s'⟩]) s' := by
  have hold : NeverMaster mp (tr ++ [⟨s, e, out, s'⟩]) →
      NeverMaster mp tr ∧ ∀ ui, acceptedUserInfo mp e = some ui → ui.isMaster = false :=
    fun hno => ⟨fun x hx => hno x (List.mem_append_left _ hx),
      hno _ (List.mem_append_right _ List.mem_cons_self)⟩
  cases e with
  | receive env data =>
    obtain ⟨s₁, hs₁, heq⟩ := Option.map_eq_some_iff.mp hs
    cases heq
    obtain ⟨hinfo, hworld⟩ := receive_role hs₁
    refine ⟨by rw [assigned_snoc, hinfo, h.info], fun hno => ?_⟩
    obtain ⟨hno₁, hno₂⟩ := hold hno
    obtain ⟨hgs, hin⟩ := h.world hno₁
    exact hworld hno₂ hgs hin
  | tick env c =>
    have hcall : tryExecuteTick mp env s c = some (s', out) := hs
    obtain ⟨hinfo, hinputs, hstate, -⟩ := tick_role hcall
    refine ⟨?_, fun hno => ?_⟩
    · rw [assigned_snoc, hinfo, h.info]
      rfl
    · obtain ⟨hgs, hin⟩ := h.world (hold hno).1
      exact ⟨hstate hgs, hinputs.trans hin⟩

theorem role_run (hr : Run (atomicClient mp) .init tr s) : RoleInv mp tr s :=
  hr.trace (I := RoleInv mp) (fun _ _ _ _ _ h hs => role_step h hs) ⟨rfl, fun _ => ⟨rfl, rfl⟩⟩

/-- **A client acts only in its role.** In every run of a client from its start: what a step sends,
it sends in a tick, and it is the state of a client whose last accepted `RES_USER_INFO` said that
it is the master, or the input of this tick under the id of one that said it is not; so nothing is
sent before the first. And a client that has never been told that it is the master has no world. -/
theorem role_of_run (hr : Run (atomicClient mp) .init tr s) :
    (∀ t₁ x t₂, tr = t₁ ++ x :: t₂ → ∀ o, .sent o ∈ x.out →
      ∃ env c ui, x.event = .tick env c ∧ assigned mp t₁ = some ui ∧ ActsAs mp c ui o) ∧
    (NeverMaster mp tr → s.currentGameState = none ∧ s.lastPlayerInputs = none) := by
  refine ⟨?_, (role_run hr).world⟩
  rintro t₁ ⟨pre, e, out, post⟩ t₂ rfl o ho
  obtain ⟨hbefore, hs, -⟩ := hr.split
  cases e with
  | receive env data =>
    obtain ⟨s₁, -, heq⟩ := Option.map_eq_some_iff.mp hs
    cases heq
    exact absurd ho List.not_mem_nil
  | tick env c =>
    have hcall : tryExecuteTick mp env pre c = some (post, out) := hs
    obtain ⟨-, -, -, hsent⟩ := tick_role hcall
    obtain ⟨ui, hui, hacts⟩ := hsent o ho
    exact ⟨env, c, ui, rfl, (role_run hbefore).info.symm.trans hui, hacts⟩

/-- A tick too early, slave 2, its tick, and the world another master sends it. -/
def slaveTwo : List AtomicEvent :=
  [.tick .ideal ⟨0, ⟨1, 0⟩⟩,
    .receive .ideal (frame .resUserInfo (some (userInfoBytes reference ⟨2, false⟩))),
    .tick .ideal ⟨1, ⟨0, -1⟩⟩,
    .receive .ideal (frame .gameStateUpd (some (gameStateBytes reference .zero)))]

/-- The packets a step sends. -/
def sentBy (x : Step Shared AtomicEvent ClientOutput) : List (Output Unit) :=
  x.out.filterMap fun
    | .sent o => some o
    | .returned _ => none

theorem mem_sentBy {x : Step Shared AtomicEvent ClientOutput} {o : Output Unit}
    (h : o ∈ sentBy x) : .sent o ∈ x.out := by
  obtain ⟨o', ho', hf⟩ := List.mem_filterMap.mp h
  cases o' with
  | sent q =>
    cases hf
    exact ho'
  | returned r => cases hf

theorem role_of_run_slaveTwo : ∃ tr s, Run (atomicClient reference) .init tr s ∧
    tr.map Step.event = slaveTwo ∧ s.currentGameState = none ∧ s.lastPlayerInputs = none ∧
    ∃ x ∈ tr, ∃ o, .sent o ∈ x.out ∧ o.data.head? = some MessageType.playerInput.toByte := by
  obtain ⟨tr, s, hr, hev, hQ⟩ := run_of_exec (atomicClient reference) .init slaveTwo
    (fun tr _ => (tr.all fun x => (acceptedUserInfo reference x.event).all fun ui =>
      !ui.isMaster) && tr.any fun x => !(sentBy x).isEmpty) (by decide +kernel)
  rw [Bool.and_eq_true] at hQ
  have hnever : NeverMaster reference tr := by
    intro x hx ui hui
    have hall := List.all_eq_true.mp hQ.1 x hx
    rw [hui] at hall
    simpa using hall
  obtain ⟨hroles, hworld⟩ := role_of_run hr
  obtain ⟨hgs, hin⟩ := hworld hnever
  obtain ⟨x, hx, hsent⟩ := List.any_eq_true.mp hQ.2
  obtain ⟨o, ho⟩ := List.exists_mem_of_ne_nil (sentBy x) (by simpa using hsent)
  obtain ⟨t₁, t₂, hsplit⟩ := List.append_of_mem hx
  obtain ⟨env, c, ui, -, hui, hacts⟩ := hroles t₁ x t₂ hsplit o (mem_sentBy ho)
  refine ⟨tr, s, hr, hev, hgs, hin, x, hx, o, mem_sentBy ho, ?_⟩
  -- it has never been a master, so what it sends is its input
  obtain ⟨y, hy, hyui⟩ := lastMatch_mem hui
  have hslave := hnever y (hsplit ▸ List.mem_append_left _ hy) ui hyui
  rcases hacts with ⟨hmaster, -⟩ | ⟨-, hdata⟩
  · exact absurd (hmaster.symm.trans hslave) (by simp)
  · rw [hdata]
    rfl

end MasterRelay.Client
