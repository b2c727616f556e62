import MasterRelay.Client.Statements
import MasterRelay.Lib.Runs

/-!
# The handles and the threads that share them

`CLIENT_HOST` and `CLIENT_PEER` have no mutex. The net thread writes them, statement by statement;
the main thread and the tick thread read `CLIENT_PEER` when they send, and hand it to ENet a while
later. A host of `enet_host_create(NULL, 1, ..)` has one peer, which lives in it: `CLIENT_PEER` is
modelled by its host, and is gone when `enet_host_destroy` has been called for that.

The queue is left out: `DISCONNECT_N_FREE` is there when `main` has left its loop, and not before.

* `handlesSafe_step`, `handlesSafe_run`: where each pointer may dangle (`HandlesSafe`).
* **`handles_afterFree`**: who uses a host, or its peer, that has been destroyed.
-/

namespace MasterRelay.Client

open MasterRelay.Lib.Runs

variable {H : Type}

/-- Where the net thread is: in its loop, or before a statement of `handle_cmd_connect_to_host` or
`handle_cmd_disconnect_n_free`. -/
inductive HandleNetPc (H : Type) where
  | loop
  | connecting (client : H)
  | setHost (client : H)
  | setPeer (client : H)
  | hostDestroy
  | clearPeer
  | clearHost
  | setDisconnected
  deriving DecidableEq, Repr

/-- Where a call of `try_execute_tick` is: at `try_enet_peer_send` with the peer it has read, or at
its `enet_peer_send`. -/
inductive HandleCallPc (H : Type) where
  | idle
  | checking (peer : Option H)
  | sending (peer : H)
  deriving DecidableEq, Repr

/-- The hosts that are live, the globals, and the threads. -/
structure SharedHandles (H : Type) where
  live : H → Bool
  clientHost : Option H
  clientPeer : Option H
  isDisconnected : Bool
  net : HandleNetPc H
  call : Thread → HandleCallPc H
  /-- `main` has left its loop. -/
  exiting : Bool

/-- What a thread does next; `ok` is what ENet says. -/
inductive HandleEvent (H : Type) where
  | poll
  | connect (client : Option H)
  | request (ok : Bool)
  | disconnect
  | netStep (ok : Bool)
  | exit
  | call (θ : Thread)
  | check (θ : Thread) (ok : Bool)
  | send (θ : Thread)
  deriving DecidableEq, Repr

/-- A thread hands a host, or its peer, to ENet. -/
structure HandleUse (H : Type) where
  thread : ThreadId
  host : H
  deriving DecidableEq, Repr

/-- A pointer that is handed to ENet, unless it is NULL. -/
def handleUses (θ : ThreadId) (p : Option H) : List (HandleUse H) := (p.map fun h => ⟨θ, h⟩).toList

/-- `enet_host_flush`, after a send that has succeeded. -/
def flushUses (ok : Bool) (host : Option H) : List (HandleUse H) :=
  if ok then handleUses .net host else []

/-- Before the threads start. -/
def SharedHandles.init : SharedHandles H :=
  ⟨fun _ => false, none, none, false, .loop, fun _ => .idle, false⟩

variable [DecidableEq H]

/-- The next statement of the net thread inside a command. -/
def handleNetStep (s : SharedHandles H) (ok : Bool) :
    HandleNetPc H → Option (SharedHandles H × List (HandleUse H))
  | .loop => none
  -- an error exit leaves the host behind
  | .connecting client => some ({ s with net := if ok then .setHost client else .loop },
      handleUses .net (some client))
  | .setHost client => some ({ s with clientHost := some client, net := .setPeer client }, [])
  | .setPeer client => some ({ s with clientPeer := some client, net := .loop }, [])
  | .hostDestroy => some ({ s with
      live := (s.clientHost.map fun h => Function.update s.live h false).getD s.live,
      net := .clearPeer }, handleUses .net s.clientHost)
  | .clearPeer => some ({ s with clientPeer := none, net := .clearHost }, [])
  | .clearHost => some ({ s with clientHost := none, net := .setDisconnected }, [])
  | .setDisconnected => some ({ s with isDisconnected := true, net := .loop }, [])

/-- One step. -/
def sharedHandlesStep (s : SharedHandles H) :
    HandleEvent H → Option (SharedHandles H × List (HandleUse H))
  | .poll =>
    if s.net = .loop ∧ s.isDisconnected = false then some (s, handleUses .net s.clientHost)
    else none
  | .connect client =>
    if s.net = .loop ∧ s.isDisconnected = false then
      match client with
      | none => some (s, [])
      | some client =>
        if s.live client then none
        else some ({ s with live := Function.update s.live client true, net := .connecting client },
          [])
    else none
  | .request ok =>
    if s.net = .loop ∧ s.isDisconnected = false then
      match s.clientPeer with
      | none => some (s, [])
      | some peer => some (s, handleUses .net (some peer) ++ flushUses ok s.clientHost)
    else none
  | .disconnect =>
    if s.net = .loop ∧ s.isDisconnected = false ∧ s.exiting = true then
      some ({ s with net := .hostDestroy },
        handleUses .net s.clientPeer ++ handleUses .net s.clientHost)
    else none
  | .netStep ok => handleNetStep s ok s.net
  | .exit =>
    if s.exiting = false ∧ s.call .main = .idle then some ({ s with exiting := true }, []) else none
  | .call θ =>
    if s.call θ = .idle ∧ (θ = .main → s.exiting = false) then
      some ({ s with call := Function.update s.call θ (.checking s.clientPeer) }, [])
    else none
  | .check θ ok =>
    match s.call θ with
    | .checking (some peer) =>
      some ({ s with call := Function.update s.call θ (if ok then .sending peer else .idle) },
        handleUses (.caller θ) (some peer))
    | .checking none => some ({ s with call := Function.update s.call θ .idle }, [])
    | _ => none
  | .send θ =>
    match s.call θ with
    | .sending peer =>
      some ({ s with call := Function.update s.call θ .idle }, handleUses (.caller θ) (some peer))
    | _ => none

/-- **The handles, with the threads that share them.** -/
def sharedHandles : System (SharedHandles H) (HandleEvent H) (HandleUse H) := ⟨sharedHandlesStep⟩

/-- The steps of the handles. -/
abbrev HandleMove (H : Type) : Type := Step (SharedHandles H) (HandleEvent H) (HandleUse H)

/-- The peer a call holds. -/
def heldPeer : HandleCallPc H → Option H
  | .idle => none
  | .checking peer => peer
  | .sending peer => some peer

/-- The events of the net thread. -/
def HandleEvent.isNet : HandleEvent H → Bool
  | .poll => true
  | .connect _ => true
  | .request _ => true
  | .disconnect => true
  | .netStep _ => true
  | .exit => false
  | .call _ => false
  | .check _ _ => false
  | .send _ => false

/-- The net thread calls `enet_host_destroy` for the host. -/
def Destroys (h : H) (x : HandleMove H) : Prop :=
  x.event.isNet = true ∧ x.pre.net = .hostDestroy ∧ x.pre.clientHost = some h

/-- The tick thread starts a call. -/
def TickStarts (x : HandleMove H) : Prop := x.event = .call .tickLoop

/-- The tick thread starts a call and reads the peer of the host. -/
def TickReads (h : H) (x : HandleMove H) : Prop := TickStarts x ∧ x.pre.clientPeer = some h

/-! ## Where a pointer may dangle -/

/-- The handles agree, and are live. -/
def Published (s : SharedHandles H) : Prop :=
  s.clientPeer = s.clientHost ∧ ∀ h, s.clientHost = some h → s.live h = true

/-- **What the net thread can count on**, statement by statement. -/
def NetSafe (s : SharedHandles H) : HandleNetPc H → Prop
  | .loop => Published s ∧ (s.isDisconnected = true → s.clientHost = none ∧ s.exiting = true)
  | .connecting client => Published s ∧ s.live client = true ∧ s.isDisconnected = false
  | .setHost client => Published s ∧ s.live client = true ∧ s.isDisconnected = false
  -- `CLIENT_PEER` is still that of the host before
  | .setPeer client => s.clientHost = some client ∧ s.live client = true ∧
      (∀ h, s.clientPeer = some h → s.live h = true) ∧ s.isDisconnected = false
  | .hostDestroy => Published s ∧ s.isDisconnected = false ∧ s.exiting = true
  | .clearPeer => s.exiting = true
  | .clearHost => s.exiting = true ∧ s.clientPeer = none
  | .setDisconnected => s.exiting = true ∧ s.clientPeer = none ∧ s.clientHost = none

/-- **The net thread is safe, and `main` has left its loop before anything is destroyed.** -/
structure HandlesSafe (s : SharedHandles H) : Prop where
  net : NetSafe s s.net
  main : ∀ h, heldPeer (s.call .main) = some h → s.live h = true
  exits : s.exiting = true → s.call .main = .idle

variable {s s' : SharedHandles H} {e : HandleEvent H} {out : List (HandleUse H)}

omit [DecidableEq H] in
theorem handlesSafe_init : HandlesSafe (SharedHandles.init : SharedHandles H) where
  net := ⟨⟨rfl, fun h hh => by cases hh⟩, fun hd => by cases hd⟩
  main h hh := by cases hh
  exits he := by cases he

omit [DecidableEq H] in
theorem mem_handleUses {θ : ThreadId} {p : Option H} {u : HandleUse H}
    (hu : u ∈ handleUses θ p) : u.thread = θ ∧ p = some u.host := by
  obtain ⟨h, hp, rfl⟩ := Option.map_eq_some_iff.mp (Option.mem_toList.mp hu)
  exact ⟨rfl, hp⟩

/-- **All a step of the net thread does**: it stays safe, uses what is live, and destroys nothing
but what `handle_cmd_disconnect_n_free` does. -/
structure NetStep (s : SharedHandles H) (out : List (HandleUse H)) (s' : SharedHandles H) :
    Prop where
  safe : NetSafe s' s'.net
  uses : ∀ u ∈ out, u.thread = .net ∧ s.live u.host = true
  call : s'.call = s.call
  exiting : s'.exiting = s.exiting
  live : ∀ h, s.live h = true → s'.live h = true ∨ s.net = .hostDestroy ∧ s.clientHost = some h
  peer : ∀ h, s'.clientPeer = some h → s.clientPeer = some h ∨ s'.live h = true

omit [DecidableEq H] in
/-- The uses of a published handle. -/
theorem published_uses (h : Published s) {u : HandleUse H}
    (hu : u ∈ handleUses .net s.clientPeer ++ handleUses .net s.clientHost) :
    u.thread = .net ∧ s.live u.host = true := by
  rcases List.mem_append.mp hu with hpeer | hhost
  · obtain ⟨hθ, hp⟩ := mem_handleUses hpeer
    exact ⟨hθ, h.2 _ (h.1 ▸ hp)⟩
  · obtain ⟨hθ, hp⟩ := mem_handleUses hhost
    exact ⟨hθ, h.2 _ hp⟩

/-- A statement of a command. -/
theorem handleNetStep_safe {ok : Bool} (h : NetSafe s s.net)
    (hs : handleNetStep s ok s.net = some (s', out)) : NetStep s out s' := by
  cases hpc : s.net with
  | loop =>
    rw [hpc] at hs
    cases hs
  | connecting client =>
    rw [hpc] at h hs
    cases hs
    obtain ⟨hpub, hlive, hconn⟩ := h
    refine ⟨?_, fun u hu => ?_, rfl, rfl, fun h hh => .inl hh, fun h hh => .inl hh⟩
    · cases ok with
      | true => exact ⟨hpub, hlive, hconn⟩
      | false => exact ⟨hpub, fun hd => absurd (hconn.symm.trans hd) (by simp)⟩
    · obtain ⟨hθ, hp⟩ := mem_handleUses hu
      exact ⟨hθ, Option.some.inj hp ▸ hlive⟩
  | setHost client =>
    rw [hpc] at h hs
    cases hs
    obtain ⟨hpub, hlive, hconn⟩ := h
    exact ⟨⟨rfl, hlive, fun h hh => hpub.2 h (hpub.1 ▸ hh), hconn⟩,
      fun u hu => absurd hu List.not_mem_nil, rfl, rfl, fun h hh => .inl hh, fun h hh => .inl hh⟩
  | setPeer client =>
    rw [hpc] at h hs
    cases hs
    obtain ⟨hhost, hlive, -, hconn⟩ := h
    have hall : ∀ h, some client = some h → s.live h = true := fun h hh =>
      Option.some.inj hh ▸ hlive
    exact ⟨⟨⟨hhost.symm, fun h hh => hall h (hhost.symm.trans hh)⟩, fun hd =>
        absurd (hconn.symm.trans hd) (by simp)⟩, fun u hu => absurd hu List.not_mem_nil, rfl, rfl,
      fun h hh => .inl hh, fun h hh => .inr (hall h hh)⟩
  | hostDestroy =>
    rw [hpc] at h hs
    cases hs
    obtain ⟨hpub, -, hexit⟩ := h
    refine ⟨hexit, fun u hu => ?_, rfl, rfl, fun h hh => ?_, fun h hh => .inl hh⟩
    · exact published_uses hpub (List.mem_append_right _ hu)
    · by_cases hhost : s.clientHost = some h
      · exact .inr ⟨hpc, hhost⟩
      · left
        cases hgone : s.clientHost with
        | none => exact hh
        | some g =>
          have hne : h ≠ g := fun heq => hhost (heq ▸ hgone)
          exact (Function.update_of_ne hne _ _).trans hh
  | clearPeer =>
    rw [hpc] at h hs
    cases hs
    exact ⟨⟨h, rfl⟩, fun u hu => absurd hu List.not_mem_nil, rfl, rfl, fun h hh => .inl hh,
      fun h hh => by cases hh⟩
  | clearHost =>
    rw [hpc] at h hs
    cases hs
    exact ⟨⟨h.1, h.2, rfl⟩, fun u hu => absurd hu List.not_mem_nil, rfl, rfl, fun h hh => .inl hh,
      fun h hh => .inl hh⟩
  | setDisconnected =>
    rw [hpc] at h hs
    cases hs
    obtain ⟨hexit, hpeer, hhost⟩ := h
    exact ⟨⟨⟨hpeer.trans hhost.symm, fun h hh => by rw [hhost] at hh; cases hh⟩,
        fun _ => ⟨hhost, hexit⟩⟩, fun u hu => absurd hu List.not_mem_nil, rfl, rfl,
      fun h hh => .inl hh, fun h hh => .inl hh⟩

omit [DecidableEq H] in
/-- A step that only uses handles. -/
theorem netStep_same (h : NetSafe s s.net)
    (huses : ∀ u ∈ out, u.thread = .net ∧ s.live u.host = true) : NetStep s out s :=
  ⟨h, huses, rfl, rfl, fun _ hh => .inl hh, fun _ hh => .inl hh⟩

/-- **A step of the net thread.** -/
theorem netStep_safe (h : NetSafe s s.net) (hs : sharedHandles.step s e = some (s', out))
    (hnet : e.isNet = true) : NetStep s out s' := by
  cases e with
  | poll =>
    simp only [sharedHandles, sharedHandlesStep] at hs
    split_ifs at hs with hloop
    cases hs
    refine netStep_same h fun u hu => ?_
    rw [hloop.1] at h
    exact published_uses h.1 (List.mem_append_right _ hu)
  | connect client =>
    simp only [sharedHandles, sharedHandlesStep] at hs
    split_ifs at hs with hloop
    split at hs
    · cases hs
      exact netStep_same h fun u hu => absurd hu List.not_mem_nil
    · rename_i client
      split_ifs at hs with hlive
      cases hs
      rw [hloop.1] at h
      -- what is live stays live, and the new host is
      have hkept : ∀ g, s.live g = true → Function.update s.live client true g = true := by
        intro g hg
        by_cases hgc : g = client
        · subst hgc
          exact Function.update_self ..
        · rw [Function.update_of_ne hgc]
          exact hg
      exact ⟨⟨⟨h.1.1, fun g hg => hkept g (h.1.2 g hg)⟩, Function.update_self .., hloop.2⟩,
        fun u hu => absurd hu List.not_mem_nil, rfl, rfl, fun g hg => .inl (hkept g hg),
        fun g hg => .inl hg⟩
  | request ok =>
    simp only [sharedHandles, sharedHandlesStep] at hs
    split_ifs at hs with hloop
    split at hs
    · cases hs
      exact netStep_same h fun u hu => absurd hu List.not_mem_nil
    · rename_i peer hpeer
      cases hs
      refine netStep_same h fun u hu => ?_
      rw [hloop.1] at h
      refine published_uses h.1 (List.mem_append.mpr ?_)
      rcases List.mem_append.mp hu with hsend | hflush
      · exact .inl (hpeer.symm ▸ hsend)
      · unfold flushUses at hflush
        split_ifs at hflush
        · exact .inr hflush
        · exact absurd hflush List.not_mem_nil
  | disconnect =>
    simp only [sharedHandles, sharedHandlesStep] at hs
    split_ifs at hs with hloop
    cases hs
    rw [hloop.1] at h
    exact ⟨⟨h.1, hloop.2.1, hloop.2.2⟩, fun u hu => published_uses h.1 hu, rfl, rfl,
      fun g hg => .inl hg, fun g hg => .inl hg⟩
  | netStep ok => exact handleNetStep_safe h hs
  | exit => cases hnet
  | call θ => cases hnet
  | check θ ok => cases hnet
  | send θ => cases hnet

/-- **All a step of `main` or of a call does**: the net thread's part stays; a call holds what it
held, or what it has just read, and uses what it holds. -/
structure CallStep (s : SharedHandles H) (e : HandleEvent H) (out : List (HandleUse H))
    (s' : SharedHandles H) : Prop where
  live : s'.live = s.live
  host : s'.clientHost = s.clientHost
  peer : s'.clientPeer = s.clientPeer
  disconnected : s'.isDisconnected = s.isDisconnected
  net : s'.net = s.net
  held : ∀ θ h, heldPeer (s'.call θ) = some h →
    heldPeer (s.call θ) = some h ∧ e ≠ .call θ ∨
      e = .call θ ∧ s.clientPeer = some h ∧ (θ = .main → s.exiting = false)
  uses : ∀ u ∈ out, ∃ θ, u.thread = .caller θ ∧ heldPeer (s.call θ) = some u.host
  stays : s.exiting = true → s'.exiting = true
  exits : (s.exiting = true → s.call .main = .idle) → s'.exiting = true → s'.call .main = .idle

omit [DecidableEq H] in
/-- What the threads hold after one of them has moved. -/
theorem held_update {θ θ' : Thread} {pc : HandleCallPc H} {h : H}
    (hh : heldPeer (Function.update s.call θ pc θ') = some h) :
    heldPeer (s.call θ') = some h ∧ θ' ≠ θ ∨ θ' = θ ∧ heldPeer pc = some h := by
  by_cases hθ : θ' = θ
  · subst hθ
    rw [Function.update_self] at hh
    exact .inr ⟨rfl, hh⟩
  · rw [Function.update_of_ne hθ] at hh
    exact .inl ⟨hh, hθ⟩

omit [DecidableEq H] in
/-- A call that goes on, and holds nothing new. -/
theorem callStep_goesOn {θ : Thread} {pc : HandleCallPc H} (hbusy : s.call θ ≠ .idle)
    (he : ∀ θ', e ≠ .call θ') (hpc : ∀ h, heldPeer pc = some h → heldPeer (s.call θ) = some h)
    (huses : ∀ u ∈ out, u.thread = .caller θ ∧ heldPeer (s.call θ) = some u.host) :
    CallStep s e out { s with call := Function.update s.call θ pc } := by
  refine ⟨rfl, rfl, rfl, rfl, rfl, fun θ' h hh => .inl ⟨?_, he θ'⟩, fun u hu => ⟨θ, huses u hu⟩,
    id, fun hexits hexit => ?_⟩
  · rcases held_update hh with ⟨hold, -⟩ | ⟨rfl, hnew⟩
    · exact hold
    · exact hpc h hnew
  · -- `main` has left its loop, so it is not the thread that goes on
    have hne : Thread.main ≠ θ := fun heq => hbusy (heq ▸ hexits hexit)
    exact (Function.update_of_ne hne _ _).trans (hexits hexit)

/-- **A step of `main` or of a call.** -/
theorem callStep_safe (hs : sharedHandles.step s e = some (s', out)) (hnet : e.isNet = false) :
    CallStep s e out s' := by
  cases e with
  | poll => cases hnet
  | connect client => cases hnet
  | request ok => cases hnet
  | disconnect => cases hnet
  | netStep ok => cases hnet
  | exit =>
    simp only [sharedHandles, sharedHandlesStep] at hs
    split_ifs at hs with hidle
    cases hs
    exact ⟨rfl, rfl, rfl, rfl, rfl, fun θ h hh => .inl ⟨hh, by simp⟩,
      fun u hu => absurd hu List.not_mem_nil, fun _ => rfl, fun _ _ => hidle.2⟩
  | call θ =>
    simp only [sharedHandles, sharedHandlesStep] at hs
    split_ifs at hs with hidle
    cases hs
    refine ⟨rfl, rfl, rfl, rfl, rfl, fun θ' h hh => ?_, fun u hu => absurd hu List.not_mem_nil, id,
      fun hexits hexit => ?_⟩
    · rcases held_update hh with ⟨hold, hne⟩ | ⟨rfl, hread⟩
      · exact .inl ⟨hold, by simpa using Ne.symm hne⟩
      · exact .inr ⟨rfl, hread, hidle.2⟩
    · have hne : Thread.main ≠ θ := fun heq => by
        rw [hidle.2 heq.symm] at hexit
        cases hexit
      exact (Function.update_of_ne hne _ _).trans (hexits hexit)
  | check θ ok =>
    simp only [sharedHandles, sharedHandlesStep] at hs
    split at hs
    · rename_i peer hpc
      cases hs
      refine callStep_goesOn (by simp [hpc]) (by simp) (fun h hh => ?_) fun u hu => ?_
      · rw [hpc]
        split_ifs at hh
        · exact hh
        · cases hh
      · rw [hpc]
        exact mem_handleUses hu
    · rename_i hpc
      cases hs
      exact callStep_goesOn (by simp [hpc]) (by simp) (fun h hh => by cases hh)
        fun u hu => absurd hu List.not_mem_nil
    · cases hs
  | send θ =>
    simp only [sharedHandles, sharedHandlesStep] at hs
    split at hs
    · rename_i peer hpc
      cases hs
      refine callStep_goesOn (by simp [hpc]) (by simp) (fun h hh => by cases hh) fun u hu => ?_
      rw [hpc]
      exact mem_handleUses hu
    · cases hs

omit [DecidableEq H] in
/-- Until `main` has left its loop, the peer is live. -/
theorem netSafe_peer (h : NetSafe s s.net) (hexit : s.exiting = false) {g : H}
    (hg : s.clientPeer = some g) : s.live g = true := by
  have hpub : Published s → s.live g = true := fun hp => hp.2 g (hp.1 ▸ hg)
  have hno : s.exiting ≠ true := by simp [hexit]
  cases hpc : s.net <;> rw [hpc] at h
  case loop => exact hpub h.1
  case connecting => exact hpub h.1
  case setHost => exact hpub h.1
  case setPeer => exact h.2.2.1 g hg
  case hostDestroy => exact absurd h.2.2 hno
  case clearPeer => exact absurd h hno
  case clearHost => exact absurd h.1 hno
  case setDisconnected => exact absurd h.1 hno

omit [DecidableEq H] in
/-- The net thread does not notice the other threads. -/
theorem netSafe_congr (h : NetSafe s s.net) (hstep : CallStep s e out s') : NetSafe s' s'.net := by
  have hpub : Published s → Published s' := by
    rintro ⟨hsame, hlive⟩
    rw [Published, hstep.peer, hstep.host, hstep.live]
    exact ⟨hsame, hlive⟩
  rw [hstep.net]
  cases hpc : s.net <;> rw [hpc] at h <;>
    simp only [NetSafe, hstep.host, hstep.peer, hstep.live, hstep.disconnected] at h ⊢
  case loop => exact ⟨hpub h.1, fun hd => ⟨(h.2 hd).1, hstep.stays (h.2 hd).2⟩⟩
  case connecting => exact ⟨hpub h.1, h.2⟩
  case setHost => exact ⟨hpub h.1, h.2⟩
  case setPeer => exact h
  case hostDestroy => exact ⟨hpub h.1, h.2.1, hstep.stays h.2.2⟩
  case clearPeer => exact hstep.stays h
  case clearHost => exact ⟨hstep.stays h.1, h.2⟩
  case setDisconnected => exact ⟨hstep.stays h.1, h.2⟩

/-- **Every step keeps it so.** -/
theorem handlesSafe_step (h : HandlesSafe s) (hs : sharedHandles.step s e = some (s', out)) :
    HandlesSafe s' := by
  cases hnet : e.isNet with
  | true =>
    have hstep := netStep_safe h.net hs hnet
    refine ⟨hstep.safe, fun g hg => ?_, fun hexit => ?_⟩
    · rw [hstep.call] at hg
      rcases hstep.live g (h.main g hg) with hlive | ⟨hpc, -⟩
      · exact hlive
      · -- nothing is destroyed while `main` may be in a call
        have hsafe := h.net
        rw [hpc] at hsafe
        rw [h.exits hsafe.2.2] at hg
        cases hg
    · rw [hstep.call]
      exact h.exits (hstep.exiting ▸ hexit)
  | false =>
    have hstep := callStep_safe hs hnet
    refine ⟨netSafe_congr h.net hstep, fun g hg => ?_, hstep.exits h.exits⟩
    rw [hstep.live]
    rcases hstep.held .main g hg with ⟨hold, -⟩ | ⟨-, hread, hexit⟩
    · exact h.main g hold
    · exact netSafe_peer h.net (hexit rfl) hread

/-! ## Over a run -/

/-- `enet_host_destroy` has been called. -/
def Cleared (s : SharedHandles H) : Prop :=
  s.net = .clearPeer ∨ s.net = .clearHost ∨ s.net = .setDisconnected ∨ s.isDisconnected = true

omit [DecidableEq H] in
theorem cleared_cases (h : NetSafe s s.net) (hc : Cleared s) :
    (s.net = .loop ∧ s.isDisconnected = true) ∨ s.net = .clearPeer ∨ s.net = .clearHost ∨
      s.net = .setDisconnected := by
  rcases hc with hpc | hpc | hpc | hd
  · exact .inr (.inl hpc)
  · exact .inr (.inr (.inl hpc))
  · exact .inr (.inr (.inr hpc))
  · cases hpc : s.net <;> rw [hpc] at h
    case loop => exact .inl ⟨rfl, hd⟩
    case connecting => cases h.2.2.symm.trans hd
    case setHost => cases h.2.2.symm.trans hd
    case setPeer => cases h.2.2.2.symm.trans hd
    case hostDestroy => cases h.2.1.symm.trans hd
    case clearPeer => exact .inr (.inl rfl)
    case clearHost => exact .inr (.inr (.inl rfl))
    case setDisconnected => exact .inr (.inr (.inr rfl))

/-- **Once only**: nothing is destroyed after that. -/
theorem cleared_step (h : NetSafe s s.net) (hc : Cleared s)
    (hs : sharedHandles.step s e = some (s', out)) :
    Cleared s' ∧ ∀ g, ¬ Destroys g ⟨s, e, out, s'⟩ := by
  have hcases := cleared_cases h hc
  have hloop : s.net = .loop → s.isDisconnected = true := fun hl => by
    rcases hcases with ⟨-, hd⟩ | hpc | hpc | hpc
    · exact hd
    · cases hl.symm.trans hpc
    · cases hl.symm.trans hpc
    · cases hl.symm.trans hpc
  constructor
  · cases hnet : e.isNet with
    | false =>
      have hstep := callStep_safe hs hnet
      rw [Cleared, hstep.net, hstep.disconnected]
      exact hc
    | true =>
      cases e with
      | poll =>
        simp only [sharedHandles, sharedHandlesStep] at hs
        split_ifs at hs
        cases hs
        exact hc
      | connect client =>
        simp only [sharedHandles, sharedHandlesStep] at hs
        split_ifs at hs with hguard
        cases (hloop hguard.1).symm.trans hguard.2
      | request ok =>
        simp only [sharedHandles, sharedHandlesStep] at hs
        split_ifs at hs
        split at hs <;> cases hs <;> exact hc
      | disconnect =>
        simp only [sharedHandles, sharedHandlesStep] at hs
        split_ifs at hs with hguard
        cases (hloop hguard.1).symm.trans hguard.2.1
      | netStep ok =>
        change handleNetStep s ok s.net = some (s', out) at hs
        rcases hcases with ⟨hpc, -⟩ | hpc | hpc | hpc <;> rw [hpc] at hs <;> cases hs
        · exact .inr (.inl rfl)
        · exact .inr (.inr (.inl rfl))
        · exact .inr (.inr (.inr rfl))
      | exit => cases hnet
      | call θ => cases hnet
      | check θ ok => cases hnet
      | send θ => cases hnet
  · rintro g ⟨-, hgone, -⟩
    have hgone' : s.net = .hostDestroy := hgone
    rcases hcases with ⟨hpc, -⟩ | hpc | hpc | hpc <;> cases hgone'.symm.trans hpc

theorem destroys_cleared (hs : sharedHandles.step s e = some (s', out)) {g : H}
    (hgone : Destroys g ⟨s, e, out, s'⟩) : Cleared s' := by
  obtain ⟨hnet, hpc, -⟩ := hgone
  change s.net = .hostDestroy at hpc
  cases e with
  | poll => simp [sharedHandles, sharedHandlesStep, hpc] at hs
  | connect client => simp [sharedHandles, sharedHandlesStep, hpc] at hs
  | request ok => simp [sharedHandles, sharedHandlesStep, hpc] at hs
  | disconnect => simp [sharedHandles, sharedHandlesStep, hpc] at hs
  | netStep ok =>
    change handleNetStep s ok s.net = some (s', out) at hs
    rw [hpc] at hs
    cases hs
    exact .inl rfl
  | exit => cases hnet
  | call θ => cases hnet
  | check θ ok => cases hnet
  | send θ => cases hnet

/-- The host is live, or has been destroyed. -/
def Accounts (tr : List (HandleMove H)) (s : SharedHandles H) (h : H) : Prop :=
  s.live h = true ∨ ∃ z ∈ tr, Destroys h z

/-- **What has become of the peers**: what `CLIENT_PEER` or a call of the tick thread points at is
live, or has been destroyed; that call has read it; and `enet_host_destroy` is called once. -/
structure HandlesPast (tr : List (HandleMove H)) (s : SharedHandles H) : Prop where
  safe : HandlesSafe s
  peer : ∀ h, s.clientPeer = some h → Accounts tr s h
  tick : ∀ h, heldPeer (s.call .tickLoop) = some h →
    Accounts tr s h ∧ Since (TickReads h) TickStarts tr
  once : ∀ t₁ z t₂ h, tr = t₁ ++ z :: t₂ → Destroys h z →
    Cleared s ∧ ∀ y ∈ t₂, ∀ g, ¬ Destroys g y

variable {tr : List (HandleMove H)}

theorem accounts_step (h : HandlesSafe s) (hs : sharedHandles.step s e = some (s', out)) {g : H}
    (hg : Accounts tr s g) : Accounts (tr ++ [⟨s, e, out, s'⟩]) s' g := by
  rcases hg with hlive | ⟨z, hz, hgone⟩
  · cases hnet : e.isNet with
    | true =>
      rcases (netStep_safe h.net hs hnet).live g hlive with hstays | hgone
      · exact .inl hstays
      · exact .inr ⟨_, List.mem_append_right _ List.mem_cons_self, hnet, hgone⟩
    | false =>
      rw [Accounts, (callStep_safe hs hnet).live]
      exact .inl hlive
  · exact .inr ⟨z, List.mem_append_left _ hz, hgone⟩

/-- **Every step keeps it so.** -/
theorem handlesPast_step (h : HandlesPast tr s) (hs : sharedHandles.step s e = some (s', out)) :
    HandlesPast (tr ++ [⟨s, e, out, s'⟩]) s' := by
  refine ⟨handlesSafe_step h.safe hs, fun g hg => ?_, fun g hg => ?_, ?_⟩
  · cases hnet : e.isNet with
    | true =>
      rcases (netStep_safe h.safe.net hs hnet).peer g hg with hold | hlive
      · exact accounts_step h.safe hs (h.peer g hold)
      · exact .inl hlive
    | false =>
      rw [(callStep_safe hs hnet).peer] at hg
      exact accounts_step h.safe hs (h.peer g hg)
  · cases hnet : e.isNet with
    | true =>
      rw [(netStep_safe h.safe.net hs hnet).call] at hg
      obtain ⟨hacc, hsince⟩ := h.tick g hg
      refine ⟨accounts_step h.safe hs hacc, since_snoc.mpr (.inr ⟨hsince, fun hstart => ?_⟩)⟩
      have he : e = .call .tickLoop := hstart
      rw [he] at hnet
      cases hnet
    | false =>
      rcases (callStep_safe hs hnet).held .tickLoop g hg with ⟨hold, hne⟩ | ⟨he, hread, -⟩
      · obtain ⟨hacc, hsince⟩ := h.tick g hold
        exact ⟨accounts_step h.safe hs hacc, since_snoc.mpr (.inr ⟨hsince, hne⟩)⟩
      · exact ⟨accounts_step h.safe hs (h.peer g hread), since_snoc.mpr (.inl ⟨he, hread⟩)⟩
  · intro t₁ z t₂ g htr hgone
    rcases List.eq_nil_or_concat t₂ with rfl | ⟨init, last, rfl⟩
    · obtain ⟨-, heq⟩ := List.append_inj' htr rfl
      cases heq
      exact ⟨destroys_cleared hs hgone, by simp⟩
    · rw [List.concat_eq_append, ← List.cons_append, ← List.append_assoc] at htr
      obtain ⟨hinit, heq⟩ := List.append_inj' htr rfl
      cases heq
      obtain ⟨hc, hrest⟩ := h.once t₁ z init g hinit hgone
      obtain ⟨hc', hlast⟩ := cleared_step h.safe.net hc hs
      refine ⟨hc', fun y hy => ?_⟩
      rw [List.concat_eq_append] at hy
      rcases List.mem_append.mp hy with hy | hy
      · exact hrest y hy
      · rw [List.mem_singleton.mp hy]
        exact hlast

/-- **Over every run.** -/
theorem handlesPast_run {tr : List (HandleMove H)} (hr : Run sharedHandles .init tr s) :
    HandlesPast tr s := by
  refine hr.trace (I := HandlesPast) (fun tr s e s' out h hs => handlesPast_step h hs) ?_
  exact ⟨handlesSafe_init, fun h hh => (by cases hh), fun h hh => (by cases hh),
    fun t₁ z t₂ h htr => absurd htr (by simp)⟩

/-- **Who uses what has been destroyed.** In every interleaving of the net thread's statements, the
calls of the main thread and those of the tick thread: a host, or its peer, that is handed to ENet
is live, unless the tick thread does it in a call that has read `CLIENT_PEER` before it was set to
NULL, and `enet_host_destroy` has been called since the host was made. That is called once in a run,
for a host that is live. -/
theorem handles_afterFree {tr : List (HandleMove H)} (hr : Run sharedHandles .init tr s) :
    ∀ t₁ x t₂, tr = t₁ ++ x :: t₂ →
      (∀ u ∈ x.out, x.pre.live u.host = true ∨ u.thread = .caller .tickLoop ∧
        (∃ z ∈ t₁, Destroys u.host z) ∧ Since (TickReads u.host) TickStarts t₁) ∧
      ∀ h, Destroys h x → x.pre.live h = true ∧ ∀ y ∈ t₂, ∀ g, ¬ Destroys g y := by
  rintro t₁ x t₂ htr
  have hall := handlesPast_run hr
  subst htr
  obtain ⟨hr₁, hs, -⟩ := hr.split
  have h := handlesPast_run hr₁
  refine ⟨fun u hu => ?_, fun g hgone => ⟨?_, (hall.once t₁ x t₂ g rfl hgone).2⟩⟩
  · cases hnet : x.event.isNet with
    | true => exact .inl ((netStep_safe h.safe.net hs hnet).uses u hu).2
    | false =>
      obtain ⟨θ, hθ, hheld⟩ := (callStep_safe hs hnet).uses u hu
      cases θ with
      | main => exact .inl (h.safe.main u.host hheld)
      | tickLoop =>
        obtain ⟨hlive | hgone, hsince⟩ := h.tick u.host hheld
        · exact .inl hlive
        · exact .inr ⟨hθ, hgone, hsince⟩
  · obtain ⟨-, hpc, hhost⟩ := hgone
    have hsafe := h.safe.net
    rw [hpc] at hsafe
    exact hsafe.1.2 g hhost

/-- `exit` is typed while the tick thread is in a call. -/
def exitInTick : List (HandleEvent Nat) :=
  [.connect (some 1), .netStep true, .netStep true, .netStep true, .call .tickLoop, .exit,
    .disconnect, .netStep true, .check .tickLoop true]

/-- The tick thread looks at a peer that is gone: it has read `CLIENT_PEER` before. -/
theorem handles_afterFree_exitInTick : ∃ tr, ∃ s : SharedHandles Nat, Run sharedHandles .init tr s ∧
    ∃ x ∈ tr, x.pre.live 1 = false ∧ ⟨.caller .tickLoop, 1⟩ ∈ x.out ∧
      ∃ y ∈ tr, TickReads 1 y := by
  obtain ⟨tr, s, hr, -, hQ⟩ := run_of_exec (sharedHandles (H := Nat)) .init exitInTick
    (fun tr _ => tr.any fun x => !x.pre.live 1 && decide (⟨.caller .tickLoop, 1⟩ ∈ x.out))
    (by decide +kernel)
  obtain ⟨x, hx, hboth⟩ := List.any_eq_true.mp hQ
  rw [Bool.and_eq_true, Bool.not_eq_true', decide_eq_true_eq] at hboth
  obtain ⟨hdead, huse⟩ := hboth
  obtain ⟨t₁, t₂, rfl⟩ := List.append_of_mem hx
  rcases (handles_afterFree hr t₁ x t₂ rfl).1 _ huse with hlive | ⟨-, -, hsince⟩
  · cases hdead.symm.trans hlive
  · obtain ⟨a, y, b, rfl, hread, -⟩ := hsince
    exact ⟨_, s, hr, x, hx, hdead, huse, y, by simp, hread⟩

end MasterRelay.Client
