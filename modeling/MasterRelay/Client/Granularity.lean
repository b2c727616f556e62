import MasterRelay.Client.CallerSections
import MasterRelay.Client.NetSections

/-!
# Sections are atomic

The statements of the three threads, interleaved in any order, do nothing that the sections of
`Client/Threads.lean` do not do as single steps. By `Lib/Mutex.lean` a run of statements is a run of
whole sections; here each section is a step of the client, or none.

* `net_refines`, `caller_refines`: a section of a thread, or one of its statements outside the
  sections, is at most one step of the client.
* **`statements_refine`**: for every run of statements there is a run of the client that takes the
  same packets in the same order and in which each caller has the same outputs in the same order, up
  to what a thread has still to do; globals whose mutex is free are the same in both.
-/

namespace MasterRelay.Client

open MasterRelay.Lib.Memory
open MasterRelay.Lib.MsgPack
open MasterRelay.Lib.Mutex
open MasterRelay.Lib.Runs
open MasterRelay.Protocol

/-! ## What is seen -/

/-- The packets that are taken. -/
def packets : List Seen → List Bytes := List.filterMap fun
  | .received data => some data
  | .made _ _ => none

/-- The outputs of one thread. -/
def results (θ : Thread) : List Seen → List ClientOutput := List.filterMap fun
  | .received _ => none
  | .made θ' o => if θ' = θ then some o else none

/-- What is seen of a step of the client. -/
def seen (x : Step ClientState ClientEvent ClientOutput) : List Seen :=
  match x.event with
  | .receive _ data => [.received data]
  | .netSection _ => []
  | .call θ _ => x.out.map (.made θ)
  | .tickSection _ θ => x.out.map (.made θ)

theorem packets_made (θ : Thread) (os : List ClientOutput) : packets (os.map (.made θ)) = [] := by
  simp [packets, List.filterMap_map]

theorem results_made (θ θ' : Thread) (os : List ClientOutput) :
    results θ (os.map (.made θ')) = if θ' = θ then os else [] := by
  by_cases hθ : θ' = θ
  · simp [results, List.filterMap_map, hθ]
  · simp [results, List.filterMap_map, hθ]

theorem packets_append (xs ys : List Seen) : packets (xs ++ ys) = packets xs ++ packets ys :=
  List.filterMap_append

theorem results_append (θ : Thread) (xs ys : List Seen) :
    results θ (xs ++ ys) = results θ xs ++ results θ ys :=
  List.filterMap_append

/-! ## Sections and statements -/

/-- Between sections. -/
abbrev SectionsState : Type := Atomic ThreadId Mtx Cell Locals

/-- The globals, as pointers. -/
def globals (s : Shared) : ∀ l, Cell l
  | .myUserInfo => .ofOption s.myUserInfo
  | .currentGameState => .ofOption s.currentGameState
  | .lastPlayerInputs => .ofOption s.lastPlayerInputs

/-- Where the net thread stands, as the sections have it. -/
def netPc : NetLocal → NetPc
  | .testMaster usrInfo => if usrInfo.isMaster then .initGameState else .idle
  | .lockGameState => .initGameState
  | .lockInputs => .initPlayerInputs
  | _ => .idle

/-- Where a call stands, as the sections have it. -/
def callerPc : CallerLocal → TickPc
  | .branch c myUi => if myUi.isMaster then .copyState c else .slaveTick c
  | .lockCopy c => .copyState c
  | .addOwn c gs => .collectInputs c (ownInput c gs)
  | .lockCollect c gs => .collectInputs c gs
  | .lockWrite c gs => .writeBack c gs
  | .lockSend => .sendState
  | .lockId c => .slaveTick c
  | _ => .idle

/-- The packet whose handling has not changed anything yet. -/
def netPending : NetLocal → List Bytes
  | .readRole p _ _ => [p.data]
  | .dispatch p _ _ => [p.data]
  | .lockUserInfo p _ => [p.data]
  | .printGameState p => [p.data]
  | .lockConnected p _ => [p.data]
  | .readMaster p _ => [p.data]
  | .lockInput p _ => [p.data]
  | _ => []

/-- What that packet says. -/
def NetHandles (mp : Msgpack) (s : Shared) : NetLocal → Prop
  | .readRole p ty payload => ifbPtclTryParseMessageByType p.data = .ok (ty, payload)
  | .dispatch p ty payload => ifbPtclTryParseMessageByType p.data = .ok (ty, payload)
  | .lockUserInfo p ui => ∃ payload,
      ifbPtclTryParseMessageByType p.data = .ok (.resUserInfo, payload) ∧
        ifbFunTryUnpackUserInfo mp p.env.net.reader payload = .ok ui
  | .printGameState p => ∃ payload gs,
      ifbPtclTryParseMessageByType p.data = .ok (.gameStateUpd, payload) ∧
        ifbTryUnpackGameState mp p.env.net.reader payload = .ok gs
  | .lockConnected p ui => ∃ payload,
      ifbPtclTryParseMessageByType p.data = .ok (.slaveConnected, payload) ∧
        ifbFunTryUnpackUserInfo mp p.env.net.reader payload = .ok ui
  | .readMaster p payload => ifbPtclTryParseMessageByType p.data = .ok (.playerInput, payload)
  | .lockInput p pi => ∃ payload,
      ifbPtclTryParseMessageByType p.data = .ok (.playerInput, payload) ∧
        ifbTryUnpackPlayerInput mp p.env.net.reader payload = .ok pi ∧
        s.myUserInfo.any UserInfo.isMaster = true
  | _ => True

/-- **Between sections, the statements and the sections agree.** -/
structure Refines (mp : Msgpack) (a : SectionsState) (m : ClientState) : Prop where
  cell : a.cell = globals m.shared
  net : m.net = netPc (a.loc .net)
  packet : NetHandles mp m.shared (a.loc .net)
  tick : ∀ θ, m.tick θ = callerPc (a.loc (.caller θ))

/-- The client follows: from where the statements agree with `m`, it makes a run to where they agree
again, in which it takes the packets and makes the outputs that have become due. -/
def Follows (mp : Msgpack) (a a' : SectionsState) (out : List Seen) (m : ClientState) : Prop :=
  ∃ tu m', Run (client mp) m tu m' ∧ Refines mp a' m' ∧
    netPending (a.loc .net) ++ packets out =
      packets (tu.flatMap seen) ++ netPending (a'.loc .net) ∧
    ∀ θ, callerPending mp (a.loc (.caller θ)) ++ results θ (tu.flatMap seen) =
      results θ out ++ callerPending mp (a'.loc (.caller θ))

variable {mp : Msgpack} {a a' : SectionsState} {m m' : ClientState} {out : List Seen}
  {c : ∀ l, Cell l}

/-- The globals after one of them has changed. -/
theorem cell_userInfo {s : Shared} {o : Option UserInfo}
    (hframe : ∀ l ≠ .myUserInfo, c l = globals s l) (hc : c .myUserInfo = .ofOption o) :
    c = globals { s with myUserInfo := o } := by
  funext l
  cases l with
  | myUserInfo => exact hc
  | currentGameState => exact hframe _ (by simp)
  | lastPlayerInputs => exact hframe _ (by simp)

theorem cell_gameState {s : Shared} {o : Option GameState}
    (hframe : ∀ l ≠ .currentGameState, c l = globals s l)
    (hc : c .currentGameState = .ofOption o) : c = globals { s with currentGameState := o } := by
  funext l
  cases l with
  | myUserInfo => exact hframe _ (by simp)
  | currentGameState => exact hc
  | lastPlayerInputs => exact hframe _ (by simp)

theorem cell_inputs {s : Shared} {o : Option (Fin othersCount → PlayerInput)}
    (hframe : ∀ l ≠ .lastPlayerInputs, c l = globals s l)
    (hc : c .lastPlayerInputs = .ofOption o) : c = globals { s with lastPlayerInputs := o } := by
  funext l
  cases l with
  | myUserInfo => exact hframe _ (by simp)
  | currentGameState => exact hframe _ (by simp)
  | lastPlayerInputs => exact hc

/-- The globals after a section that has changed none. -/
theorem cell_same {s : Shared} {l : Mtx} (hframe : ∀ l' ≠ l, c l' = globals s l')
    (hc : c l = globals s l) : c = globals s := by
  funext l'
  by_cases hl : l' = l
  · subst hl
    exact hc
  · exact hframe l' hl

/-! ## The net thread -/

/-- A statement of the net thread that the client does not see. -/
theorem net_stutter (h : Refines mp a m) {x : NetLocal} (hpc : netPc x = netPc (a.loc .net))
    (hpacket : NetHandles mp m.shared x)
    (hpend : netPending (a.loc .net) ++ packets out = netPending x)
    (hout : ∀ θ, results θ out = []) :
    Follows mp a ⟨a.cell, Function.update a.loc .net x⟩ out m := by
  refine ⟨[], m, Run.nil m, ⟨h.cell, ?_, ?_, h.tick⟩, ?_, fun θ => ?_⟩
  · simp only [Function.update_self]
    exact h.net.trans hpc.symm
  · simp only [Function.update_self]
    exact hpacket
  · simp only [Function.update_self]
    exact hpend
  · rw [hout θ]
    exact List.append_nil _

/-- A step of the client's net thread, which takes the packet or none. -/
theorem net_follow (h : Refines mp a m) {x : NetLocal} {e : ClientEvent} {s : Shared}
    (hs : (client mp).step m e = some ({ m with shared := s, net := netPc x }, []))
    (hc : c = globals s) (hpacket : NetHandles mp s x)
    (hseen : ∀ θ, results θ (seen ⟨m, e, [], { m with shared := s, net := netPc x }⟩) = [])
    (hpend : netPending (a.loc .net) ++ packets out =
      packets (seen ⟨m, e, [], { m with shared := s, net := netPc x }⟩) ++ netPending x)
    (hout : ∀ θ, results θ out = []) :
    Follows mp a ⟨c, Function.update a.loc .net x⟩ out m := by
  refine ⟨_, _, Run.single hs, ⟨hc, ?_, ?_, h.tick⟩, ?_, fun θ => ?_⟩
  · simp only [Function.update_self]
  · simp only [Function.update_self]
    exact hpacket
  · simp only [Function.update_self, List.flatMap_cons, List.flatMap_nil, List.append_nil]
    exact hpend
  · simp only [List.flatMap_cons, List.flatMap_nil, List.append_nil]
    rw [hout θ, hseen θ]
    exact List.append_nil _

/-- The client handles a packet up to its first section. -/
theorem net_receive (h : Refines mp a m) {x : NetLocal} (env : ClientEnv) (data : Bytes)
    {s : Shared} (hidle : netPc (a.loc .net) = .idle)
    (hr : netReceive mp env m.shared data = some (s, netPc x)) (hc : c = globals s)
    (hpacket : NetHandles mp s x)
    (hpend : netPending (a.loc .net) ++ packets out = data :: netPending x)
    (hout : ∀ θ, results θ out = []) :
    Follows mp a ⟨c, Function.update a.loc .net x⟩ out m := by
  have hnet : m.net = .idle := h.net.trans hidle
  refine net_follow h (e := .receive env data) ?_ hc hpacket (fun θ => rfl) hpend hout
  simp only [client, clientStep, hnet, if_true, hr, Option.map_some]

/-- A packet that changes nothing. -/
theorem net_ignore (h : Refines mp a m) (env : ClientEnv) (data : Bytes)
    (hidle : netPc (a.loc .net) = .idle)
    (hr : netReceive mp env m.shared data = some (m.shared, .idle))
    (hpend : netPending (a.loc .net) ++ packets out = [data]) (hout : ∀ θ, results θ out = []) :
    Follows mp a ⟨a.cell, Function.update a.loc .net .poll⟩ out m :=
  net_receive h env data hidle hr h.cell trivial hpend hout

/-- The `switch`. -/
theorem dispatch_refines (h : Refines mp a m) {p : Packet} {ty : MessageType}
    {payload : Option Bytes} {x : NetLocal} (hloc : a.loc .net = .dispatch p ty payload)
    (hx : netDispatch mp p payload ty = some x) :
    Follows mp a ⟨a.cell, Function.update a.loc .net x⟩ [] m := by
  have hparse : ifbPtclTryParseMessageByType p.data = .ok (ty, payload) := by
    have hpacket := h.packet
    rwa [hloc] at hpacket
  have hidle : netPc (a.loc .net) = .idle := by rw [hloc]; rfl
  have hpend : netPending (a.loc .net) = [p.data] := by rw [hloc]; rfl
  have hignore : netReceive mp p.env m.shared p.data = some (m.shared, .idle) →
      Follows mp a ⟨a.cell, Function.update a.loc .net .poll⟩ [] m := fun hr =>
    net_ignore h p.env p.data hidle hr (by rw [hpend]; rfl) fun _ => rfl
  cases ty with
  | resUserInfo =>
    simp only [netDispatch] at hx
    split at hx
    · cases hx
    · rename_i err herr
      cases hx
      exact hignore (by simp only [netReceive, hparse, herr])
    · rename_i ui hui
      cases hx
      exact net_stutter h hidle.symm ⟨payload, hparse, hui⟩ (by rw [hpend]; rfl) fun _ => rfl
  | gameStateUpd =>
    simp only [netDispatch] at hx
    split at hx
    · cases hx
    · rename_i err herr
      cases hx
      exact hignore (by simp only [netReceive, hparse, herr])
    · rename_i gs hgs
      cases hx
      exact net_stutter h hidle.symm ⟨payload, gs, hparse, hgs⟩ (by rw [hpend]; rfl) fun _ => rfl
  | slaveConnected =>
    simp only [netDispatch] at hx
    split at hx
    · cases hx
    · rename_i err herr
      cases hx
      exact hignore (by simp only [netReceive, hparse, herr])
    · rename_i ui hui
      cases hx
      exact net_stutter h hidle.symm ⟨payload, hparse, hui⟩ (by rw [hpend]; rfl) fun _ => rfl
  | playerInput =>
    cases hx
    exact net_stutter h hidle.symm hparse (by rw [hpend]; rfl) fun _ => rfl
  | none =>
    cases hx
    exact hignore (by simp only [netReceive, hparse])
  | reqUserInfo =>
    cases hx
    exact hignore (by simp only [netReceive, hparse])

/-- A section of the net thread. -/
theorem netSection_refines (h : Refines mp a m) {es : List Outside} {l : Mtx} {next y z : NetLocal}
    (hi : netProgram mp (a.loc .net) = .lock l next)
    (hin : inside (clientProgram mp) .net es a.cell next = some (c, y))
    (hy : netProgram mp y = .unlock l z) :
    Follows mp a ⟨c, Function.update a.loc .net z⟩ [] m := by
  have hP := client_disciplined mp
  have hframe : ∀ l' ≠ l, c l' = globals m.shared l' := fun l' hl' =>
    ((inside_frame hP hin (hP.lock (θ := .net) hi).2).2 l' hl').trans (congrFun h.cell l')
  have hpacket := h.packet
  have hnet := h.net
  cases hloc : a.loc ThreadId.net with
  | lockUserInfo p ui =>
    rw [hloc] at hi hpacket
    cases hi
    obtain ⟨rfl, hc⟩ := userInfo_section hin hy
    obtain ⟨payload, hparse, hui⟩ := hpacket
    refine net_receive h { p.env with mallocUserInfo := true } p.data
      (by rw [hloc]; rfl) ?_ (cell_userInfo (o := some ui) hframe hc) trivial
      (by rw [hloc]; rfl) fun _ => rfl
    simp only [netReceive, hparse, hui, if_true, netPc]
  | lockGameState =>
    rw [hloc] at hi hnet
    cases hi
    obtain ⟨rfl, hc⟩ := initState_section hin hy
    rw [h.cell] at hc
    rcases hc with ⟨hne, hc⟩ | ⟨hnull, hc⟩
    · obtain ⟨gs, hgs⟩ := Option.ne_none_iff_exists'.mp
        fun hnone => hne (Pointer.ofOption_eq_null.mpr hnone)
      refine net_follow h (e := .netSection .ideal) (s := m.shared) ?_ (cell_same hframe hc) trivial
        (fun _ => rfl) (by rw [hloc]; rfl) fun _ => rfl
      simp only [client, clientStep, hnet, netPc, netSection, hgs, Option.map_some]
    · refine net_follow h (e := .netSection .ideal)
        (s := { m.shared with currentGameState := some .zero }) ?_ (cell_gameState hframe hc)
        trivial (fun _ => rfl) (by rw [hloc]; rfl) fun _ => rfl
      simp only [client, clientStep, hnet, netPc, netSection, Pointer.ofOption_eq_null.mp hnull]
      rfl
  | lockInputs =>
    rw [hloc] at hi hnet
    cases hi
    obtain ⟨rfl, hc⟩ := initInputs_section hin hy
    rw [h.cell] at hc
    rcases hc with hc | ⟨hnull, hc⟩
    · -- `LAST_PLAYER_INPUTS` was there, or `malloc` has failed
      refine net_follow h (e := .netSection { ClientEnv.ideal with mallocPlayerInputs := false })
        (s := m.shared) ?_ (cell_same hframe hc) trivial (fun _ => rfl) (by rw [hloc]; rfl)
        fun _ => rfl
      simp only [client, clientStep, hnet, netPc, netSection]
      cases m.shared.lastPlayerInputs <;> rfl
    · refine net_follow h (e := .netSection .ideal)
        (s := { m.shared with lastPlayerInputs := some initialInputs }) ?_ (cell_inputs hframe hc)
        trivial (fun _ => rfl) (by rw [hloc]; rfl) fun _ => rfl
      simp only [client, clientStep, hnet, netPc, netSection, Pointer.ofOption_eq_null.mp hnull]
      rfl
  | lockConnected p ui =>
    rw [hloc] at hi hpacket
    cases hi
    obtain ⟨rfl, hc⟩ := connected_section hin hy
    obtain ⟨payload, hparse, hui⟩ := hpacket
    refine net_receive h p.env p.data (s := handleOnSlaveConnected ui m.shared)
      (by rw [hloc]; rfl) (by simp only [netReceive, hparse, hui, netPc]) ?_ trivial
      (by rw [hloc]; rfl) fun _ => rfl
    rw [h.cell] at hc
    unfold handleOnSlaveConnected
    rcases hc with ⟨hno, hc⟩ | ⟨gs, k, hgs, hk, hc⟩
    · have hsame := cell_same hframe hc
      rcases hno with hnull | hnone
      · rwa [Pointer.ofOption_eq_null.mp hnull]
      · rw [hnone]
        split
        · rename_i hk
          cases hk
        · exact hsame
    · rw [Pointer.ofOption_eq_live.mp hgs, hk]
      exact cell_gameState hframe hc
  | lockInput p pi =>
    rw [hloc] at hi hpacket
    cases hi
    obtain ⟨rfl, hc⟩ := input_section hin hy
    obtain ⟨payload, hparse, hpi, hmaster⟩ := hpacket
    rw [h.cell] at hc
    rcases hc with ⟨hnone, hc⟩ | ⟨inputs, k, hinputs, hk, hc⟩
    · refine net_receive h p.env p.data (s := m.shared) (by rw [hloc]; rfl) ?_
        (cell_same hframe hc) trivial (by rw [hloc]; rfl) fun _ => rfl
      rw [receive_playerInput hmaster hparse hpi, updateGamesStateBySlaveInput, hnone]
      rfl
    · refine net_receive h p.env p.data (by rw [hloc]; rfl) ?_
        (cell_inputs (o := some _) hframe hc) trivial (by rw [hloc]; rfl) fun _ => rfl
      rw [receive_playerInput hmaster hparse hpi, updateGamesStateBySlaveInput, hk,
        Pointer.ofOption_eq_live.mp hinputs]
      rfl
  | storeUserInfo ui todo =>
    rw [hloc] at hi
    cases todo <;> cases hi
  | storeGameState todo =>
    rw [hloc] at hi
    cases todo <;> cases hi
  | storeInputs todo =>
    rw [hloc] at hi
    cases todo <;> cases hi
  | _ =>
    rw [hloc] at hi
    cases hi

/-- What the net thread reads from outside a section. -/
theorem netPeek_refines (h : Refines mp a m) {l : Mtx}
    {f : Outside → Cell l → Option (NetLocal × List Seen)} {e : Outside} {r : NetLocal × List Seen}
    (hi : netProgram mp (a.loc .net) = .peek l f) (hf : f e (a.cell l) = some r) :
    Follows mp a ⟨a.cell, Function.update a.loc .net r.1⟩ r.2 m := by
  have hpacket := h.packet
  cases hloc : a.loc ThreadId.net with
  | readRole p ty payload =>
    rw [hloc] at hi hpacket
    cases hi
    obtain ⟨b, -, rfl⟩ := Option.map_eq_some_iff.mp hf
    exact net_stutter h (by rw [hloc]; rfl) hpacket (by rw [hloc]; rfl) fun _ => rfl
  | printGameState p =>
    rw [hloc] at hi hpacket
    cases hi
    obtain ⟨b, -, rfl⟩ := Option.map_eq_some_iff.mp hf
    obtain ⟨payload, gs, hparse, hgs⟩ := hpacket
    exact net_ignore h p.env p.data (by rw [hloc]; rfl)
      (by simp only [netReceive, hparse, hgs]) (by rw [hloc]; rfl) fun _ => rfl
  | readMaster p payload =>
    rw [hloc] at hi hpacket
    cases hi
    have hparse : ifbPtclTryParseMessageByType p.data = .ok (.playerInput, payload) := hpacket
    have hcell : a.cell .myUserInfo = .ofOption m.shared.myUserInfo := congrFun h.cell _
    simp only [hcell] at hf
    have hnotMaster : m.shared.myUserInfo.any UserInfo.isMaster = false →
        Follows mp a ⟨a.cell, Function.update a.loc .net .poll⟩ [] m := fun hno =>
      net_ignore h p.env p.data (by rw [hloc]; rfl)
        (by simp [netReceive, hparse, hno]) (by rw [hloc]; rfl) fun _ => rfl
    cases hinfo : m.shared.myUserInfo with
    | none =>
      rw [hinfo] at hf
      cases hf
      exact hnotMaster (by rw [hinfo]; rfl)
    | some ui =>
      rw [hinfo] at hf
      cases hui : ui.isMaster with
      | false =>
        simp only [Pointer.ofOption, readIsMaster, hui] at hf
        cases hf
        exact hnotMaster (by rw [hinfo]; exact hui)
      | true =>
        have hmaster : m.shared.myUserInfo.any UserInfo.isMaster = true := by
          rw [hinfo]
          exact hui
        simp only [Pointer.ofOption, readIsMaster, hui] at hf
        obtain ⟨x, hx, rfl⟩ := Option.map_eq_some_iff.mp hf
        unfold netInput at hx
        split at hx
        · cases hx
        · rename_i err herr
          cases hx
          exact net_ignore h p.env p.data (by rw [hloc]; rfl)
            (by simp only [netReceive, hparse, hmaster, if_true, herr]) (by rw [hloc]; rfl)
            fun _ => rfl
        · rename_i pi hpi
          cases hx
          exact net_stutter h (by rw [hloc]; rfl) ⟨payload, hparse, hpi, hmaster⟩
            (by rw [hloc]; rfl) fun _ => rfl
  | storeUserInfo ui todo =>
    rw [hloc] at hi
    cases todo <;> cases hi
  | storeGameState todo =>
    rw [hloc] at hi
    cases todo <;> cases hi
  | storeInputs todo =>
    rw [hloc] at hi
    cases todo <;> cases hi
  | _ =>
    rw [hloc] at hi
    cases hi

/-- What the net thread does without touching a global. -/
theorem netFree_refines (h : Refines mp a m) {f : Outside → Option (NetLocal × List Seen)}
    {e : Outside} {r : NetLocal × List Seen} (hi : netProgram mp (a.loc .net) = .free f)
    (hf : f e = some r) : Follows mp a ⟨a.cell, Function.update a.loc .net r.1⟩ r.2 m := by
  cases hloc : a.loc ThreadId.net with
  | poll =>
    rw [hloc] at hi
    cases hi
    simp only at hf
    split at hf
    · rename_i err herr
      cases hf
      exact net_ignore h e.env e.data (by rw [hloc]; rfl)
        (by simp only [netReceive, herr]) (by rw [hloc]; rfl) fun _ => rfl
    · rename_i ty payload hparse
      cases hf
      exact net_stutter h (by rw [hloc]; rfl) hparse (by rw [hloc]; rfl) fun _ => rfl
  | dispatch p ty payload =>
    rw [hloc] at hi
    cases hi
    obtain ⟨x, hx, rfl⟩ := Option.map_eq_some_iff.mp hf
    exact dispatch_refines h hloc hx
  | testMaster ui =>
    rw [hloc] at hi
    cases hi
    cases hf
    refine net_stutter h ?_ ?_ ?_ fun _ => rfl
    · rw [hloc]
      cases hui : ui.isMaster <;> simp [netPc, hui]
    · cases ui.isMaster <;> exact trivial
    · rw [hloc]
      cases ui.isMaster <;> rfl
  | storeUserInfo ui todo =>
    rw [hloc] at hi
    cases todo <;> cases hi
  | storeGameState todo =>
    rw [hloc] at hi
    cases todo <;> cases hi
  | storeInputs todo =>
    rw [hloc] at hi
    cases todo <;> cases hi
  | _ =>
    rw [hloc] at hi
    cases hi

/-- **The net thread**, a section or another statement at a time. -/
theorem net_refines (h : Refines mp a m) {es : List Outside}
    (hs : (sections (clientProgram mp)).step a ⟨.net, es⟩ = some (a', out)) :
    Follows mp a a' out m := by
  rcases section_cases hs with ⟨l, next, c, y, z, hi, hin, hy, rfl, rfl⟩ |
    ⟨l, f, e, r, hi, -, hf, rfl, rfl⟩ | ⟨f, e, r, hi, -, hf, rfl, rfl⟩
  · exact netSection_refines h hi hin hy
  · exact netPeek_refines h hi hf
  · exact netFree_refines h hi hf

/-! ## The callers -/

variable {θ : Thread}

/-- What a packet says does not change while nobody replaces the user info. -/
theorem netHandles_congr {s s' : Shared} (hinfo : s'.myUserInfo = s.myUserInfo) {x : NetLocal}
    (h : NetHandles mp s x) : NetHandles mp s' x := by
  cases x with
  | lockInput p pi =>
    obtain ⟨payload, hparse, hpi, hmaster⟩ := h
    exact ⟨payload, hparse, hpi, hinfo ▸ hmaster⟩
  | _ => exact h

/-- Where the callers stand after one of them has moved. -/
theorem callerPc_update (h : Refines mp a m) (x : CallerLocal) (θ' : Thread) :
    Function.update m.tick θ (callerPc x) θ' =
      callerPc (Function.update a.loc (.caller θ) x (.caller θ')) := by
  by_cases hθ : θ' = θ
  · subst hθ
    simp only [Function.update_self]
  · have hne : ThreadId.caller θ' ≠ .caller θ := fun he => hθ (ThreadId.caller.inj he)
    simp only [Function.update_of_ne hθ, Function.update_of_ne hne]
    exact h.tick θ'

/-- A statement of a caller that the client does not see. -/
theorem caller_stutter (h : Refines mp a m) {x : CallerLocal} (os : List ClientOutput)
    (hc : c = globals m.shared) (hpc : callerPc x = callerPc (a.loc (.caller θ)))
    (hpend : callerPending mp (a.loc (.caller θ)) = os ++ callerPending mp x) :
    Follows mp a ⟨c, Function.update a.loc (.caller θ) x⟩ (os.map (.made θ)) m := by
  refine ⟨[], m, Run.nil m, ⟨hc, h.net, h.packet, fun θ' => ?_⟩, ?_, fun θ' => ?_⟩
  · rw [← callerPc_update h x θ', hpc, ← h.tick θ, Function.update_eq_self]
  · rw [packets_made]
    exact List.append_nil _
  · rw [results_made]
    by_cases hθ : θ' = θ
    · subst hθ
      simp only [Function.update_self, if_true]
      rw [hpend]
      exact List.append_nil _
    · have hne : ThreadId.caller θ' ≠ .caller θ := fun he => hθ (ThreadId.caller.inj he)
      simp only [Function.update_of_ne hne, if_neg (Ne.symm hθ)]
      exact List.append_nil _

/-- A section of a call, which the client makes as one step. -/
theorem caller_follow (h : Refines mp a m) {x : CallerLocal} {e : ClientEvent} {s : Shared}
    (hs : (client mp).step m e =
      some (⟨s, m.net, Function.update m.tick θ (callerPc x)⟩, callerPending mp x))
    (hc : c = globals s) (hinfo : s.myUserInfo = m.shared.myUserInfo)
    (hseen : ∀ m' os, seen ⟨m, e, os, m'⟩ = os.map (.made θ))
    (hpend : callerPending mp (a.loc (.caller θ)) = []) :
    Follows mp a ⟨c, Function.update a.loc (.caller θ) x⟩ [] m := by
  refine ⟨_, _, Run.single hs, ⟨hc, h.net, netHandles_congr hinfo h.packet, callerPc_update h x⟩,
    ?_, fun θ' => ?_⟩
  · simp only [List.flatMap_cons, List.flatMap_nil, List.append_nil, hseen, packets_made]
    exact List.append_nil _
  · simp only [List.flatMap_cons, List.flatMap_nil, List.append_nil, hseen, results_made]
    by_cases hθ : θ' = θ
    · subst hθ
      simp only [Function.update_self, if_true, hpend]
      rfl
    · have hne : ThreadId.caller θ' ≠ .caller θ := fun he => hθ (ThreadId.caller.inj he)
      simp only [Function.update_of_ne hne, if_neg (Ne.symm hθ)]
      exact List.append_nil _

/-- The next section of a call. -/
theorem caller_section (h : Refines mp a m) {x : CallerLocal} (env : ClientEnv) {s : Shared}
    (hs : tickSection mp env m.shared (callerPc (a.loc (.caller θ))) =
      some (s, callerPc x, callerPending mp x))
    (hc : c = globals s) (hinfo : s.myUserInfo = m.shared.myUserInfo)
    (hpend : callerPending mp (a.loc (.caller θ)) = []) :
    Follows mp a ⟨c, Function.update a.loc (.caller θ) x⟩ [] m := by
  refine caller_follow h (e := .tickSection env θ) ?_ hc hinfo (fun _ _ => rfl) hpend
  rw [← h.tick θ] at hs
  simp only [client, clientStep, hs, Option.map_some]

/-- `handle_cmd_slave_tick`, for the id it has read. -/
theorem slaveTick_packets {env : ClientEnv} {s : Shared} {ui : UserInfo}
    (hui : s.myUserInfo = some ui) (input : UserInput) :
    handleCmdSlaveTick mp env s input = some (slaveTickPackets mp env ui.id input) := by
  unfold handleCmdSlaveTick slaveTickPackets
  simp only [hui]
  cases packed env.net (ifbTryPackPlayerInput mp ⟨ui.id, input.x, input.y⟩) with
  | error err => rfl
  | ok sbuf =>
    simp only
    cases ifbPtclTrySendMsgPacket env.net .playerInput .streamPuppetInputs (some sbuf)
        env.clientPeer false false with
    | error err => rfl
    | ok o => rfl

/-- A section of a caller. -/
theorem callerSection_refines (h : Refines mp a m) {es : List Outside} {l : Mtx}
    {next y z : CallerLocal} (hi : callerProgram mp θ (a.loc (.caller θ)) = .lock l next)
    (hin : inside (clientProgram mp) (.caller θ) es a.cell next = some (c, y))
    (hy : callerProgram mp θ y = .unlock l z) :
    Follows mp a ⟨c, Function.update a.loc (.caller θ) z⟩ [] m := by
  have hP := client_disciplined mp
  have hframe : ∀ l' ≠ l, c l' = globals m.shared l' := fun l' hl' =>
    ((inside_frame hP hin (hP.lock (θ := .caller θ) hi).2).2 l' hl').trans (congrFun h.cell l')
  have hcell : ∀ l, a.cell l = globals m.shared l := fun l => congrFun h.cell l
  cases hloc : a.loc (.caller θ) with
  | lockReady k =>
    rw [hloc] at hi
    cases hi
    obtain ⟨hz, hc⟩ := ready_section hin hy
    have hsame := cell_same hframe (hc.trans (hcell _))
    rcases hz with rfl | rfl
    · exact caller_stutter h [] hsame (by rw [hloc]; rfl) (by rw [hloc]; rfl)
    · exact caller_stutter h [] hsame (by rw [hloc]; rfl) (by rw [hloc]; rfl)
  | lockInfo k =>
    rw [hloc] at hi
    cases hi
    obtain ⟨hc, hz⟩ := info_section hin hy
    have hsame := cell_same hframe (hc.trans (hcell _))
    have hidle : m.tick θ = .idle := by rw [h.tick θ, hloc]; rfl
    refine caller_follow h (e := .call θ k) ?_ hsame rfl (fun _ _ => rfl) (by rw [hloc]; rfl)
    simp only [client, clientStep, hidle, if_true, startTick]
    rw [hcell] at hz
    rcases hz with ⟨hnull, rfl⟩ | ⟨ui, hui, rfl⟩
    · rw [Pointer.ofOption_eq_null.mp hnull]
      rfl
    · rw [Pointer.ofOption_eq_live.mp hui]
      rfl
  | lockCopy k =>
    rw [hloc] at hi
    cases hi
    obtain ⟨hc, hz⟩ := copy_section hin hy
    have hsame := cell_same hframe (hc.trans (hcell _))
    refine caller_section h .ideal ?_ hsame rfl (by rw [hloc]; rfl)
    rw [hloc]
    rw [hcell] at hz
    simp only [callerPc, tickSection]
    rcases hz with ⟨hnull, rfl⟩ | ⟨gs, hgs, rfl⟩
    · rw [Pointer.ofOption_eq_null.mp hnull]
      rfl
    · rw [Pointer.ofOption_eq_live.mp hgs]
      rfl
  | lockCollect k gs =>
    rw [hloc] at hi
    cases hi
    obtain ⟨hc, inputs, hinputs, rfl⟩ := collect_section hin hy
    have hsame := cell_same hframe (hc.trans (hcell _))
    refine caller_section h .ideal ?_ hsame rfl (by rw [hloc]; rfl)
    rw [hloc]
    rw [hcell] at hinputs
    simp only [callerPc, tickSection, Pointer.ofOption_eq_live.mp hinputs]
    rfl
  | lockWrite k gs =>
    rw [hloc] at hi
    cases hi
    obtain ⟨rfl, hc, old, hold⟩ := write_section hin hy
    refine caller_section h .ideal ?_ (cell_gameState (o := some gs) hframe hc) rfl
      (by rw [hloc]; rfl)
    rw [hloc]
    rw [hcell] at hold
    simp only [callerPc, tickSection, Pointer.ofOption_eq_live.mp hold]
    rfl
  | lockSend =>
    rw [hloc] at hi
    cases hi
    obtain ⟨hc, hz⟩ := send_section hin hy
    have hsame := cell_same hframe (hc.trans (hcell _))
    rw [hcell] at hz
    rcases hz with ⟨hnull, rfl⟩ | ⟨env, gs, hgs, rfl⟩
    · refine caller_section h .ideal ?_ hsame rfl (by rw [hloc]; rfl)
      rw [hloc]
      simp only [callerPc, tickSection, Pointer.ofOption_eq_null.mp hnull]
      rfl
    · refine caller_section h env ?_ hsame rfl (by rw [hloc]; rfl)
      rw [hloc]
      simp only [callerPc, tickSection, Pointer.ofOption_eq_live.mp hgs]
      rfl
  | lockId k =>
    rw [hloc] at hi
    cases hi
    obtain ⟨hc, env, ui, hui, rfl⟩ := id_section hin hy
    have hsame := cell_same hframe (hc.trans (hcell _))
    refine caller_section h env ?_ hsame rfl (by rw [hloc]; rfl)
    rw [hloc]
    rw [hcell] at hui
    simp only [callerPc, tickSection, slaveTick_packets (Pointer.ofOption_eq_live.mp hui)]
    rfl
  | copyInfo k todo ui =>
    rw [hloc] at hi
    cases todo <;> cases hi
  | copyState k todo gs =>
    rw [hloc] at hi
    cases todo <;> cases hi
  | collect k gs todo inputs =>
    rw [hloc] at hi
    cases todo <;> cases hi
  | writeState todo gs =>
    rw [hloc] at hi
    cases todo <;> cases hi
  | copySend env todo gs =>
    rw [hloc] at hi
    cases todo <;> cases hi
  | _ =>
    rw [hloc] at hi
    cases hi

/-- What a caller does without touching a global. -/
theorem callerFree_refines (h : Refines mp a m) {f : Outside → Option (CallerLocal × List Seen)}
    {e : Outside} {r : CallerLocal × List Seen}
    (hi : callerProgram mp θ (a.loc (.caller θ)) = .free f) (hf : f e = some r) :
    Follows mp a ⟨a.cell, Function.update a.loc (.caller θ) r.1⟩ r.2 m := by
  cases hloc : a.loc (.caller θ) with
  | idle =>
    rw [hloc] at hi
    cases hi
    cases hf
    refine caller_stutter h [] h.cell ?_ ?_
    · rw [hloc]
      cases θ <;> rfl
    · rw [hloc]
      cases θ <;> rfl
  | branch k ui =>
    rw [hloc] at hi
    cases hi
    cases hf
    refine caller_stutter h [] h.cell ?_ ?_
    · rw [hloc]
      cases hui : ui.isMaster <;> simp [callerPc, hui]
    · rw [hloc]
      cases ui.isMaster <;> rfl
  | addOwn k gs =>
    rw [hloc] at hi
    cases hi
    cases hf
    exact caller_stutter h [] h.cell (by rw [hloc]; rfl) (by rw [hloc]; rfl)
  | send env gs =>
    rw [hloc] at hi
    cases hi
    cases hf
    exact caller_stutter h _ h.cell (by rw [hloc]; rfl)
      (by rw [hloc]; exact (List.append_nil _).symm)
  | sendInput env k id =>
    rw [hloc] at hi
    cases hi
    cases hf
    exact caller_stutter h _ h.cell (by rw [hloc]; rfl)
      (by rw [hloc]; exact (List.append_nil _).symm)
  | failed err =>
    rw [hloc] at hi
    cases hi
    cases hf
    exact caller_stutter h _ h.cell (by rw [hloc]; rfl)
      (by rw [hloc]; exact (List.append_nil _).symm)
  | copyInfo k todo ui =>
    rw [hloc] at hi
    cases todo <;> cases hi
  | copyState k todo gs =>
    rw [hloc] at hi
    cases todo <;> cases hi
  | collect k gs todo inputs =>
    rw [hloc] at hi
    cases todo <;> cases hi
  | writeState todo gs =>
    rw [hloc] at hi
    cases todo <;> cases hi
  | copySend env todo gs =>
    rw [hloc] at hi
    cases todo <;> cases hi
  | _ =>
    rw [hloc] at hi
    cases hi

/-- **A caller**, a section or another statement at a time. -/
theorem caller_refines (h : Refines mp a m) {es : List Outside}
    (hs : (sections (clientProgram mp)).step a ⟨.caller θ, es⟩ = some (a', out)) :
    Follows mp a a' out m := by
  rcases section_cases hs with ⟨l, next, c, y, z, hi, hin, hy, rfl, rfl⟩ |
    ⟨l, f, e, r, hi, -, hf, rfl, rfl⟩ | ⟨f, e, r, hi, -, hf, rfl, rfl⟩
  · exact callerSection_refines h hi hin hy
  · exact absurd (clientProgram_peek hi).1 (by simp)
  · exact callerFree_refines h hi hf

/-! ## Over every run -/

/-- A run of sections is a run of the client. -/
theorem sections_refine {tr : List (Step SectionsState (Σ _ : ThreadId, List Outside) Seen)}
    (hr : Run (sections (clientProgram mp)) a tr a') (h : Refines mp a m) :
    Follows mp a a' (outputs tr) m := by
  induction hr generalizing m with
  | nil => exact ⟨[], m, Run.nil m, h, by simp [outputs, packets], by simp [outputs, results]⟩
  | @cons a a₁ a₂ x out tr hs _ ih =>
    have hfirst : Follows mp a a₁ out m := by
      obtain ⟨θ, es⟩ := x
      cases θ with
      | net => exact net_refines h hs
      | caller θ => exact caller_refines h hs
    obtain ⟨tu, m₁, hrun, h₁, hpackets, hresults⟩ := hfirst
    obtain ⟨tv, m₂, hrun', h₂, hpackets', hresults'⟩ := ih h₁
    refine ⟨tu ++ tv, m₂, hrun.append hrun', h₂, ?_, fun θ => ?_⟩
    · simp only [outputs, List.flatMap_cons, List.flatMap_append, packets_append]
      rw [← List.append_assoc, hpackets, List.append_assoc, ← outputs, hpackets', List.append_assoc]
    · simp only [outputs, List.flatMap_cons, List.flatMap_append, results_append]
      rw [← List.append_assoc, hresults, List.append_assoc, hresults', ← outputs, List.append_assoc]

theorem netPending_length (x : NetLocal) : (netPending x).length ≤ 1 := by
  cases x <;> simp [netPending]

/-- A thread in a section, or before one, has nothing left to put out. -/
theorem callerPending_inside {x : CallerLocal} (hx : callerHolds x ≠ none) :
    callerPending mp x = [] := by
  cases x <;> first | rfl | exact absurd rfl hx

theorem callerPending_lock {x next : CallerLocal} {l : Mtx}
    (hx : callerProgram mp θ x = .lock l next) : callerPending mp x = [] := by
  cases x with
  | send env gs => cases hx
  | sendInput env k id => cases hx
  | failed err => cases hx
  | _ => rfl

/-- The start of the threads and of the sections. -/
theorem refines_init : Refines mp ⟨threadsInit.cell, threadsInit.loc⟩ ClientState.init where
  cell := by
    funext l
    cases l <;> rfl
  net := rfl
  packet := trivial
  tick _ := rfl

/-- **Sections are atomic.** For every run of the statements of the three threads there is a run of
the client, section by section, that takes the same packets in the same order but for one that has
not had an effect yet, and in which each of the callers has the same outputs in the same order but
for those it has still to make; the globals whose mutex is free are the same, and the threads that
are in no section are at the same place. -/
theorem statements_refine {s : ThreadsState}
    {tr : List (Step ThreadsState (Σ _ : ThreadId, Outside) Seen)}
    (hr : Run (machine (clientProgram mp)) threadsInit tr s) :
    ∃ tu m, Run (client mp) .init tu m ∧
      (∃ rest, packets (outputs tr) = packets (tu.flatMap seen) ++ rest ∧ rest.length ≤ 1 ∧
        (s.loc .net = .poll → rest = [])) ∧
      (∀ θ, results θ (tu.flatMap seen) =
        results θ (outputs tr) ++ callerPending mp (s.loc (.caller θ))) ∧
      (∀ l, s.owner l = none → s.cell l = globals m.shared l) ∧
      (netHolds (s.loc .net) = none → m.net = netPc (s.loc .net)) ∧
      ∀ θ, callerHolds (s.loc (.caller θ)) = none → m.tick θ = callerPc (s.loc (.caller θ)) := by
  obtain ⟨ta, a, hra, h, hout⟩ := reduce (client_disciplined mp) hr
    (reduces_init _ threadsInit_outside)
  obtain ⟨tu, m, hrun, href, hpackets, hresults⟩ := sections_refine hra refines_init
  rw [hout] at hpackets hresults
  refine ⟨tu, m, hrun, ⟨_, hpackets, netPending_length _, fun hpoll => ?_⟩, fun θ => ?_,
    fun l hl => ?_, fun hnet => ?_, fun θ hθ => ?_⟩
  · have hloc := h.outside .net (by rw [hpoll]; rfl)
    rw [hloc, hpoll]
    rfl
  · have hsame : callerPending mp (a.loc (.caller θ)) = callerPending mp (s.loc (.caller θ)) := by
      cases hin : callerHolds (s.loc (.caller θ)) with
      | none => rw [h.outside (.caller θ) hin]
      | some l =>
        obtain ⟨next, -, -, hlock, -⟩ := h.within (.caller θ) l hin
        rw [callerPending_lock hlock, callerPending_inside (by rw [hin]; simp)]
    exact (hresults θ).trans (by rw [hsame])
  · rw [← h.idle l hl, href.cell]
  · rw [href.net, h.outside .net hnet]
  · rw [href.tick θ, h.outside (.caller θ) hθ]

/-- The second packet has not had an effect yet. -/
theorem statements_refine_toldTwice :
    ∃ tr s, Run (machine (clientProgram reference)) threadsInit tr s ∧
      ∃ tu m, Run (client reference) .init tu m ∧ m.tick .main = .idle ∧
        ∃ rest, packets (outputs tr) = packets (tu.flatMap seen) ++ rest ∧ rest.length ≤ 1 := by
  obtain ⟨tr, s, hr, -, -, ⟨c, hmain⟩, -⟩ := toldTwice_run
  obtain ⟨tu, m, hrun, ⟨rest, hrest, hlen, -⟩, -, -, -, htick⟩ := statements_refine hr
  refine ⟨tr, s, hr, tu, m, hrun, ?_, rest, hrest, hlen⟩
  rw [htick .main (by rw [hmain]; rfl), hmain]
  rfl

end MasterRelay.Client
