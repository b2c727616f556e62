import MasterRelay.Client.Atomic
import MasterRelay.Game.Threaded

/-!
# Calls in one go

The closed system runs the handling of a packet, and a call of `try_execute_tick`, in one go. That
is one of the interleavings of the threads: a section leads to the next until the thread is idle.

* `thread_run`: the steps of one client, in the system.
* **`serial_run`**: a run of the closed system is one of its threads.
-/

namespace MasterRelay.Game

open MasterRelay.Client
open MasterRelay.Lib.MsgPack
open MasterRelay.Lib.Runs
open MasterRelay.Protocol
open MasterRelay.Server

variable {P : Type}

/-- Every thread is idle. -/
def Threaded.serial (w : Closed P) : Threaded P := ⟨w, fun _ => .idle, fun _ _ => .idle⟩

variable [DecidableEq P] {mp : Msgpack} {w : Threaded P} {p : P}

/-- The system after the client at `p` has become `m` and has sent `os`. -/
def Threaded.after (w : Threaded P) (p : P) (m : ClientState) (os : List ClientOutput) :
    Threaded P :=
  Threaded.setClient { w with closed := { w.closed with sent := launchFrom w.closed p os } } p m

theorem launchFrom_nil (c : Closed P) (p : P) : launchFrom c p [] = c.sent := by
  unfold launchFrom
  split_ifs
  · simp
  · rfl

theorem after_refl (w : Threaded P) (p : P) : w.after p (w.client p) [] = w := by
  simp [Threaded.after, Threaded.setClient, Threaded.client, launchFrom_nil]

/-- What is sent in two steps is sent. -/
theorem after_after (w : Threaded P) (p : P) (m m' : ClientState) (os os' : List ClientOutput) :
    (w.after p m os).after p m' os' = w.after p m' (os ++ os') := by
  simp only [Threaded.after, Threaded.setClient, Function.update_idem]
  congr 2
  show launchFrom _ p os' = launchFrom w.closed p (os ++ os')
  unfold launchFrom
  split_ifs <;> simp [*]

theorem after_client (w : Threaded P) (p : P) (m : ClientState) (os : List ClientOutput) :
    (w.after p m os).client p = m := by
  unfold Threaded.after
  rw [client_setClient, Function.update_self]

/-- A step of a client is one of the system. -/
theorem thread_step {e : ClientEvent} (hno : ∀ env d, e ≠ .receive env d) {m : ClientState}
    {os : List ClientOutput} (hs : clientStep mp (w.client p) e = some (m, os)) :
    (threaded mp).step w (.thread p e) = some (w.after p m os, os.map (.client p)) := by
  cases e with
  | receive env d => exact absurd rfl (hno env d)
  | netSection env => simp only [threaded, threadedStep, hs, Option.map_some, Threaded.after]
  | call θ c => simp only [threaded, threadedStep, hs, Option.map_some, Threaded.after]
  | tickSection env θ => simp only [threaded, threadedStep, hs, Option.map_some, Threaded.after]

/-- **The steps of one client.** -/
theorem thread_run {m m' : ClientState} {tr : List (Step ClientState ClientEvent ClientOutput)}
    (hr : Run (client mp) m tr m') (hno : NoPacket tr) :
    ∀ w : Threaded P, w.client p = m → ∃ tu, Run (threaded mp) w tu (w.after p m' (outputs tr)) ∧
      outputs tu = (outputs tr).map (.client p) := by
  induction hr with
  | nil m =>
    rintro w rfl
    exact ⟨[], (after_refl w p).symm ▸ Run.nil w, rfl⟩
  | @cons m m₁ m' e out tr hs _ ih =>
    rintro w rfl
    have hstep : (threaded mp).step w (.thread p e) = _ :=
      thread_step (hno _ List.mem_cons_self) hs
    obtain ⟨tu, hrun, hout⟩ := ih (fun x hx => hno x (List.mem_cons_of_mem _ hx)) (w.after p m₁ out)
      (after_client w p m₁ out)
    rw [after_after] at hrun
    refine ⟨_, Run.cons hstep hrun, ?_⟩
    unfold outputs at hout ⊢
    rw [List.flatMap_cons, List.flatMap_cons, hout, List.map_append]

/-! ## The events of the closed system -/

variable {c c' : Closed P} {out : List (ClosedOutput P)}

omit [DecidableEq P] in
theorem serial_client (c : Closed P) (p : P) :
    (Threaded.serial c).client p = idleClient (c.net.client p) := rfl

/-- The system where all threads are idle again. -/
theorem serial_after (c : Closed P) (p : P) (s : Shared) (os : List ClientOutput) :
    (Threaded.serial c).after p (idleClient s) os = .serial
      ⟨{ c.net with client := Function.update c.net.client p s }, launchFrom c p os⟩ := by
  have hnet : Function.update (fun _ : P => NetPc.idle) p .idle = fun _ => .idle :=
    Function.update_eq_self p _
  have htick : Function.update (fun (_ : P) (_ : Thread) => TickPc.idle) p (fun _ => .idle) =
      fun _ _ => .idle := Function.update_eq_self p _
  simp only [Threaded.after, Threaded.setClient, Threaded.serial, idleClient, hnet, htick]

theorem serial_link {e : LinkEvent P} (hs : (closed mp).step c e.closed = some (c', out)) :
    (threaded mp).step (.serial c) (.link e) = some (.serial c', out) := by
  have hstep : closedStep mp c e.closed = some (c', out) := hs
  simp only [threaded, threadedStep, Threaded.serial, hstep, Option.map_some, ite_self]

theorem serial_tick {env : ClientEnv} {call : TickCall}
    (hs : (closed mp).step c (.tick p env call) = some (c', out)) :
    ∃ tu, Run (threaded mp) (.serial c) tu (.serial c') ∧ outputs tu = out := by
  obtain ⟨o, s, hnet, -, hsent, rfl⟩ := closed_tick hs
  obtain ⟨s', htick, hw⟩ := network_tick hnet
  obtain ⟨tr, hrun, rfl, hno⟩ := tryExecuteTick_run htick
  obtain ⟨tu, htu, hout⟩ := thread_run hrun hno (.serial c) (serial_client c p)
  rw [serial_after, ← hw, ← hsent] at htu
  exact ⟨tu, htu, hout⟩

/-- A packet: its first section, then those of the initialisation. -/
theorem serial_deliver {ch : ChannelId} {i : Nat} {env : ClientEnv}
    (hs : (closed mp).step c (.deliver p ch i env) = some (c', out)) :
    ∃ tu, Run (threaded mp) (.serial c) tu (.serial c') ∧ outputs tu = out := by
  obtain ⟨⟨o, hnet⟩, hsent, rfl⟩ := closed_deliver hs
  obtain ⟨horder, d, s, hd, hreceive, hw⟩ := network_deliver hnet
  obtain ⟨s₁, pc, tr, hfirst, hrun, hout, hno⟩ := handleReceive_sections hreceive
  have hguard : ¬ (ch = .critical ∧ i ≠ 0) := fun h => h.2 (horder h.1)
  -- the packet is gone with the first section
  let c₁ : Closed P := { c with net := { c.net with
    flight := Function.update c.net.flight p (remove ch i (c.net.flight p)) } }
  have hstep : (threaded mp).step (.serial c) (.deliver p ch i env) =
      some ((Threaded.serial c₁).after p { idleClient s₁ with net := pc } [],
        ((printGameState mp env (c.net.client p) d).map (.printed p)).toList) := by
    have hclient : clientStep mp ((Threaded.serial c).client p) (.receive env d) =
        some ({ idleClient s₁ with net := pc }, []) := receive_step hfirst
    have hflight : ((Threaded.serial c).closed.net.flight p ch)[i]? = some d := hd
    simp only [threaded, threadedStep, hguard, if_false, hflight, hclient, Option.map_some,
      Threaded.after, launchFrom_nil]
    rfl
  obtain ⟨tu, htu, houtu⟩ := thread_run hrun hno _ (after_client (.serial c₁) p _ [])
  rw [hout, after_after, serial_after] at htu
  have hend : (⟨{ c₁.net with client := Function.update c₁.net.client p s },
      launchFrom c₁ p ([] ++ [])⟩ : Closed P) = c' := by
    rw [List.append_nil, launchFrom_nil]
    cases c'
    cases hw
    cases hsent
    rfl
  rw [hend] at htu
  refine ⟨_, Run.cons hstep htu, ?_⟩
  rw [outputs, List.flatMap_cons, ← outputs, houtu, hout, hd, Option.bind_some]
  exact List.append_nil _

/-- **Every event.** -/
theorem serial_step {e : ClosedEvent P} (hs : (closed mp).step c e = some (c', out)) :
    ∃ tu, Run (threaded mp) (.serial c) tu (.serial c') ∧ outputs tu = out := by
  have hlink : ∀ l : LinkEvent P, (closed mp).step c l.closed = some (c', out) →
      ∃ tu, Run (threaded mp) (.serial c) tu (.serial c') ∧ outputs tu = out := fun l hl =>
    ⟨_, Run.single (serial_link hl), List.append_nil out⟩
  cases e with
  | connect p => exact hlink (.connect p) hs
  | request p env => exact hlink (.request p env) hs
  | arrive p ch i env => exact hlink (.arrive p ch i env) hs
  | lose p ch i => exact hlink (.lose p ch i) hs
  | disconnect p => exact hlink (.disconnect p) hs
  | deliver p ch i env => exact serial_deliver hs
  | drop p ch i => exact hlink (.drop p ch i) hs
  | tick p env call => exact serial_tick hs

/-- **Calls in one go are an interleaving.** Every run of the closed system is a run of its threads
(in both, a new connection belongs to a client that has just started) that sends, prints and returns
the same, in the same order, and ends in the same state with every thread idle. -/
theorem serial_run {tr : List (ClosedMove P)} (hr : Run (closed mp) .init tr c) :
    ∃ tu, Run (threaded mp) .init tu (.serial c) ∧ outputs tu = outputs tr :=
  hr.expand (f := Threaded.serial) fun _ _ _ _ => serial_step

/-- What the slave of the session is shown in one go, it is shown in sections. -/
theorem serial_run_session : ∃ tu, ∃ c : Closed Nat, Run (threaded reference) .init tu (.serial c) ∧
    ⟨0, ⟨true, 0, -1⟩, ⟨true, 1, 0⟩, .zero, .zero⟩ ∈ (outputs tu).filterMap (printedBy 2) := by
  obtain ⟨tr, c, hr, -, hQ⟩ := run_of_exec (closed reference) .init session
    (fun tr _ => decide
      (⟨0, ⟨true, 0, -1⟩, ⟨true, 1, 0⟩, .zero, .zero⟩ ∈ (outputs tr).filterMap (printedBy 2)))
    (by decide +kernel)
  obtain ⟨tu, hrun, hout⟩ := serial_run hr
  exact ⟨tu, c, hrun, hout ▸ of_decide_eq_true hQ⟩

end MasterRelay.Game
