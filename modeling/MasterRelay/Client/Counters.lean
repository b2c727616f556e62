import MasterRelay.Client.Atomic

/-!
# The tick counters

Two threads of a client call `try_execute_tick`, each with a counter of its own: `main` counts in
`local_ticks` the calls for its input lines that succeeded, `tick_loop_thread` counts in
`total_frames` every frame, also those before there is a user info. A master's call puts its
counter into the `tick` of the state it sends, and nothing relates the two.

* `step_calls`: a step makes at most one call, with the counter of its thread.
* **`ticks_forward`**: the ticks each thread sends increase, so all the ticks that are sent do where
  the other thread sends none.
-/

namespace MasterRelay.Client

open MasterRelay.Lib.MsgPack
open MasterRelay.Lib.Runs
open MasterRelay.Protocol

/-- The input of a line that asks for a tick. `main` puts the other lines into the queue of the net
thread, or prints that it does not know them. -/
def tickInput (line : String) : Option UserInput :=
  if line = "tick" then some ⟨0, 0⟩
  else if line = "x+1" then some ⟨1, 0⟩
  else if line = "x-1" then some ⟨-1, 0⟩
  else if line = "y+1" then some ⟨0, 1⟩
  else if line = "y-1" then some ⟨0, -1⟩
  else none

/-- The globals, `local_ticks` of `main` and `total_frames` of `tick_loop_thread`. -/
structure Counters where
  shared : Shared
  localTicks : UInt32
  totalFrames : UInt64

def Counters.init : Counters := ⟨⟨none, none, none⟩, 0, 0⟩

/-- A packet for the net thread, a line for `main`, or a frame of `tick_loop_thread`. -/
inductive CounterEvent where
  | receive (env : ClientEnv) (data : Bytes)
  | inputLine (env : ClientEnv) (line : String)
  | frame (env : ClientEnv)

/-- The thread that may call `try_execute_tick`. -/
def CounterEvent.thread : CounterEvent → Option Thread
  | .receive _ _ => none
  | .inputLine _ _ => some .main
  | .frame _ => some .tickLoop

/-- `try_execute_tick` returned true. -/
def succeeded (out : List ClientOutput) : Bool :=
  out.any fun
    | .returned (.ok _) => true
    | _ => false

/-- One turn of the loop of a thread. -/
def counterStep (mp : Msgpack) (s : Counters) : CounterEvent → Option (Counters × List ClientOutput)
  | .receive env data =>
    (handleReceive mp env s.shared data).map fun sh => ({ s with shared := sh }, [])
  | .inputLine env line =>
    match tickInput line with
    | none => some (s, [])
    | some input =>
      (tryExecuteTick mp env s.shared ⟨s.localTicks, input⟩).map fun r =>
        ({ s with shared := r.1,
                  localTicks := if succeeded r.2 then s.localTicks + 1 else s.localTicks }, r.2)
  | .frame env =>
    -- `is_user_info_ready()`
    if s.shared.myUserInfo.isSome then
      (tryExecuteTick mp env s.shared ⟨s.totalFrames.toUInt32, ⟨0, 0⟩⟩).map fun r =>
        ({ s with shared := r.1, totalFrames := s.totalFrames + 1 }, r.2)
    else some ({ s with totalFrames := s.totalFrames + 1 }, [])

/-- **The client with its counters.** -/
def tickingClient (mp : Msgpack) : System Counters CounterEvent ClientOutput := ⟨counterStep mp⟩

/-- The `tick` of a packet that leaves the client, if it is a `GAME_STATE_UPD`. -/
def sentTick (mp : Msgpack) : ClientOutput → Option UInt32
  | .sent o =>
    match ifbPtclTryParseMessageByType o.data with
    | .ok (.gameStateUpd, payload) =>
      match ifbTryUnpackGameState mp (.buffer (fun _ => 0) fun _ => 0) payload with
      | .ok gs => some gs.tick
      | .error _ => none
    | _ => none
  | .returned _ => none

/-- The ticks a step sends. -/
def sentTicks (mp : Msgpack) (x : Step Counters CounterEvent ClientOutput) : List Nat :=
  (x.out.filterMap (sentTick mp)).map UInt32.toNat

/-- The ticks a step of `θ` sends. -/
def sentTicksBy (mp : Msgpack) (θ : Thread) (x : Step Counters CounterEvent ClientOutput) :
    List Nat :=
  if x.event.thread = some θ then sentTicks mp x else []

/-- The step counts a frame. -/
def countsFrame (x : Step Counters CounterEvent ClientOutput) : Bool :=
  x.event.thread = some .tickLoop

/-- The step counts a local tick: a call of `main` that succeeded. -/
def countsLocalTick (x : Step Counters CounterEvent ClientOutput) : Bool :=
  x.event.thread = some .main && succeeded x.out

variable {mp : Msgpack} {s s' : Counters} {out : List ClientOutput}

/-! ## What a call sends -/

theorem sentTick_gameState (hmp : mp.Lawful) (gs : GameState) (p : Unit) (channel : ChannelId)
    (reliable forced : Bool) :
    sentTick mp (.sent (.send p channel (frame .gameStateUpd (some (gameStateBytes mp gs)))
      reliable forced)) = some gs.tick := by
  have hparse := parse_frame (t := .gameStateUpd) rfl (gameStateBytes_ne_nil hmp gs)
  have hunpack := unpack_gameStateBytes hmp (fun _ => 0) (fun _ => 0) gs []
  rw [List.append_nil] at hunpack
  simp only [sentTick, Output.data, hparse, hunpack]

/-- The end of a master's call sends the tick of the state, or fails. -/
theorem sendGameState_ticks (hmp : mp.Lawful) (env : ClientEnv) (gs : GameState) :
    (sendGameState mp env gs).filterMap (sentTick mp) = [] ∨
      (sendGameState mp env gs).filterMap (sentTick mp) = [gs.tick] ∧
        succeeded (sendGameState mp env gs) = true := by
  unfold sendGameState
  split
  · exact .inl rfl
  · rename_i sbuf hpack
    split
    · exact .inl rfl
    · rename_i o hsend
      obtain rfl := packed_eq_ok (emits_gameState gs) hpack
      obtain ⟨p, -, rfl⟩ := trySend_eq_ok hsend
      refine .inr ⟨?_, rfl⟩
      rw [List.filterMap_cons, sentTick_gameState hmp]
      rfl

/-- A slave sends its input. -/
theorem slaveTick_ticks (hmp : mp.Lawful) {env : ClientEnv} {sh : Shared} {input : UserInput}
    {sent : List (Output Unit)} (h : handleCmdSlaveTick mp env sh input = some sent)
    (r : Except String Unit) :
    (sent.map ClientOutput.sent ++ [ClientOutput.returned r]).filterMap (sentTick mp) = [] := by
  unfold handleCmdSlaveTick at h
  split at h
  · cases h
  · rename_i ui _
    split at h
    · cases h
      rfl
    · rename_i sbuf hpack
      split at h
      · cases h
        rfl
      · rename_i o hsend
        cases h
        obtain rfl := packed_eq_ok (emits_playerInput _) hpack
        obtain ⟨p, -, rfl⟩ := trySend_eq_ok hsend
        have hparse := parse_inputPacket hmp ⟨ui.id, input.x, input.y⟩
        unfold inputPacket at hparse
        simp [sentTick, Output.data, hparse]

/-- **A call sends at most its own tick**, and then it succeeds. -/
theorem tryExecuteTick_ticks (hmp : mp.Lawful) {env : ClientEnv} {sh sh' : Shared} {c : TickCall}
    (h : tryExecuteTick mp env sh c = some (sh', out)) :
    out.filterMap (sentTick mp) = [] ∨
      out.filterMap (sentTick mp) = [c.ticks] ∧ succeeded out = true := by
  rcases tryExecuteTick_cases h with ⟨-, err, rfl⟩ | ⟨ui, gs, inputs, -, -, -, -, -, rfl⟩ |
    ⟨ui, sent, -, -, hsent, -, rfl⟩
  · exact .inl rfl
  · exact sendGameState_ticks hmp env _
  · exact .inl (slaveTick_ticks hmp hsent _)

/-- **What a step counts and sends.** -/
theorem step_calls (hmp : mp.Lawful) {e : CounterEvent}
    (hs : (tickingClient mp).step s e = some (s', out)) :
    (e.thread = none ∧ s'.localTicks = s.localTicks ∧ s'.totalFrames = s.totalFrames ∧ out = []) ∨
    (e.thread = some .main ∧ s'.totalFrames = s.totalFrames ∧
      s'.localTicks = (if succeeded out then s.localTicks + 1 else s.localTicks) ∧
      (out.filterMap (sentTick mp) = [] ∨
        out.filterMap (sentTick mp) = [s.localTicks] ∧ succeeded out = true)) ∨
    (e.thread = some .tickLoop ∧ s'.localTicks = s.localTicks ∧
      s'.totalFrames = s.totalFrames + 1 ∧
      (out.filterMap (sentTick mp) = [] ∨
        out.filterMap (sentTick mp) = [s.totalFrames.toUInt32])) := by
  cases e with
  | receive env data =>
    obtain ⟨sh, -, heq⟩ := Option.map_eq_some_iff.mp hs
    cases heq
    exact .inl ⟨rfl, rfl, rfl, rfl⟩
  | inputLine env line =>
    refine .inr (.inl ?_)
    simp only [tickingClient, counterStep] at hs
    split at hs
    · cases hs
      exact ⟨rfl, rfl, rfl, .inl rfl⟩
    · obtain ⟨⟨sh, out'⟩, htick, heq⟩ := Option.map_eq_some_iff.mp hs
      cases heq
      exact ⟨rfl, rfl, rfl, tryExecuteTick_ticks hmp htick⟩
  | frame env =>
    refine .inr (.inr ?_)
    simp only [tickingClient, counterStep] at hs
    split_ifs at hs
    · obtain ⟨⟨sh, out'⟩, htick, heq⟩ := Option.map_eq_some_iff.mp hs
      cases heq
      exact ⟨rfl, rfl, rfl, (tryExecuteTick_ticks hmp htick).imp_right And.left⟩
    · cases hs
      exact ⟨rfl, rfl, rfl, .inl rfl⟩

/-! ## Over a run -/

variable {tr : List (Step Counters CounterEvent ClientOutput)}

/-- **The counters only choose the arguments of calls**: a run with them is a run of whole calls. -/
theorem ticking_run (hr : Run (tickingClient mp) s tr s') :
    ∃ tu, Run (atomicClient mp) s.shared tu s'.shared ∧ outputs tu = outputs tr := by
  refine hr.expand (f := Counters.shared) fun s e s' out hs => ?_
  cases e with
  | receive env data =>
    obtain ⟨sh, hsh, heq⟩ := Option.map_eq_some_iff.mp hs
    cases heq
    have hcall : (atomicClient mp).step s.shared (.receive env data) = some (sh, []) := by
      simp only [atomicClient, atomicStep, hsh, Option.map_some]
    exact ⟨_, Run.single hcall, by simp [outputs]⟩
  | inputLine env line =>
    simp only [tickingClient, counterStep] at hs
    split at hs
    · cases hs
      exact ⟨[], Run.nil _, rfl⟩
    · rename_i input _
      obtain ⟨⟨sh, out'⟩, htick, heq⟩ := Option.map_eq_some_iff.mp hs
      cases heq
      have hcall : (atomicClient mp).step s.shared (.tick env ⟨s.localTicks, input⟩) =
        some (sh, out') := htick
      exact ⟨_, Run.single hcall, by simp [outputs]⟩
  | frame env =>
    simp only [tickingClient, counterStep] at hs
    split_ifs at hs
    · obtain ⟨⟨sh, out'⟩, htick, heq⟩ := Option.map_eq_some_iff.mp hs
      cases heq
      have hcall : (atomicClient mp).step s.shared
          (.tick env ⟨s.totalFrames.toUInt32, ⟨0, 0⟩⟩) = some (sh, out') := htick
      exact ⟨_, Run.single hcall, by simp [outputs]⟩
    · cases hs
      exact ⟨[], Run.nil _, rfl⟩

/-- The ticks of the tick loop. -/
theorem tickLoop_increases (hmp : mp.Lawful) (hr : Run (tickingClient mp) .init tr s)
    (hframes : tr.countP countsFrame < 2 ^ 32) :
    (tr.flatMap (sentTicksBy mp .tickLoop)).Pairwise (· < ·) := by
  refine (Run.counter countsFrame _ (fun s => s.totalFrames.toNat) (2 ^ 32) ?_ ?_ hr ?_).1
  · intro s e s' out hs hadv
    have hthread : e.thread ≠ some .tickLoop := of_decide_eq_false hadv
    refine ⟨?_, if_neg hthread⟩
    rcases step_calls hmp hs with ⟨-, -, hcount, -⟩ | ⟨-, hcount, -⟩ | ⟨hloop, -⟩
    · exact congrArg UInt64.toNat hcount
    · exact congrArg UInt64.toNat hcount
    · exact absurd hloop hthread
  · intro s e s' out hs hadv hbound
    have hthread : e.thread = some .tickLoop := of_decide_eq_true hadv
    rcases step_calls hmp hs with ⟨hnet, -⟩ | ⟨hmain, -⟩ | ⟨-, -, hcount, hsent⟩
    · exact absurd (hthread.symm.trans hnet) (by simp)
    · exact absurd (hthread.symm.trans hmain) (by simp)
    · have hsucc : s'.totalFrames.toNat = s.totalFrames.toNat + 1 := by
        rw [hcount, UInt64.toNat_add]
        exact Nat.mod_eq_of_lt (by simp; omega)
      have hvalue : s.totalFrames.toUInt32.toNat = s.totalFrames.toNat := by
        rw [UInt64.toNat_toUInt32]
        exact Nat.mod_eq_of_lt (by omega)
      refine ⟨hsucc, ?_⟩
      simp only [sentTicksBy, hthread, if_true, sentTicks]
      rcases hsent with hnone | hone
      · exact .inl (by rw [hnone, List.map_nil])
      · exact .inr (by rw [hone, List.map_singleton, hvalue])
  · simpa [Counters.init] using hframes

/-- The ticks of the main thread. -/
theorem main_increases (hmp : mp.Lawful) (hr : Run (tickingClient mp) .init tr s)
    (hticks : tr.countP countsLocalTick < 2 ^ 32) :
    (tr.flatMap (sentTicksBy mp .main)).Pairwise (· < ·) := by
  refine (Run.counter countsLocalTick _ (fun s => s.localTicks.toNat) (2 ^ 32) ?_ ?_ hr ?_).1
  · intro s e s' out hs hadv
    rcases step_calls hmp hs with ⟨hnet, hcount, -, rfl⟩ | ⟨hmain, -, hcount, hsent⟩ |
      ⟨hloop, hcount, -⟩
    · exact ⟨congrArg UInt32.toNat hcount, by simp [sentTicksBy, hnet]⟩
    · have hfail : succeeded out = false := by simpa [countsLocalTick, hmain] using hadv
      rw [if_neg (by simp [hfail])] at hcount
      refine ⟨congrArg UInt32.toNat hcount, ?_⟩
      rcases hsent with hnone | ⟨-, hok⟩
      · simp [sentTicksBy, sentTicks, hnone]
      · exact absurd (hfail.symm.trans hok) (by simp)
    · exact ⟨congrArg UInt32.toNat hcount, by simp [sentTicksBy, hloop]⟩
  · intro s e s' out hs hadv hbound
    have hadv' : e.thread = some .main ∧ succeeded out = true := by
      simpa [countsLocalTick] using hadv
    obtain ⟨hthread, hok⟩ := hadv'
    rcases step_calls hmp hs with ⟨hnet, -⟩ | ⟨-, -, hcount, hsent⟩ | ⟨hloop, -⟩
    · exact absurd (hthread.symm.trans hnet) (by simp)
    · rw [if_pos hok] at hcount
      have hsucc : s'.localTicks.toNat = s.localTicks.toNat + 1 := by
        rw [hcount, UInt32.toNat_add]
        exact Nat.mod_eq_of_lt (by simpa using hbound)
      refine ⟨hsucc, ?_⟩
      simp only [sentTicksBy, hthread, if_true, sentTicks]
      rcases hsent with hnone | ⟨hone, -⟩
      · exact .inl (by rw [hnone, List.map_nil])
      · exact .inr (by rw [hone, List.map_singleton])
    · exact absurd (hthread.symm.trans hloop) (by simp)
  · simpa [Counters.init] using hticks

theorem sentTicks_eq_by {x : Step Counters CounterEvent ClientOutput} {θ : Thread}
    (h : sentTicks mp x ≠ [] → x.event.thread = some θ) :
    sentTicks mp x = sentTicksBy mp θ x := by
  unfold sentTicksBy
  by_cases hthread : x.event.thread = some θ
  · rw [if_pos hthread]
  · rw [if_neg hthread]
    by_contra hne
    exact hthread (h hne)

/-- **The ticks a master sends.** Over a run of the client from its start, with fewer than `2^32`
frames and successful calls of `main`, the ticks each of the two threads sends increase; so all
the ticks that are sent increase where only one of them sends any. -/
theorem ticks_forward (hmp : mp.Lawful) (hr : Run (tickingClient mp) .init tr s)
    (hframes : tr.countP countsFrame < 2 ^ 32) (hticks : tr.countP countsLocalTick < 2 ^ 32)
    (θ : Thread) :
    (tr.flatMap (sentTicksBy mp θ)).Pairwise (· < ·) ∧
      ((∀ x ∈ tr, sentTicks mp x ≠ [] → x.event.thread = some θ) →
        (tr.flatMap (sentTicks mp)).Pairwise (· < ·)) := by
  have hthread : (tr.flatMap (sentTicksBy mp θ)).Pairwise (· < ·) := by
    cases θ with
    | main => exact main_increases hmp hr hticks
    | tickLoop => exact tickLoop_increases hmp hr hframes
  refine ⟨hthread, fun honly => ?_⟩
  have hsame : tr.map (sentTicks mp) = tr.map (sentTicksBy mp θ) :=
    List.map_congr_left fun x hx => sentTicks_eq_by (honly x hx)
  rwa [List.flatMap_def, hsame, ← List.flatMap_def]

/-- A peer is told that it is the master, and two frames pass. -/
def twoFrames : List CounterEvent :=
  [.receive .ideal (frame .resUserInfo (some (userInfoBytes reference ⟨0, true⟩))),
    .frame .ideal, .frame .ideal]

theorem ticks_forward_twoFrames : ∃ tr s, Run (tickingClient reference) .init tr s ∧
    tr.flatMap (sentTicks reference) = [0, 1] ∧
    (tr.flatMap (sentTicksBy reference .tickLoop)).Pairwise (· < ·) := by
  obtain ⟨tr, s, hr, -, hQ⟩ := run_of_exec (tickingClient reference) .init twoFrames
    (fun tr _ => decide (tr.flatMap (sentTicks reference) = [0, 1]) &&
      decide (tr.countP countsFrame = 2) && decide (tr.countP countsLocalTick = 0))
    (by decide +kernel)
  simp only [Bool.and_eq_true, decide_eq_true_eq] at hQ
  obtain ⟨⟨hsent, hframes⟩, hlocal⟩ := hQ
  exact ⟨tr, s, hr, hsent,
    (ticks_forward reference_lawful hr (by omega) (by omega) .tickLoop).1⟩

/-- A line of `main` after two frames: its tick is 0 again. -/
theorem localTick_goesBack : ∃ tr s, Run (tickingClient reference) .init tr s ∧
    tr.countP countsFrame < 2 ^ 32 ∧ tr.flatMap (sentTicks reference) = [0, 1, 0] ∧
    ¬ (tr.flatMap (sentTicks reference)).Pairwise (· ≤ ·) := by
  obtain ⟨tr, s, hr, -, hQ⟩ := run_of_exec (tickingClient reference) .init
    (twoFrames ++ [.inputLine .ideal "tick"])
    (fun tr _ => decide (tr.flatMap (sentTicks reference) = [0, 1, 0]) &&
      decide (tr.countP countsFrame = 2)) (by decide +kernel)
  simp only [Bool.and_eq_true, decide_eq_true_eq] at hQ
  obtain ⟨hsent, hframes⟩ := hQ
  refine ⟨tr, s, hr, by omega, hsent, ?_⟩
  rw [hsent]
  decide

end MasterRelay.Client
