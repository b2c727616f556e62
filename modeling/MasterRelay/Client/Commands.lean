import MasterRelay.Client.CommandLine

/-!
# The commands over a run

* **`commands_inOrder`**: the net thread executes what `main` has taken of what has been typed, in
  order, each command once.
* **`commands_freed`**: nothing is read or freed after it has been freed, and nothing is left, as
  long as no NULL is passed to ENet.
* **`commands_handled`**: the calls of ENet are those of `net_bg_thread` at these commands, and NULL
  is passed at the exit only.
-/

namespace MasterRelay.Client

open MasterRelay.Lib.Blocks
open MasterRelay.Lib.LinkedList
open MasterRelay.Lib.MsgPack
open MasterRelay.Lib.Runs
open MasterRelay.Protocol
open MasterRelay.ThreadSafe

variable {A H Q : Type} {s s' : CommandLine A H Q} {items : List (ClientCommand × List A)}
  {host : Option String} {e : CommandEvent A H Q} {out : List (CommandOutput H Q)}

/-- The steps of the commands of a client. -/
abbrev CommandMove (A H Q : Type) : Type :=
  Step (CommandLine A H Q) (CommandEvent A H Q) (CommandOutput H Q)

/-- The commands executed in a run, in order. -/
def executed (tr : List (CommandMove A H Q)) : List ClientCommand :=
  (outputs tr).filterMap executedCommand

/-- The commands `main` has taken, in order: those that are typed, but for a `CONNECT` without room
for the copy of its host. -/
def taken (host : Option String) (tr : List (CommandMove A H Q)) : List ClientCommand :=
  tr.flatMap fun x => takenCommands host x.event

/-- **What is executed and what waits is what has been taken.** -/
structure Pipeline (host : Option String) (tr : List (CommandMove A H Q)) (s : CommandLine A H Q)
    (items : List (ClientCommand × List A)) : Prop where
  holds : s.faulted = false → Holds s items []
  law : executed tr ++ (items.map Prod.fst ++ s.main.pending) = taken host tr
  exits : Exits s.main (taken host tr)

variable [DecidableEq A] {tr : List (CommandMove A H Q)}

theorem pipeline_step (h : Pipeline host tr s items)
    (hs : (commandLine host).step s e = some (s', out)) :
    ∃ items', Pipeline host (tr ++ [⟨s, e, out, s'⟩]) s' items' := by
  obtain ⟨items', h', hlaw, hexits⟩ := command_step (h.holds (commandLine_step hs).1) hs
  have htaken : taken host (tr ++ [⟨s, e, out, s'⟩]) = taken host tr ++ takenCommands host e := by
    rw [taken, List.flatMap_append, List.flatMap_singleton]
    rfl
  refine ⟨items', h', ?_, ?_⟩
  · rw [htaken, ← h.law, List.append_assoc, ← hlaw, executed, outputs, List.flatMap_append,
      List.flatMap_singleton, List.filterMap_append, List.append_assoc]
    rfl
  · rw [htaken]
    exact hexits _ h.exits

/-- **Over every run.** -/
theorem pipeline_run (hr : Run (commandLine host) .init tr s) :
    ∃ items, Pipeline host tr s items := by
  refine hr.trace (I := fun tr s => ∃ items, Pipeline host tr s items) ?_ ?_
  · rintro tr s e s' out ⟨items, h⟩ hs
    exact pipeline_step h hs
  · exact ⟨[], fun _ => holds_init, rfl, by simp [Exits, CommandLine.init, taken]⟩

omit [DecidableEq A] in
/-- An `exit` that has been executed is the last command taken, and nothing is left. -/
theorem exit_last (h : Pipeline host tr s items) {t₁ t₂ : List ClientCommand}
    (hexit : executed tr = t₁ ++ .disconnectNFree :: t₂) :
    t₂ = [] ∧ ClientCommand.disconnectNFree ∉ t₁ ∧ items = [] ∧ taken host tr = executed tr := by
  have hlaw := h.law
  have hexits := h.exits
  rw [hexit] at hlaw
  rw [← hlaw, Exits] at hexits
  split_ifs at hexits
  · exact absurd (by simp) hexits
  · obtain ⟨front, heq, hfront⟩ := hexits
    obtain ⟨rest, hrest⟩ : ∃ rest, rest = t₂ ++ (items.map Prod.fst ++ s.main.pending) := ⟨_, rfl⟩
    rw [List.append_assoc, List.cons_append, ← hrest] at heq
    have hsplit : rest = [] ∧ t₁ = front := by
      rcases List.eq_nil_or_concat rest with rfl | ⟨init, last, rfl⟩
      · exact ⟨rfl, (List.append_inj' heq rfl).1⟩
      · rw [List.concat_eq_append, ← List.cons_append, ← List.append_assoc] at heq
        exact absurd ((List.append_inj' heq rfl).1 ▸ by simp) hfront
    obtain ⟨rfl, rfl⟩ := hsplit
    obtain ⟨rfl, hnil⟩ := List.append_eq_nil_iff.mp hrest.symm
    obtain ⟨hitems, hpending⟩ := List.append_eq_nil_iff.mp hnil
    refine ⟨rfl, hfront, List.map_eq_nil_iff.mp hitems, ?_⟩
    rw [← hlaw, hitems, hpending, hexit]
    exact List.append_nil _

/-- A player who registers, asks for the user info once more, moves, and leaves; the net thread is
slow. The addresses of what has been freed are used again. -/
def keyboard : List (CommandEvent Nat Nat Nat) :=
  [.line ⟨some 1, some 2, some 3, some 1⟩ (some "conreg\n"), .turn .ideal,
    .enqueue ⟨none, some 9, some 3, some 1⟩, .line ⟨none, some 9, some 1, some 2⟩
      (some "request_ui\n"), .line ⟨none, none, none, none⟩ (some "x+1\n"), .turn .ideal,
    .line ⟨none, none, none, none⟩ (some "exit\n"), .enqueue ⟨none, none, some 2, some 1⟩,
    .turn .ideal, .turn .ideal, .stop]

/-- The blocks of a command: three of a `CONNECT`, and the message alone of the others. -/
def blockCount : ClientCommand → Nat
  | .connect _ => 3
  | .disconnectNFree => 1
  | .reqUserInfo => 1

omit [DecidableEq A] in
theorem reads_count {blocks : Store A (Block A)} {data : Option A}
    {item : ClientCommand × List A} (h : Reads blocks data item) :
    item.2.length = blockCount item.1 := by
  obtain ⟨p, -, hread, hp⟩ := h
  unfold readCommand at hread
  split at hread
  · split at hread
    · split at hread
      · cases hread
        rfl
      · cases hread
    · cases hread
  · cases hread
    exact absurd hp List.not_mem_nil
  · cases hread
    rfl
  · cases hread
    rfl
  · cases hread

omit [DecidableEq A] in
theorem reads_all_count {blocks : Store A (Block A)} {datas : List (Option A)}
    (h : List.Forall₂ (Reads blocks) datas items) : datas.length = items.length ∧
      (items.flatMap Prod.snd).length = ((items.map Prod.fst).map blockCount).sum := by
  induction h with
  | nil => exact ⟨rfl, rfl⟩
  | cons hread _ ih =>
    obtain ⟨hlength, hsum⟩ := ih
    refine ⟨congrArg (· + 1) hlength, ?_⟩
    rw [List.flatMap_cons, List.length_append, hsum, reads_count hread]
    rfl

/-- `malloc` gives addresses that are not live, each once. Only the copy of the host, whose address
is looked at, may be NULL. -/
structure CommandMallocs.Fresh (ms : CommandMallocs A) (s : CommandLine A H Q) : Prop where
  hostBuf : ∀ a, ms.hostBuf = some a →
    s.blocks a = none ∧ ms.msgConnect ≠ some a ∧ ms.commandMsg ≠ some a
  msgConnect : ∃ a, ms.msgConnect = some a ∧ s.blocks a = none ∧ ms.commandMsg ≠ some a
  commandMsg : ∃ a, ms.commandMsg = some a ∧ s.blocks a = none
  node : ∃ a, ms.node = some a ∧ s.queue.heap a = none

/-- Memory is there for the step. -/
def CommandEvent.Fresh (s : CommandLine A H Q) : CommandEvent A H Q → Prop
  | .line ms _ => ms.Fresh s
  | .enqueue ms => ms.Fresh s
  | .stop => True
  | .turn _ => True
  | .tick _ _ _ _ => True

/-- The step is the next one of `main`, or one of another thread while the threads run. -/
def Due (s : CommandLine A H Q) : CommandEvent A H Q → Prop
  | .line _ _ => s.main = .reading
  | .enqueue _ => s.main = .registering ∨ s.main = .leaving
  | .stop => s.main = .waiting
  | .turn _ => s.isAppRunning = true
  | .tick _ _ _ _ => True

/-- `enqueue_cmd` returns. -/
theorem enqueueCmd_returns {own : List A} (h : Holds s items own) {ms : CommandMallocs A}
    (hmsg : ∃ a, ms.commandMsg = some a ∧ s.blocks a = none)
    (hnode : ∃ a, ms.node = some a ∧ s.queue.heap a = none) (type : CommandType)
    (data : Option A) : ∃ s', enqueueCmd s ms type data = some s' := by
  obtain ⟨msg, hmsg, hfresh⟩ := hmsg
  obtain ⟨node, hnode, hfree⟩ := hnode
  obtain ⟨cells, hq, -, -⟩ := h.queue
  obtain ⟨q', hpush, -⟩ := push_isQueue hq hfree (some msg)
  have hqueue : safeQueue.step s.queue (.push node (some msg)) = some (q', []) := by
    simp only [safeQueue, queueStep, hfree, hpush, Option.map_some]
  unfold enqueueCmd
  rw [hmsg, hnode]
  simp only [malloc_fresh _ hfresh, hqueue]
  exact ⟨_, rfl⟩

/-- So does `send_connect_cmd`. -/
theorem sendConnectCmd_returns (h : Holds s items []) {ms : CommandMallocs A} (hms : ms.Fresh s)
    (host : Option String) : ∃ s', sendConnectCmd s ms host ptclPort = some s' := by
  unfold sendConnectCmd
  cases host with
  | none => exact ⟨s, rfl⟩
  | some name =>
    cases hbuf : ms.hostBuf with
    | none => exact ⟨s, rfl⟩
    | some hostBuf =>
      obtain ⟨hfresh₁, hne, hne'⟩ := hms.hostBuf hostBuf hbuf
      obtain ⟨msg, hmsg, hfresh₂, hne''⟩ := hms.msgConnect
      obtain ⟨cmd, hcmd, hfresh₃⟩ := hms.commandMsg
      rw [hmsg] at hne
      rw [hcmd] at hne' hne''
      have hm₁ := malloc_fresh (Block.hostBuf (copiedHost name)) hfresh₁
      obtain ⟨h₁, -, -⟩ := malloc_holds h hm₁
      have hfresh₂' : Function.update s.blocks hostBuf (some (.hostBuf (copiedHost name))) msg =
          none := by
        rw [Function.update_of_ne (fun he => hne (congrArg some he)), hfresh₂]
      have hm₂ := malloc_fresh (Block.msgConnect hostBuf ptclPort) hfresh₂'
      obtain ⟨h₂, -, -⟩ := malloc_holds h₁ hm₂
      simp only [hm₁, hmsg, hm₂]
      refine enqueueCmd_returns h₂ ⟨cmd, hcmd, ?_⟩ hms.node _ _
      dsimp only
      rw [Function.update_of_ne (fun he => hne'' (congrArg some he)),
        Function.update_of_ne (fun he => hne' (congrArg some he)), hfresh₃]

/-- **No step faults in the program** where memory is there: one that is due is made, and no
other. -/
theorem command_returns (h : Holds s items []) (hlive : s.faulted = false) (hfresh : e.Fresh s) :
    (∃ x, (commandLine host).step s e = some x) ↔ Due s e := by
  simp only [commandLine, hlive, Bool.false_eq_true, if_false]
  cases e with
  | line ms inputBuf =>
    simp only [commandStep, Due]
    by_cases hmain : s.main = .reading
    · refine iff_of_true ?_ hmain
      rw [if_pos hmain]
      cases inputBuf with
      | none => exact ⟨_, rfl⟩
      | some buf =>
        have hline : ∃ s', mainLine host s ms (lineText buf) = some s' := by
          unfold mainLine
          split_ifs
          · exact ⟨_, rfl⟩
          · obtain ⟨s', hs'⟩ := sendConnectCmd_returns h hfresh host
            rw [hs']
            exact ⟨_, rfl⟩
          · exact sendConnectCmd_returns h hfresh host
          · exact enqueueCmd_returns h hfresh.commandMsg hfresh.node _ _
          · exact ⟨s, rfl⟩
        obtain ⟨s', hs'⟩ := hline
        simp only [hs']
        exact ⟨_, rfl⟩
    · refine iff_of_false ?_ hmain
      rw [if_neg hmain]
      simp
  | enqueue ms =>
    obtain ⟨s₁, hreq⟩ := enqueueCmd_returns h hfresh.commandMsg hfresh.node .reqUserInfo none
    obtain ⟨s₂, hdis⟩ := enqueueCmd_returns h hfresh.commandMsg hfresh.node .disconnectNFree none
    simp only [commandStep, Due]
    cases s.main <;> simp [hreq, hdis]
  | stop =>
    simp only [commandStep, Due]
    by_cases hmain : s.main = .waiting <;> simp [hmain]
  | turn env =>
    obtain ⟨s', out, hturn, -⟩ := turn_holds h env
    simp only [commandStep, Due, hturn]
    cases s.isAppRunning <;> simp
  | tick env t channel sbuf => exact iff_of_true ⟨_, rfl⟩ trivial

/-! ## The calls of ENet -/

/-- The call an output is. -/
def enetCall : CommandOutput H Q → Option (ENetCall H Q)
  | .command _ => none
  | .call c => some c

omit [DecidableEq A] in
theorem calls_made (calls : List (ENetCall H Q)) :
    (calls.map CommandOutput.call).filterMap enetCall = calls := by
  rw [List.filterMap_map]
  exact List.filterMap_some

/-- The command a turn of the net thread executes. -/
def handledCommand (x : Step (Handles H Q) (NetEvent H Q) (ENetCall H Q)) : Option ClientCommand :=
  match x.event with
  | .turn _ (some (some cmd)) => if x.pre.isDisconnected then none else some cmd
  | _ => none

omit [DecidableEq A] in
theorem handledCommand_disconnect {x : Step (Handles H Q) (NetEvent H Q) (ENetCall H Q)} :
    handledCommand x = some .disconnectNFree ↔ DisconnectsAndFrees x := by
  unfold handledCommand DisconnectsAndFrees
  split
  · rename_i env cmd he
    rw [he]
    cases hdis : x.pre.isDisconnected <;> simp
  · rename_i he
    refine iff_of_false (by simp) ?_
    rintro ⟨env, heq, -⟩
    exact he env _ heq

/-- **All a step does to the handles**: `main` leaves them alone and calls nothing, the rest is a
turn of the net thread, or calls of the tick thread. -/
theorem command_cases (h : Holds s items [])
    (hs : (commandLine host).step s e = some (s', out)) :
    ((∀ env, e ≠ .turn env) ∧ s'.handles = s.handles ∧ s'.faulted = s.faulted ∧ out = []) ∨
    (∃ env, e = .turn env ∧ bgThreadTurn env s = some (s', out)) ∨
    ∃ env t channel sbuf, e = .tick env t channel sbuf ∧ s' = s ∧
      out = (sendMsgCalls env t channel (some sbuf) s.handles.clientPeer s.handles.clientHost
        false false).map .call := by
  obtain ⟨-, hs⟩ := commandLine_step hs
  cases e with
  | line ms inputBuf =>
    refine .inl ⟨fun env he => (by cases he), ?_⟩
    simp only [commandStep] at hs
    split_ifs at hs with hmain
    cases inputBuf with
    | none =>
      cases hs
      exact ⟨rfl, rfl, rfl⟩
    | some buf =>
      obtain ⟨s₁, hline, heq⟩ := Option.map_eq_some_iff.mp hs
      cases heq
      obtain ⟨new, -, -, hhandles, -⟩ := mainLine_holds h hmain hline
      exact ⟨hhandles, mainLine_faulted h hline, rfl⟩
  | enqueue ms =>
    refine .inl ⟨fun env he => (by cases he), ?_⟩
    simp only [commandStep] at hs
    split at hs
    · obtain ⟨s₁, henqueue, heq⟩ := Option.map_eq_some_iff.mp hs
      cases heq
      obtain ⟨-, hframe⟩ := enqueuePlain_holds h (fun _ _ => readCommand_reqUserInfo) henqueue
      rw [hframe]
      exact ⟨rfl, rfl, rfl⟩
    · obtain ⟨s₁, henqueue, heq⟩ := Option.map_eq_some_iff.mp hs
      cases heq
      obtain ⟨-, hframe⟩ := enqueuePlain_holds h (fun _ _ => readCommand_disconnectNFree) henqueue
      rw [hframe]
      exact ⟨rfl, rfl, rfl⟩
    all_goals cases hs
  | stop =>
    simp only [commandStep] at hs
    split_ifs at hs
    cases hs
    exact .inl ⟨fun env he => (by cases he), rfl, rfl, rfl⟩
  | turn env =>
    simp only [commandStep] at hs
    split_ifs at hs
    exact .inr (.inl ⟨env, rfl, hs⟩)
  | tick env t channel sbuf =>
    cases hs
    exact .inr (.inr ⟨env, t, channel, sbuf, rfl, rfl, rfl⟩)

/-- **A step is one of `netThread`**, at the command that is taken from the queue, or leaves the
handles alone. -/
theorem command_handled (h : Holds s items [])
    (hs : (commandLine host).step s e = some (s', out)) :
    (s'.handles = s.handles ∧ out = []) ∨ ∃ e', netThread.step s.handles e' =
      some (s'.handles, out.filterMap enetCall) ∧
      (handledCommand ⟨s.handles, e', out.filterMap enetCall, s'.handles⟩).toList =
        out.filterMap executedCommand := by
  rcases command_cases h hs with ⟨-, hsame, -, rfl⟩ | ⟨env, rfl, hturn⟩ |
    ⟨env, t, channel, sbuf, rfl, rfl, rfl⟩
  · exact .inl ⟨hsame, rfl⟩
  · obtain ⟨s₁, out₁, hturn₁, -, hcases⟩ := turn_holds h env
    rw [hturn₁] at hturn
    cases hturn
    rcases hcases with ⟨-, rfl, rfl⟩ | ⟨hdis, -, -, hhandles, -, rfl⟩ |
      ⟨hdis, cmd, owned, rest, -, -, -, hhandles, rfl⟩
    · exact .inl ⟨rfl, rfl⟩
    · refine .inr ⟨.turn env none, ?_, ?_⟩
      · rw [calls_made, hhandles]
        simp only [netThread, handlesStep, netTurn, hdis, Bool.false_eq_true, if_false]
      · rw [executed_calls]
        rfl
    · refine .inr ⟨.turn env (some (some cmd)), ?_, ?_⟩
      · rw [List.filterMap_append, calls_made, List.filterMap_cons, hhandles]
        simp only [netThread, handlesStep, netTurn, hdis, Bool.false_eq_true, if_false, enetCall,
          calls_made]
      · simp only [handledCommand, hdis, Bool.false_eq_true, if_false, List.filterMap_append,
          List.filterMap_cons, executedCommand, executed_calls, List.nil_append,
          Option.toList_some]
  · refine .inr ⟨.tick env t channel sbuf, ?_, ?_⟩
    · rw [calls_made]
      rfl
    · rw [executed_calls]
      rfl

/-- **A run is one of `netThread`**, with the same calls and the same commands. -/
theorem handles_run (hr : Run (commandLine host) .init tr s) :
    ∃ tn, Run netThread .init tn s.handles ∧ outputs tn = (outputs tr).filterMap enetCall ∧
      tn.filterMap handledCommand = executed tr := by
  have hinv := hr.trace (I := fun tr s => (∃ items, Pipeline host tr s items) ∧
    ∃ tn, Run netThread .init tn s.handles ∧ outputs tn = (outputs tr).filterMap enetCall ∧
      tn.filterMap handledCommand = executed tr) ?_ ?_
  · exact hinv.2
  · rintro tr s e s' out ⟨⟨items, h⟩, tn, hrn, hcalls, hcommands⟩ hs
    refine ⟨pipeline_step h hs, ?_⟩
    have houtputs : outputs (tr ++ [⟨s, e, out, s'⟩]) = outputs tr ++ out := by
      rw [outputs, outputs, List.flatMap_append, List.flatMap_singleton]
    rw [executed, houtputs, List.filterMap_append, List.filterMap_append]
    rcases command_handled (h.holds (commandLine_step hs).1) hs with ⟨hsame, rfl⟩ |
      ⟨e', hstep, hcommand⟩
    · rw [hsame, List.filterMap_nil, List.append_nil]
      exact ⟨tn, hrn, hcalls, hcommands.trans (List.append_nil _).symm⟩
    · refine ⟨_, hrn.append (Run.single hstep), ?_, ?_⟩
      · rw [outputs, List.flatMap_append, List.flatMap_singleton, ← hcalls]
        rfl
      · rw [List.filterMap_append, hcommands, ← hcommand, executed]
        congr 1
  · exact ⟨⟨[], fun _ => holds_init, rfl, by simp [Exits, CommandLine.init, taken]⟩, [], Run.nil _,
      rfl, rfl⟩

/-- The output is a call that passes NULL. -/
def CommandOutput.passesNull : CommandOutput H Q → Bool
  | .command _ => false
  | .call c => c.passesNull

omit [DecidableEq A] in
theorem call_passesNull {out : List (CommandOutput H Q)} :
    (∀ o ∈ out, o.passesNull = false) ↔ ∀ c ∈ out.filterMap enetCall, c.passesNull = false := by
  constructor
  · intro h c hc
    obtain ⟨o, ho, heq⟩ := List.mem_filterMap.mp hc
    cases o with
    | command cmd => cases heq
    | call c' =>
      cases heq
      exact h _ ho
  · intro h o ho
    cases o with
    | command cmd => rfl
    | call c => exact h c (List.mem_filterMap.mpr ⟨_, ho, rfl⟩)

/-- **Where NULL is passed**: by the step that executes `exit`, while there is no host. -/
theorem passesNull_iff (hr : Run (commandLine host) .init tr s)
    (hs : (commandLine host).step s e = some (s', out)) :
    (∀ o ∈ out, o.passesNull = false) ↔
      (.command .disconnectNFree ∈ out → s.handles.clientHost.isSome = true) := by
  obtain ⟨items, h⟩ := pipeline_run hr
  obtain ⟨tn, hrn, -, -⟩ := handles_run hr
  rw [call_passesNull]
  rcases command_handled (h.holds (commandLine_step hs).1) hs with ⟨-, rfl⟩ | ⟨e', hstep, hcommand⟩
  · exact iff_of_true (fun c hc => absurd hc List.not_mem_nil)
      fun hmem => absurd hmem List.not_mem_nil
  · -- `exit` is executed by the turn of `netThread` that disconnects, and by no other
    have hexit : .command .disconnectNFree ∈ out ↔
        DisconnectsAndFrees ⟨s.handles, e', out.filterMap enetCall, s'.handles⟩ := by
      have hmem : .command .disconnectNFree ∈ out ↔
          ClientCommand.disconnectNFree ∈ out.filterMap executedCommand := by
        rw [List.mem_filterMap]
        constructor
        · exact fun hmem => ⟨_, hmem, rfl⟩
        · rintro ⟨o, ho, heq⟩
          cases o with
          | command cmd =>
            cases heq
            exact ho
          | call c => cases heq
      rw [hmem, ← hcommand, Option.mem_toList, handledCommand_disconnect]
    rw [hexit]
    rcases handles_cases (host_run hrn).1 hstep with ⟨-, -, hno, hcalls⟩ | ⟨-, -, hno, hcalls⟩ |
      ⟨-, hyes, hcalls⟩
    · exact iff_of_true hcalls fun hyes => absurd hyes hno
    · exact iff_of_true hcalls fun hyes => absurd hyes hno
    · exact hcalls.trans ⟨fun hhost _ => hhost, fun hhost => hhost hyes⟩

/-- **The calls of ENet are those of `net_bg_thread` at what is taken.** In every run from the
start, the handles, the calls and the commands are those of a run of `netThread`; and the only step
that passes NULL is the one that executes `exit`, while there is no host. -/
theorem commands_handled (hr : Run (commandLine host) .init tr s) :
    (∃ tn, Run netThread .init tn s.handles ∧ outputs tn = (outputs tr).filterMap enetCall ∧
      tn.filterMap handledCommand = executed tr) ∧
    ∀ x ∈ tr, ∀ c, .call c ∈ x.out → c.passesNull = true →
      .command .disconnectNFree ∈ x.out ∧ x.pre.handles.clientHost = none := by
  refine ⟨handles_run hr, fun x hx c hc hnull => ?_⟩
  obtain ⟨hs, t₁, t₂, rfl, hr₁, -⟩ := hr.mem hx
  have hnot : ¬ (.command .disconnectNFree ∈ x.out →
      x.pre.handles.clientHost.isSome = true) := by
    rw [← passesNull_iff hr₁ hs]
    exact fun hall => absurd (hall _ hc) (by simp [CommandOutput.passesNull, hnull])
  obtain ⟨hexit, hhost⟩ := Classical.not_imp.mp hnot
  exact ⟨hexit, Option.not_isSome_iff_eq_none.mp hhost⟩

/-- A player who leaves without a connection: the exit passes NULL. -/
theorem commands_handled_unconnected : ∃ tr, ∃ s : CommandLine Nat Nat Nat,
    Run (commandLine (mainHost ["client", "host", "port"])) .init tr s ∧
    ∃ x ∈ tr, .call (.peerDisconnect none) ∈ x.out ∧ .command .disconnectNFree ∈ x.out ∧
      x.pre.handles.clientHost = none := by
  obtain ⟨tr, s, hr, -, hQ⟩ := run_of_exec
    (commandLine (A := Nat) (H := Nat) (Q := Nat) (mainHost ["client", "host", "port"])) .init
    [.line ⟨some 1, some 2, some 3, some 1⟩ (some "connect\n"),
      .line ⟨none, none, none, none⟩ (some "exit\n"), .enqueue ⟨none, none, some 2, some 1⟩,
      .turn .ideal]
    (fun tr _ => tr.any fun x => decide (.call (.peerDisconnect none) ∈ x.out)) (by decide +kernel)
  obtain ⟨x, hx, hcall⟩ := List.any_eq_true.mp hQ
  have hmem := of_decide_eq_true hcall
  exact ⟨tr, s, hr, x, hx, hmem, (commands_handled hr).2 x hx _ hmem rfl⟩

/-! ## What is left -/

/-- The turn executes `exit` while there is no host. -/
def ExitsUnconnected (s : CommandLine A H Q) (waiting : List ClientCommand) :
    CommandEvent A H Q → Prop
  | .turn _ => s.handles.isDisconnected = false ∧ waiting.head? = some .disconnectNFree ∧
      s.handles.clientHost = none
  | .line _ _ => False
  | .enqueue _ => False
  | .stop => False
  | .tick _ _ _ _ => False

omit [DecidableEq A] in
theorem not_exitsUnconnected {waiting : List ClientCommand} (h : ∀ env, e ≠ .turn env) :
    ¬ ExitsUnconnected s waiting e := by
  cases e with
  | turn env => exact absurd rfl (h env)
  | _ => exact id

omit [DecidableEq A] in
theorem command_mem {cmd cmd' : ClientCommand} {calls calls' : List (ENetCall H Q)} :
    .command cmd' ∈ calls.map CommandOutput.call ++ .command cmd :: calls'.map .call ↔
      cmd' = cmd := by
  simp

omit [DecidableEq A] in
/-- A poll passes no NULL. -/
theorem handled_passesNull (s : Handles H Q) (env : NetEnv H Q) (cmd : ClientCommand) :
    (∀ o ∈ (pollCalls s).map CommandOutput.call ++
      .command cmd :: (handleCommand env s cmd).2.map .call, o.passesNull = false) ↔
      (handleCommand env s cmd).2.any ENetCall.passesNull = false := by
  rw [call_passesNull, List.filterMap_append, calls_made, List.filterMap_cons, List.any_eq_false]
  simp only [enetCall, calls_made, Bool.not_eq_true]
  exact ⟨fun h c hc => h c (List.mem_append_right _ hc), fun h c hc =>
    (List.mem_append.mp hc).elim (pollCalls_valid s c) (h c)⟩

/-- **A step that is made leaves the process there**, unless it executes `exit` without a host. -/
theorem faulted_iff (hr : Run (commandLine host) .init tr s) (h : Pipeline host tr s items)
    (hs : (commandLine host).step s e = some (s', out)) :
    (s'.faulted = false ↔ ∀ o ∈ out, o.passesNull = false) ∧
      (s'.faulted = false ↔ ¬ ExitsUnconnected s (items.map Prod.fst) e) := by
  have hnull := passesNull_iff hr hs
  have hlive := (commandLine_step hs).1
  have hholds := h.holds hlive
  -- a step without a command leaves the process as it is
  have hother : s'.faulted = s.faulted → .command .disconnectNFree ∉ out →
      (s'.faulted = false ↔ ∀ o ∈ out, o.passesNull = false) := by
    intro hsame hno
    exact iff_of_true (hsame.trans hlive) (hnull.mpr fun hmem => absurd hmem hno)
  rcases command_cases hholds hs with ⟨hmain, -, hsame, rfl⟩ | ⟨env, rfl, hturn⟩ |
    ⟨env, t, channel, sbuf, rfl, rfl, rfl⟩
  · exact ⟨hother hsame List.not_mem_nil,
      iff_of_true (hsame.trans hlive) (not_exitsUnconnected hmain)⟩
  · obtain ⟨s₁, out₁, hturn₁, -, hcases⟩ := turn_holds hholds env
    rw [hturn₁] at hturn
    cases hturn
    rcases hcases with ⟨hdis, rfl, rfl⟩ | ⟨hdis, rfl, -, -, hsame, rfl⟩ |
      ⟨hdis, cmd, owned, rest, rfl, -, hfaulted, -, rfl⟩
    · refine ⟨hother rfl List.not_mem_nil, iff_of_true hlive ?_⟩
      rintro ⟨hno, -⟩
      exact absurd (hdis.symm.trans hno) (by simp)
    · refine ⟨hother hsame (by simp), iff_of_true (hsame.trans hlive) ?_⟩
      rintro ⟨-, hhead, -⟩
      cases hhead
    · rw [hlive, Bool.false_or] at hfaulted
      have hvalid := handled_passesNull s.handles env cmd
      rw [← hfaulted] at hvalid
      refine ⟨hvalid.symm, ?_⟩
      rw [← hvalid, hnull, command_mem]
      constructor
      · rintro hhost ⟨-, hhead, hnone⟩
        have hsome := hhost (Option.some.inj hhead).symm
        rw [hnone] at hsome
        cases hsome
      · rintro hno rfl
        exact Option.isSome_iff_ne_none.mpr fun hnone => hno ⟨hdis, rfl, hnone⟩
  · exact ⟨hother rfl (by simp), iff_of_true hlive id⟩

/-- The process is gone exactly where NULL has been passed. -/
theorem faulted_run (hr : Run (commandLine host) .init tr s) :
    s.faulted = false ↔ ∀ x ∈ tr, ∀ o ∈ x.out, o.passesNull = false := by
  have hinv := hr.trace (I := fun tr s => Run (commandLine host) .init tr s ∧
    (s.faulted = false ↔ ∀ x ∈ tr, ∀ o ∈ x.out, o.passesNull = false)) ?_ ?_
  · exact hinv.2
  · rintro tr s e s' out ⟨hr₁, ih⟩ hs
    refine ⟨hr₁.append (Run.single hs), ?_⟩
    obtain ⟨items, h⟩ := pipeline_run hr₁
    rw [(faulted_iff hr₁ h hs).1, List.forall_mem_append, ← ih, List.forall_mem_singleton]
    exact (and_iff_right (commandLine_step hs).1).symm
  · exact ⟨Run.nil _, iff_of_true rfl fun x hx => absurd hx List.not_mem_nil⟩

/-- **Nothing is freed twice, nothing is read after it has been freed, and nothing is left.** In
every run from the start in which no NULL has been passed to ENet: the live blocks are those of the
commands that have been enqueued and not executed, three of a `CONNECT` and one of the others, and
the live nodes are one for each; where `malloc` gives memory, a step is made to its end, without a
NULL, exactly when it is due and is not a turn that executes `exit` without a host; and when `exit`
has been executed nothing is live. -/
theorem commands_freed (hr : Run (commandLine host) .init tr s)
    (hvalid : ∀ x ∈ tr, ∀ o ∈ x.out, o.passesNull = false) :
    ∃ waiting blocks nodes, taken host tr = executed tr ++ (waiting ++ s.main.pending) ∧
      Owned s.blocks blocks ∧ blocks.length = (waiting.map blockCount).sum ∧
      Owned s.queue.heap nodes ∧ nodes.length = waiting.length ∧
      (∀ e : CommandEvent A H Q, e.Fresh s → ((∃ s' out, (commandLine host).step s e =
        some (s', out) ∧ ∀ o ∈ out, o.passesNull = false) ↔
          Due s e ∧ ¬ ExitsUnconnected s waiting e)) ∧
      (.disconnectNFree ∈ executed tr → ∀ a, s.blocks a = none ∧ s.queue.heap a = none) := by
  obtain ⟨items, h⟩ := pipeline_run hr
  have hlive := (faulted_run hr).mpr hvalid
  have hholds := h.holds hlive
  obtain ⟨cells, -, hnodes, hall⟩ := hholds.queue
  obtain ⟨hlength, hsum⟩ := reads_all_count hall
  refine ⟨items.map Prod.fst, items.flatMap Prod.snd, addresses cells, h.law.symm, hholds.owned,
    hsum, hnodes, ?_, fun e he => ?_, fun hexit a => ?_⟩
  · rw [List.length_map, ← hlength, contents, List.length_map, addresses, List.length_map]
  · have hreturns : (∃ x, (commandLine host).step s e = some x) ↔ Due s e :=
      command_returns hholds hlive he
    rw [← hreturns]
    constructor
    · rintro ⟨s', out, hs, hno⟩
      obtain ⟨hnull, hexit⟩ := faulted_iff hr h hs
      exact ⟨⟨_, hs⟩, hexit.mp (hnull.mpr hno)⟩
    · rintro ⟨⟨⟨s', out⟩, hs⟩, hno⟩
      obtain ⟨hnull, hexit⟩ := faulted_iff hr h hs
      exact ⟨s', out, hs, hnull.mp (hexit.mpr hno)⟩
  · obtain ⟨t₁, t₂, hsplit⟩ := List.append_of_mem hexit
    obtain ⟨-, -, rfl, -⟩ := exit_last h hsplit
    have hempty : cells = [] := by
      rw [contents, List.length_map, List.length_nil] at hlength
      exact List.length_eq_zero_iff.mp hlength
    subst hempty
    have hblock := hholds.owned.live a
    have hnode := hnodes.live a
    simp only [List.flatMap_nil, List.append_nil, addresses, List.map_nil, List.not_mem_nil,
      iff_false, Bool.not_eq_true, Option.isSome_eq_false_iff, Option.isNone_iff_eq_none]
      at hblock hnode
    exact ⟨hblock, hnode⟩

/-- After the exit everything has been freed. -/
theorem commands_freed_keyboard : ∃ tr, ∃ s : CommandLine Nat Nat Nat,
    Run (commandLine (mainHost ["client"])) .init tr s ∧ .disconnectNFree ∈ executed tr ∧
    ∀ a, s.blocks a = none ∧ s.queue.heap a = none := by
  obtain ⟨tr, s, hr, -, hQ⟩ := run_of_exec
    (commandLine (A := Nat) (H := Nat) (Q := Nat) (mainHost ["client"])) .init keyboard
    (fun tr _ => decide (.disconnectNFree ∈ executed tr) &&
      tr.all fun x => x.out.all fun o => !o.passesNull) (by decide +kernel)
  rw [Bool.and_eq_true, decide_eq_true_eq, List.all_eq_true] at hQ
  obtain ⟨hexit, hvalid⟩ := hQ
  obtain ⟨-, -, -, -, -, -, -, -, -, hdead⟩ := commands_freed hr fun x hx o ho => by
    simpa using List.all_eq_true.mp (hvalid x hx) o ho
  exact ⟨tr, s, hr, hexit, hdead hexit⟩

end MasterRelay.Client
