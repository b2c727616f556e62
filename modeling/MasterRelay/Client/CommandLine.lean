import MasterRelay.Client.Connection
import MasterRelay.Lib.Blocks
import MasterRelay.ThreadSafe.SafeQueue

/-!
# From the keyboard to the net thread

`main` after the threads have started, and the commands it hands to `net_bg_thread`: a command, the
`strct_msg_connect` it may come with and the copy of the host are blocks on the heap, and their
addresses go through the queue of `safe_queue.c`. `main` allocates them, the net thread frees them.

A line of `main` is one step; where it enqueues a second command, that is a step of its own, and so
is a turn of the net thread: the blocks are `main`'s until the push and the net thread's after the
pop, so nobody sees a step half done. The nodes of the queue have a heap of their own. A step is
refused where `malloc` gives an address that is live, and where the process would fault: a result of
`malloc` that is written through without a look, a block that is read or freed and is not live.

A NULL handle that is passed to ENet is an output like the others, and the last one: the process
does not come back from `enet_peer_disconnect(NULL, 0)` (`faulted`), so the command is not freed,
and no step follows.

* `Holds`: the queue holds commands, and the live blocks are theirs.
* `mainLine_holds`, `turn_holds`: what a line adds, and what a turn takes.
* `taken_sublist`: what `main` takes of what is typed.
* **`command_step`**: what is executed and what is left is what was there and what is taken.
-/

namespace MasterRelay.Client

open MasterRelay.Lib.Blocks
open MasterRelay.Lib.LinkedList
open MasterRelay.Lib.MsgPack
open MasterRelay.Lib.Runs
open MasterRelay.Protocol
open MasterRelay.ThreadSafe

/-- `PTCL_PORT`. -/
def ptclPort : Int := 7777

/-- `strct_client_command_type`. -/
inductive CommandType where
  | connect
  | disconnectNFree
  | reqUserInfo
  deriving DecidableEq, Repr

/-- `strct_client_command_msg`, `strct_msg_connect`, or the copy of the host. -/
inductive Block (A : Type) where
  | commandMsg (type : CommandType) (data : Option A)
  | msgConnect (host : A) (port : Int)
  | hostBuf (text : String)

/-- Where `main` is: in `fgets`, before the second command of `conreg`, behind its loop, in
`thrd_sleep`, or in `pthread_join`. -/
inductive MainPc where
  | reading
  | registering
  | leaving
  | waiting
  | joining
  deriving DecidableEq, Repr

/-- The heap and `LOCAL_COMMANDS_SF_QUEUE`, the handles of the net thread, `main`, and
`IS_APP_RUNNING`. -/
structure CommandLine (A H Q : Type) where
  blocks : Store A (Block A)
  queue : SafeQueue A (Option A)
  handles : Handles H Q
  main : MainPc
  isAppRunning : Bool
  /-- ENet has been handed NULL. -/
  faulted : Bool

/-- What the `malloc`s of a line or a command give; `none` is NULL. -/
structure CommandMallocs (A : Type) where
  hostBuf : Option A
  msgConnect : Option A
  commandMsg : Option A
  node : Option A

/-- What `fgets` gives, a second command, `IS_APP_RUNNING` going false, a turn of the net thread, or
a call of `try_execute_tick` that gets to sending what it has packed. -/
inductive CommandEvent (A H Q : Type) where
  | line (ms : CommandMallocs A) (inputBuf : Option String)
  | enqueue (ms : CommandMallocs A)
  | stop
  | turn (env : NetEnv H Q)
  | tick (env : Env Q) (t : MessageType) (channel : ChannelId) (sbuf : Bytes)

/-- A command that is executed, or a call of ENet. -/
inductive CommandOutput (H Q : Type) where
  | command (cmd : ClientCommand)
  | call (c : ENetCall H Q)
  deriving DecidableEq

/-- The `host` of `main`. -/
def mainHost : List String → Option String
  | [_] => some "127.0.0.1"
  | [_, host] => some host
  | _ => none

/-- `input_buf` after its newline, or the first NUL, has ended it. -/
def lineText (inputBuf : String) : String :=
  .ofList (inputBuf.toList.takeWhile fun c => c != '\n' && c != '\x00')

/-- `host_buf`, which has room for 511 bytes and the NUL; a character is a byte. -/
def copiedHost (host : String) : String := .ofList (host.toList.take 511)

section Steps

variable {A H Q : Type} [DecidableEq A]

/-- `enqueue_cmd`. -/
def enqueueCmd (s : CommandLine A H Q) (ms : CommandMallocs A) (type : CommandType)
    (data : Option A) : Option (CommandLine A H Q) :=
  match ms.commandMsg, ms.node with
  | some msg, some node =>
    match malloc s.blocks msg (.commandMsg type data),
      safeQueue.step s.queue (.push node (some msg)) with
    | some blocks, some r => some { s with blocks := blocks, queue := r.1 }
    | _, _ => none
  -- neither is looked at
  | _, _ => none

/-- `send_connect_cmd`. -/
def sendConnectCmd (s : CommandLine A H Q) (ms : CommandMallocs A) (host : Option String)
    (port : Int) : Option (CommandLine A H Q) :=
  match host with
  | none => some s
  | some host =>
    match ms.hostBuf with
    | none => some s
    | some hostBuf =>
      match malloc s.blocks hostBuf (.hostBuf (copiedHost host)) with
      | none => none
      | some blocks =>
        match ms.msgConnect with
        | none => none
        | some msg =>
          match malloc blocks msg (.msgConnect hostBuf port) with
          | none => none
          | some blocks => enqueueCmd { s with blocks := blocks } ms .connect (some msg)

/-- The loop of `main`, at a line. A tick or an unknown line enqueues nothing. -/
def mainLine (host : Option String) (s : CommandLine A H Q) (ms : CommandMallocs A)
    (line : String) : Option (CommandLine A H Q) :=
  if line = "exit" then some { s with main := .leaving }
  else if line = "conreg" then
    (sendConnectCmd s ms host ptclPort).map fun s => { s with main := .registering }
  else if line = "connect" then sendConnectCmd s ms host ptclPort
  else if line = "request_ui" then enqueueCmd s ms .reqUserInfo none
  else some s

/-- What the net thread reads through the pointer it has popped: the command, and the blocks it
frees when it has executed it. -/
def readCommand (blocks : Store A (Block A)) (cmdMsg : A) : Option (ClientCommand × List A) :=
  match blocks cmdMsg with
  | some (.commandMsg .connect (some msg)) =>
    match blocks msg with
    | some (.msgConnect host port) =>
      match blocks host with
      | some (.hostBuf text) => some (.connect (some ⟨text, port⟩), [host, msg, cmdMsg])
      | _ => none
    | _ => none
  -- `continue`, past the `free`
  | some (.commandMsg .connect none) => some (.connect none, [])
  | some (.commandMsg .disconnectNFree _) => some (.disconnectNFree, [cmdMsg])
  | some (.commandMsg .reqUserInfo _) => some (.reqUserInfo, [cmdMsg])
  | _ => none

/-- One turn of the loop of `net_bg_thread`. -/
def bgThreadTurn (env : NetEnv H Q) (s : CommandLine A H Q) :
    Option (CommandLine A H Q × List (CommandOutput H Q)) :=
  if s.handles.isDisconnected then some (s, [])
  else
    match ifbSafeQueueTryPop s.queue none with
    | none => none
    | some (queue, true, some cmdMsg) =>
      match readCommand s.blocks cmdMsg with
      | none => none
      | some (cmd, owned) =>
        let r := handleCommand env s.handles cmd
        let out := (pollCalls s.handles).map .call ++ .command cmd :: r.2.map .call
        -- the frees behind the call are not reached
        if r.2.any ENetCall.passesNull then
          some ({ s with queue := queue, handles := r.1, faulted := true }, out)
        else (freeAll s.blocks owned).map fun blocks =>
          ({ s with blocks := blocks, queue := queue, handles := r.1 }, out)
    | some (queue, _, _) => some ({ s with queue := queue }, (pollCalls s.handles).map .call)

/-- One step. -/
def commandStep (host : Option String) (s : CommandLine A H Q) :
    CommandEvent A H Q → Option (CommandLine A H Q × List (CommandOutput H Q))
  | .line ms inputBuf =>
    if s.main = .reading then
      match inputBuf with
      | none => some (s, [])
      | some buf => (mainLine host s ms (lineText buf)).map fun s => (s, [])
    else none
  | .enqueue ms =>
    match s.main with
    | .registering => (enqueueCmd s ms .reqUserInfo none).map fun s =>
        ({ s with main := .reading }, [])
    | .leaving => (enqueueCmd s ms .disconnectNFree none).map fun s =>
        ({ s with main := .waiting }, [])
    | .reading => none
    | .waiting => none
    | .joining => none
  | .stop =>
    if s.main = .waiting then some ({ s with main := .joining, isAppRunning := false }, [])
    else none
  | .turn env => if s.isAppRunning then bgThreadTurn env s else none
  | .tick env t channel sbuf =>
    some (s, (sendMsgCalls env t channel (some sbuf) s.handles.clientPeer s.handles.clientHost
      false false).map .call)

/-- **The commands of a client.** -/
def commandLine (host : Option String) :
    System (CommandLine A H Q) (CommandEvent A H Q) (CommandOutput H Q) :=
  ⟨fun s e => if s.faulted then none else commandStep host s e⟩

/-- A step of a process that is there. -/
theorem commandLine_step {host : Option String} {s s' : CommandLine A H Q}
    {e : CommandEvent A H Q} {out : List (CommandOutput H Q)}
    (hs : (commandLine host).step s e = some (s', out)) :
    s.faulted = false ∧ commandStep host s e = some (s', out) := by
  simp only [commandLine] at hs
  split_ifs at hs with hfaulted
  exact ⟨eq_false_of_ne_true hfaulted, hs⟩

end Steps

variable {A H Q : Type}

/-- When the threads start. -/
def CommandLine.init : CommandLine A H Q :=
  ⟨fun _ => none, .empty fun _ => none, .init, .reading, true, false⟩

/-! ## Commands on the heap -/

variable {s s' : CommandLine A H Q} {blocks blocks' : Store A (Block A)}

/-- What is queued is a command with its blocks, the message among them. -/
def Reads (blocks : Store A (Block A)) (data : Option A) (item : ClientCommand × List A) : Prop :=
  ∃ cmdMsg, data = some cmdMsg ∧ readCommand blocks cmdMsg = some item ∧ cmdMsg ∈ item.2

/-- **The queue holds these commands**, and the live blocks are theirs, but for those `main` is
about to enqueue; the live nodes are the queue's. -/
structure Holds (s : CommandLine A H Q) (items : List (ClientCommand × List A)) (own : List A) :
    Prop where
  queue : ∃ cells, IsQueue s.queue cells ∧ Owned s.queue.heap (addresses cells) ∧
    List.Forall₂ (Reads s.blocks) (contents cells) items
  owned : Owned s.blocks (own ++ items.flatMap Prod.snd)

theorem holds_init : Holds (.init : CommandLine A H Q) [] [] where
  queue := ⟨[], isQueue_empty _, owned_empty, .nil⟩
  owned := owned_empty

/-- Reading a command depends on its blocks only. -/
theorem reads_frame {data : Option A} {item : ClientCommand × List A} (h : Reads blocks data item)
    (hsame : ∀ a ∈ item.2, blocks' a = blocks a) : Reads blocks' data item := by
  obtain ⟨p, rfl, hread, hp⟩ := h
  refine ⟨p, rfl, ?_, hp⟩
  have hmsg := hsame p hp
  unfold readCommand at hread ⊢
  rw [hmsg]
  split at hread
  · rename_i msg hcmd
    split at hread
    · rename_i host port hconnect
      split at hread
      · rename_i text htext
        obtain rfl := Option.some.inj hread
        rw [hsame msg (by simp), hconnect]
        dsimp only
        rw [hsame host (by simp), htext]
      · cases hread
    · cases hread
  · cases hread
    exact absurd hp List.not_mem_nil
  · exact hread
  · exact hread
  · cases hread

theorem reads_all_frame {datas : List (Option A)} {items : List (ClientCommand × List A)}
    (h : List.Forall₂ (Reads blocks) datas items)
    (hsame : ∀ a ∈ items.flatMap Prod.snd, blocks' a = blocks a) :
    List.Forall₂ (Reads blocks') datas items := by
  induction h with
  | nil => exact .nil
  | cons hread _ ih =>
    refine .cons (reads_frame hread fun a ha => hsame a ?_) (ih fun a ha => hsame a ?_)
    · exact List.mem_append_left _ ha
    · exact List.mem_append_right _ ha

variable [DecidableEq A] {items : List (ClientCommand × List A)} {own : List A}

/-- A block for `main`. -/
theorem malloc_holds (h : Holds s items own) {a : A} {b : Block A}
    (hm : malloc s.blocks a b = some blocks) :
    Holds { s with blocks := blocks } items (a :: own) ∧ blocks a = some b ∧
      ∀ c ∈ own, blocks c = s.blocks c := by
  obtain ⟨howned, ha, hother⟩ := h.owned.malloc hm
  obtain ⟨cells, hq, hnodes, hread⟩ := h.queue
  exact ⟨⟨⟨cells, hq, hnodes, reads_all_frame hread fun c hc =>
    hother c (List.mem_append_right _ hc)⟩, howned⟩, ha,
    fun c hc => hother c (List.mem_append_left _ hc)⟩

/-- A push makes one node live. -/
theorem push_owned {q q' : SafeQueue A (Option A)} {cells : List (A × Option A)}
    (hq : IsQueue q cells) (h : Owned q.heap (addresses cells)) {node : A} {data : Option A}
    {out : List (QueueResult (Option A))}
    (hs : safeQueue.step q (.push node data) = some (q', out)) :
    IsQueue q' (cells ++ [(node, data)]) ∧ Owned q'.heap (addresses (cells ++ [(node, data)])) := by
  have hfresh : q.heap node = none := fresh_of_step hs node data rfl
  simp only [safeQueue, queueStep, hfresh] at hs
  obtain ⟨q₁, hpush, hq₁⟩ := push_isQueue hq hfresh data
  rw [hpush] at hs
  cases hs
  refine ⟨hq₁, ?_⟩
  have hnew : Owned (Function.update q.heap node (some ⟨data, none⟩)) (node :: addresses cells) :=
    (h.malloc (malloc_fresh _ hfresh)).1
  have hwritten : Owned q'.heap (node :: addresses cells) := by
    unfold ifbSafeQueuePush at hpush
    cases htail : q.tail with
    | none =>
      rw [htail] at hpush
      cases hpush
      exact hnew
    | some tail =>
      rw [htail] at hpush
      dsimp only at hpush
      split at hpush
      · cases hpush
      · cases hpush
        obtain ⟨front, v, rfl⟩ := cells_of_tail hq htail
        exact hnew.write (List.mem_cons_of_mem _ (by simp [addresses])) _
  have hperm : (node :: addresses cells).Perm (addresses cells ++ [node]) :=
    (List.perm_append_singleton node (addresses cells)).symm
  rw [show addresses (cells ++ [(node, data)]) = addresses cells ++ [node] from List.map_append]
  exact hwritten.perm hperm

/-- Unlinking the head frees its node. -/
theorem unlink_owned {q q' : SafeQueue A (Option A)} {node : A} {l : List A}
    {data : Option A} (h : Owned q.heap (node :: l)) (hs : unlink q node = some (q', data)) :
    Owned q'.heap l := by
  obtain ⟨heap, hfree, howned, -⟩ := h.free
  unfold unlink at hs
  split at hs
  · cases hs
  · rename_i n hn
    cases hs
    rw [free, hn] at hfree
    cases hfree
    exact howned

/-- **A command is enqueued** with what `main` has allocated for it. -/
theorem enqueueCmd_holds (h : Holds s items own) {ms : CommandMallocs A} {type : CommandType}
    {data : Option A} {cmd : ClientCommand} {mine : A → List A}
    (hread : ∀ blocks p, (∀ c ∈ own, blocks c = s.blocks c) →
      blocks p = some (.commandMsg type data) → readCommand blocks p = some (cmd, mine p))
    (hperm : ∀ p, (mine p).Perm (p :: own)) (hs : enqueueCmd s ms type data = some s') :
    (∃ p, Holds s' (items ++ [(cmd, mine p)]) []) ∧
      s' = { s with blocks := s'.blocks, queue := s'.queue } := by
  unfold enqueueCmd at hs
  split at hs
  · rename_i msg node hmsg hnode
    split at hs
    · rename_i blocks r hm hpush
      cases hs
      obtain ⟨h', hb, hsame⟩ := malloc_holds h hm
      obtain ⟨cells, hq, hnodes, hall⟩ := h'.queue
      obtain ⟨hq', hnodes'⟩ := push_owned hq hnodes hpush
      refine ⟨⟨msg, ⟨_, hq', hnodes', ?_⟩, ?_⟩, rfl⟩
      · rw [contents, List.map_append]
        refine List.rel_append hall (.cons ⟨msg, rfl, hread blocks msg hsame hb, ?_⟩ .nil)
        exact (hperm msg).mem_iff.mpr List.mem_cons_self
      · -- the new blocks go behind those of the commands before
        refine h'.owned.perm ?_
        rw [List.flatMap_append, List.flatMap_singleton, List.nil_append]
        exact ((hperm msg).symm.append_right _).trans List.perm_append_comm
    · cases hs
  · cases hs

/-! ## What is typed -/

/-- The commands a line stands for, `send_connect_cmd` standing for these. -/
def commandsOf (connect : List ClientCommand) (line : String) : List ClientCommand :=
  if line = "exit" then [.disconnectNFree]
  else if line = "conreg" then connect ++ [.reqUserInfo]
  else if line = "connect" then connect
  else if line = "request_ui" then [.reqUserInfo]
  else []

/-- The command of `send_connect_cmd`, where there is a host. -/
def connectTyped (host : Option String) : List ClientCommand :=
  (host.map fun name => .connect (some ⟨copiedHost name, ptclPort⟩)).toList

/-- The same where there is room for a copy of the host, too. -/
def connectCommands (host : Option String) (ms : CommandMallocs A) : List ClientCommand :=
  if ms.hostBuf.isSome then connectTyped host else []

/-- **The commands `main` takes of a line.** -/
def lineCommands (host : Option String) (ms : CommandMallocs A) (line : String) :
    List ClientCommand := commandsOf (connectCommands host ms) line

/-- What `main` has read and not enqueued yet. -/
def MainPc.pending : MainPc → List ClientCommand
  | .registering => [.reqUserInfo]
  | .leaving => [.disconnectNFree]
  | .reading => []
  | .waiting => []
  | .joining => []

/-- `send_connect_cmd` enqueues its command. -/
theorem sendConnectCmd_holds (h : Holds s items []) {ms : CommandMallocs A} {host : Option String}
    (hs : sendConnectCmd s ms host ptclPort = some s') :
    (∃ new, Holds s' (items ++ new) [] ∧ new.map Prod.fst = connectCommands host ms) ∧
      s' = { s with blocks := s'.blocks, queue := s'.queue } := by
  unfold sendConnectCmd at hs
  unfold connectCommands
  split at hs
  · cases hs
    exact ⟨⟨[], by rwa [List.append_nil], by simp [connectTyped]⟩, rfl⟩
  · rename_i host
    split at hs
    · rename_i hnull
      cases hs
      rw [hnull]
      exact ⟨⟨[], by rwa [List.append_nil], rfl⟩, rfl⟩
    · rename_i hostBuf hbuf
      rw [hbuf]
      split at hs
      · cases hs
      · rename_i blocks₁ hm₁
        obtain ⟨h₁, htext, -⟩ := malloc_holds h hm₁
        split at hs
        · cases hs
        · rename_i msg hmsg
          split at hs
          · cases hs
          · rename_i blocks₂ hm₂
            obtain ⟨h₂, hconnect, hsame₂⟩ := malloc_holds h₁ hm₂
            have hread : ∀ (blocks : Store A (Block A)) (p : A),
                (∀ c ∈ [msg, hostBuf], blocks c = blocks₂ c) →
                blocks p = some (.commandMsg .connect (some msg)) → readCommand blocks p =
                  some (.connect (some ⟨copiedHost host, ptclPort⟩), [hostBuf, msg, p]) := by
              intro blocks p hsame hp
              have hmsg' : blocks msg = _ := (hsame msg (by simp)).trans hconnect
              have htext' : blocks hostBuf = _ :=
                ((hsame hostBuf (by simp)).trans (hsame₂ hostBuf (by simp))).trans htext
              simp only [readCommand, hp, hmsg', htext']
            have hperm : ∀ p, [hostBuf, msg, p].Perm [p, msg, hostBuf] := fun p =>
              (List.reverse_perm _).symm
            obtain ⟨⟨p, h'⟩, hframe⟩ := enqueueCmd_holds h₂ hread hperm hs
            exact ⟨⟨_, h', rfl⟩, hframe⟩

/-- A command without data. -/
theorem enqueuePlain_holds (h : Holds s items []) {ms : CommandMallocs A} {type : CommandType}
    {cmd : ClientCommand} (hread : ∀ (blocks : Store A (Block A)) (p : A),
      blocks p = some (.commandMsg type none) → readCommand blocks p = some (cmd, [p]))
    (hs : enqueueCmd s ms type none = some s') :
    (∃ new, Holds s' (items ++ new) [] ∧ new.map Prod.fst = [cmd]) ∧
      s' = { s with blocks := s'.blocks, queue := s'.queue } := by
  have hperm : ∀ p : A, [p].Perm [p] := fun p => .refl _
  obtain ⟨⟨p, h'⟩, hframe⟩ := enqueueCmd_holds h (fun blocks p _ hp => hread blocks p hp) hperm hs
  exact ⟨⟨_, h', rfl⟩, hframe⟩

omit [DecidableEq A] in
theorem readCommand_reqUserInfo {p : A} (hp : blocks p = some (.commandMsg .reqUserInfo none)) :
    readCommand blocks p = some (.reqUserInfo, [p]) := by
  simp only [readCommand, hp]

omit [DecidableEq A] in
theorem readCommand_disconnectNFree {p : A}
    (hp : blocks p = some (.commandMsg .disconnectNFree none)) :
    readCommand blocks p = some (.disconnectNFree, [p]) := by
  simp only [readCommand, hp]

/-- **A line** enqueues its commands, or leaves the last for the next step of `main`. -/
theorem mainLine_holds (h : Holds s items []) (hmain : s.main = .reading)
    {ms : CommandMallocs A} {host : Option String} {line : String}
    (hs : mainLine host s ms line = some s') :
    ∃ new, Holds s' (items ++ new) [] ∧
      new.map Prod.fst ++ s'.main.pending = lineCommands host ms line ∧
      s'.handles = s.handles ∧ s'.isAppRunning = s.isAppRunning ∧
      (s'.main = if line = "exit" then .leaving else if line = "conreg" then .registering
        else .reading) := by
  unfold mainLine at hs
  unfold lineCommands commandsOf
  split_ifs at hs ⊢
  · cases hs
    exact ⟨[], ⟨by simpa using h.queue, by simpa using h.owned⟩, rfl, rfl, rfl, rfl⟩
  · obtain ⟨s₁, hs₁, rfl⟩ := Option.map_eq_some_iff.mp hs
    obtain ⟨⟨new, h', hnew⟩, hframe⟩ := sendConnectCmd_holds h hs₁
    refine ⟨new, ⟨h'.queue, h'.owned⟩, ?_, ?_, ?_, rfl⟩
    · rw [hnew]
      rfl
    · rw [hframe]
    · rw [hframe]
  · obtain ⟨⟨new, h', hnew⟩, hframe⟩ := sendConnectCmd_holds h hs
    have hmain' : s'.main = .reading := by
      rw [hframe]
      exact hmain
    refine ⟨new, h', ?_, ?_, ?_, hmain'⟩
    · rw [hnew, hmain']
      exact List.append_nil _
    · rw [hframe]
    · rw [hframe]
  · obtain ⟨⟨new, h', hnew⟩, hframe⟩ := enqueuePlain_holds h
      (fun _ _ => readCommand_reqUserInfo) hs
    have hmain' : s'.main = .reading := by
      rw [hframe]
      exact hmain
    refine ⟨new, h', ?_, ?_, ?_, hmain'⟩
    · rw [hnew, hmain']
      rfl
    · rw [hframe]
    · rw [hframe]
  · cases hs
    refine ⟨[], by rwa [List.append_nil], ?_, rfl, rfl, hmain⟩
    rw [hmain]
    rfl

/-- A line leaves the process there. -/
theorem mainLine_faulted (h : Holds s items []) {ms : CommandMallocs A} {host : Option String}
    {line : String} (hs : mainLine host s ms line = some s') : s'.faulted = s.faulted := by
  unfold mainLine at hs
  split_ifs at hs
  · cases hs
    rfl
  · obtain ⟨s₁, hs₁, rfl⟩ := Option.map_eq_some_iff.mp hs
    rw [(sendConnectCmd_holds h hs₁).2]
  · rw [(sendConnectCmd_holds h hs).2]
  · rw [(enqueuePlain_holds h (fun _ _ => readCommand_reqUserInfo) hs).2]
  · cases hs
    rfl

/-! ## What is executed -/

/-- **A turn of the net thread** does nothing any more, finds nothing, or executes the first
command and frees its blocks, unless it passes NULL. -/
theorem turn_holds (h : Holds s items []) (env : NetEnv H Q) :
    ∃ s' out, bgThreadTurn env s = some (s', out) ∧ s'.main = s.main ∧
      (s.handles.isDisconnected = true ∧ s' = s ∧ out = [] ∨
      s.handles.isDisconnected = false ∧ items = [] ∧ Holds s' [] [] ∧ s'.handles = s.handles ∧
        s'.faulted = s.faulted ∧ out = (pollCalls s.handles).map .call ∨
      s.handles.isDisconnected = false ∧ ∃ cmd owned rest, items = (cmd, owned) :: rest ∧
        (s'.faulted = false → Holds s' rest []) ∧
        s'.faulted = (s.faulted || (handleCommand env s.handles cmd).2.any ENetCall.passesNull) ∧
        s'.handles = (handleCommand env s.handles cmd).1 ∧
        out = (pollCalls s.handles).map .call ++
          .command cmd :: (handleCommand env s.handles cmd).2.map .call) := by
  unfold bgThreadTurn
  split_ifs with hdis
  · exact ⟨s, [], rfl, rfl, .inl ⟨hdis, rfl, rfl⟩⟩
  · rw [Bool.not_eq_true] at hdis
    obtain ⟨cells, hq, hnodes, hall⟩ := h.queue
    cases cells with
    | nil =>
      cases hall
      have hhead : s.queue.head = none := hq.chain.eq_none_iff.mpr rfl
      simp only [ifbSafeQueueTryPop, hhead]
      exact ⟨_, _, rfl, rfl, .inr (.inl ⟨hdis, trivial, ⟨⟨[], hq, hnodes, .nil⟩, h.owned⟩, rfl, rfl,
        rfl⟩)⟩
    | cons c cells =>
      obtain ⟨node, data⟩ := c
      cases hall with
      | @cons _ item _ rest hread hrest =>
      obtain ⟨cmd, owned⟩ := item
      obtain ⟨p, rfl, hread, -⟩ := hread
      obtain ⟨q', hunlink, hq'⟩ := unlink_isQueue hq
      have hnodes' := unlink_owned hnodes hunlink
      have howned : Owned s.blocks (owned ++ rest.flatMap Prod.snd) := h.owned
      obtain ⟨blocks', hfree, howned', hsame⟩ := Owned.freeAll howned
      have hpop : ifbSafeQueueTryPop s.queue none = some (q', true, some p) := by
        simp only [ifbSafeQueueTryPop, hq.chain.1, hunlink, Option.map_some]
      simp only [hpop, hread, hfree, Option.map_some]
      split_ifs with hnull
      · refine ⟨_, _, rfl, rfl, .inr (.inr ⟨hdis, cmd, owned, rest, rfl, ?_, ?_, rfl, rfl⟩)⟩
        · exact fun hlive => by cases hlive
        · rw [hnull, Bool.or_true]
      · refine ⟨_, _, rfl, rfl,
          .inr (.inr ⟨hdis, cmd, owned, rest, rfl, fun _ => ?_, ?_, rfl, rfl⟩)⟩
        · exact ⟨⟨cells, hq', hnodes', reads_all_frame hrest hsame⟩, howned'⟩
        · rw [eq_false_of_ne_true hnull, Bool.or_false]

/-- The command an output reports. -/
def executedCommand : CommandOutput H Q → Option ClientCommand
  | .command cmd => some cmd
  | .call _ => none

/-- The commands `main` takes of a line it reads. -/
def takenCommands (host : Option String) : CommandEvent A H Q → List ClientCommand
  | .line ms (some buf) => lineCommands host ms (lineText buf)
  | .line _ none => []
  | .enqueue _ => []
  | .stop => []
  | .turn _ => []
  | .tick _ _ _ _ => []

omit [DecidableEq A] in
theorem executed_calls (calls : List (ENetCall H Q)) :
    (calls.map CommandOutput.call).filterMap executedCommand = [] := by
  rw [List.filterMap_map]
  exact List.filterMap_eq_nil_iff.mpr fun _ _ => rfl

/-- Where `main` is says whether `exit` has been typed, after which nothing is. -/
def Exits (main : MainPc) (cmds : List ClientCommand) : Prop :=
  if main = .reading ∨ main = .registering then ClientCommand.disconnectNFree ∉ cmds
  else ∃ front, cmds = front ++ [.disconnectNFree] ∧ ClientCommand.disconnectNFree ∉ front

variable {host : Option String} {e : CommandEvent A H Q} {out : List (CommandOutput H Q)}
  {cmds : List ClientCommand}

omit [DecidableEq A] in
/-- A line stands for a disconnect if it is `exit`, and then for nothing else. -/
theorem disconnect_typed {ms : CommandMallocs A} {line : String}
    (h : ClientCommand.disconnectNFree ∈ lineCommands host ms line) : line = "exit" := by
  have hconnect : ClientCommand.disconnectNFree ∉ connectCommands host ms := by
    intro hmem
    unfold connectCommands connectTyped at hmem
    split_ifs at hmem
    · obtain ⟨name, -, hname⟩ := Option.map_eq_some_iff.mp (Option.mem_toList.mp hmem)
      cases hname
    · exact absurd hmem List.not_mem_nil
  unfold lineCommands commandsOf at h
  split_ifs at h with hexit
  · exact hexit
  · rcases List.mem_append.mp h with h' | h'
    · exact absurd h' hconnect
    · exact absurd (List.mem_singleton.mp h') (by simp)
  · exact absurd h hconnect
  · exact absurd (List.mem_singleton.mp h) (by simp)
  · exact absurd h List.not_mem_nil

omit [DecidableEq A] in
theorem exits_line (h : Exits .reading cmds) {ms : CommandMallocs A} {line : String} :
    Exits (if line = "exit" then .leaving else if line = "conreg" then .registering else .reading)
      (cmds ++ lineCommands host ms line) := by
  have hno : ClientCommand.disconnectNFree ∉ cmds := by simpa [Exits] using h
  by_cases hexit : line = "exit"
  · subst hexit
    exact ⟨cmds, rfl, hno⟩
  · have hmain : (if line = "conreg" then MainPc.registering else .reading) = .reading ∨
        (if line = "conreg" then MainPc.registering else .reading) = .registering := by
      by_cases hcon : line = "conreg"
      · exact .inr (if_pos hcon)
      · exact .inl (if_neg hcon)
    rw [if_neg hexit, Exits, if_pos hmain, List.mem_append, not_or]
    exact ⟨hno, fun hmem => hexit (disconnect_typed hmem)⟩

/-- **One step**: what is executed and what is left is what was there and what is taken. -/
theorem command_step (h : Holds s items [])
    (hs : (commandLine host).step s e = some (s', out)) : ∃ items',
      (s'.faulted = false → Holds s' items' []) ∧
      out.filterMap executedCommand ++ (items'.map Prod.fst ++ s'.main.pending) =
        items.map Prod.fst ++ s.main.pending ++ takenCommands host e ∧
      ∀ cmds, Exits s.main cmds → Exits s'.main (cmds ++ takenCommands host e) := by
  obtain ⟨hlive, hs⟩ := commandLine_step hs
  cases e with
  | line ms inputBuf =>
    simp only [commandStep] at hs
    split_ifs at hs with hmain
    cases inputBuf with
    | none =>
      cases hs
      refine ⟨items, fun _ => h, (List.append_nil _).symm, fun cmds hexits => ?_⟩
      rwa [takenCommands, List.append_nil]
    | some buf =>
      obtain ⟨s₁, hline, heq⟩ := Option.map_eq_some_iff.mp hs
      cases heq
      obtain ⟨new, h', hnew, -, -, hmain'⟩ := mainLine_holds h hmain hline
      refine ⟨_, fun _ => h', ?_, fun cmds hexits => ?_⟩
      · rw [List.filterMap_nil, List.nil_append, List.map_append, List.append_assoc, hnew, hmain]
        exact (congrArg (· ++ _) (List.append_nil _)).symm
      · rw [hmain']
        exact exits_line (hmain ▸ hexits)
  | enqueue ms =>
    simp only [commandStep] at hs
    cases hmain : s.main with
    | registering =>
      rw [hmain] at hs
      obtain ⟨s₁, henqueue, heq⟩ := Option.map_eq_some_iff.mp hs
      cases heq
      obtain ⟨⟨new, h', hnew⟩, -⟩ := enqueuePlain_holds h (fun _ _ => readCommand_reqUserInfo)
        henqueue
      refine ⟨_, fun _ => ⟨h'.queue, h'.owned⟩, ?_, fun cmds hexits => ?_⟩
      · rw [List.map_append, hnew]
        simp [MainPc.pending, takenCommands]
      · simpa [Exits, takenCommands] using hexits
    | leaving =>
      rw [hmain] at hs
      obtain ⟨s₁, henqueue, heq⟩ := Option.map_eq_some_iff.mp hs
      cases heq
      obtain ⟨⟨new, h', hnew⟩, -⟩ := enqueuePlain_holds h
        (fun _ _ => readCommand_disconnectNFree) henqueue
      refine ⟨_, fun _ => ⟨h'.queue, h'.owned⟩, ?_, fun cmds hexits => ?_⟩
      · rw [List.map_append, hnew]
        simp [MainPc.pending, takenCommands]
      · simpa [Exits, takenCommands] using hexits
    | reading => simp [hmain] at hs
    | waiting => simp [hmain] at hs
    | joining => simp [hmain] at hs
  | stop =>
    simp only [commandStep] at hs
    split_ifs at hs with hmain
    cases hs
    refine ⟨items, fun _ => ⟨h.queue, h.owned⟩, ?_, fun cmds hexits => ?_⟩
    · rw [hmain]
      simp [MainPc.pending, takenCommands]
    · rw [hmain] at hexits
      simpa [Exits, takenCommands] using hexits
  | turn env =>
    simp only [commandStep] at hs
    split_ifs at hs
    obtain ⟨s₁, out₁, hturn, hmain, hcases⟩ := turn_holds h env
    rw [hturn] at hs
    cases hs
    have hexits : ∀ cmds, Exits s.main cmds → Exits s'.main (cmds ++ []) := by
      intro cmds hexits
      rwa [List.append_nil, hmain]
    rcases hcases with ⟨-, rfl, rfl⟩ | ⟨-, rfl, h', -, -, rfl⟩ |
      ⟨-, cmd, owned, rest, rfl, h', -, -, rfl⟩
    · exact ⟨items, fun _ => h, (List.append_nil _).symm, hexits⟩
    · refine ⟨[], fun _ => h', ?_, hexits⟩
      rw [executed_calls, hmain]
      exact (List.append_nil _).symm
    · refine ⟨rest, h', ?_, hexits⟩
      rw [List.filterMap_append, executed_calls, List.nil_append, List.filterMap_cons, hmain]
      simp only [executedCommand, executed_calls, takenCommands, List.append_nil, List.map_cons,
        List.cons_append, List.nil_append]
  | tick env t channel sbuf =>
    cases hs
    refine ⟨items, fun _ => h, ?_, fun cmds hexits => ?_⟩
    · rw [executed_calls]
      exact (List.append_nil _).symm
    · rwa [takenCommands, List.append_nil]

end MasterRelay.Client
