import MasterRelay.Lib.LinkedList
import MasterRelay.Lib.Runs

/-!
# The command queue

`safe_queue.c`: nodes on the heap, linked from `head` to `tail`. The mutex makes each operation one
step, whichever thread runs it; the address `malloc` returns is part of the event, and an address
that holds a node already is none. `ifb_safe_queue_pop` waits while the queue is empty, so its step
is refused there; a step is also refused where it would follow a pointer to a node that is gone.

`fifo` is what the queue is for, a list. `IsQueue` is the representation invariant. `queue_step`
says that each operation keeps it and gives what the list gives; **`safeQueue_fifo`** says so of
every run, and that nothing but an empty queue holds up an operation.
-/

namespace MasterRelay.ThreadSafe

open MasterRelay.Lib.LinkedList
open MasterRelay.Lib.Runs

variable {A V : Type}

/-- `ifb_strct_safe_queue`, with the heap its nodes live in. -/
structure SafeQueue (A V : Type) where
  heap : Heap A V
  head : Option A
  tail : Option A

/-- A queue before its first operation. -/
def SafeQueue.empty (heap : Heap A V) : SafeQueue A V := ⟨heap, none, none⟩

section Operations

variable [DecidableEq A]

/-- `ifb_safe_queue_push`, where `malloc` returned `node`. -/
def ifbSafeQueuePush (q : SafeQueue A V) (node : A) (data : V) : Option (SafeQueue A V) :=
  let heap := Function.update q.heap node (some ⟨data, none⟩)
  match q.tail with
  | some tail =>
    match heap tail with
    | none => none
    | some last =>
      some ⟨Function.update heap tail (some { last with next := some node }), q.head, some node⟩
  | none => some ⟨heap, some node, some node⟩

/-- The unlinking both pops do: the queue without its head `temp`, and `temp->data`. -/
def unlink (q : SafeQueue A V) (temp : A) : Option (SafeQueue A V × V) :=
  match q.heap temp with
  | none => none
  | some node =>
    some (⟨Function.update q.heap temp none, node.next,
      if node.next.isNone then none else q.tail⟩, node.data)

/-- `ifb_safe_queue_pop`. -/
def ifbSafeQueuePop (q : SafeQueue A V) : Option (SafeQueue A V × V) :=
  match q.head with
  | none => none
  | some temp => unlink q temp

/-- `ifb_safe_queue_try_pop`: the result and `*out_data`. -/
def ifbSafeQueueTryPop (q : SafeQueue A V) (outData : V) : Option (SafeQueue A V × Bool × V) :=
  match q.head with
  | none => some (q, false, outData)
  | some temp => (unlink q temp).map fun r => (r.1, true, r.2)

end Operations

/-- An operation, with the address `malloc` returns or with `*out_data` before the call. -/
inductive QueueEvent (A V : Type) where
  | push (node : A) (data : V)
  | tryPop (outData : V)
  | pop
  deriving DecidableEq, Repr

/-- What a pop returns. -/
inductive QueueResult (V : Type) where
  | tryPopped (res : Bool) (outData : V)
  | popped (data : V)
  deriving DecidableEq, Repr

/-- One operation. -/
def queueStep [DecidableEq A] (q : SafeQueue A V) :
    QueueEvent A V → Option (SafeQueue A V × List (QueueResult V))
  | .push node data =>
    match q.heap node with
    | some _ => none
    | none => (ifbSafeQueuePush q node data).map fun q' => (q', [])
  | .tryPop outData =>
    (ifbSafeQueueTryPop q outData).map fun r => (r.1, [.tryPopped r.2.1 r.2.2])
  | .pop => (ifbSafeQueuePop q).map fun r => (r.1, [.popped r.2])

/-- **The queue.** -/
def safeQueue [DecidableEq A] : System (SafeQueue A V) (QueueEvent A V) (QueueResult V) :=
  ⟨queueStep⟩

/-! ## The abstract queue -/

/-- One operation on a list. -/
def fifoStep (vs : List V) : QueueEvent A V → Option (List V × List (QueueResult V))
  | .push _ data => some (vs ++ [data], [])
  | .tryPop outData =>
    match vs with
    | [] => some ([], [.tryPopped false outData])
    | v :: vs => some (vs, [.tryPopped true v])
  | .pop =>
    match vs with
    | [] => none
    | v :: vs => some (vs, [.popped v])

/-- **What the queue is for.** -/
def fifo : System (List V) (QueueEvent A V) (QueueResult V) := ⟨fifoStep⟩

/-- The value an event pushes. -/
def pushedValue : QueueEvent A V → Option V
  | .push _ data => some data
  | _ => none

/-- The value a result hands out. -/
def takenValue : QueueResult V → Option V
  | .tryPopped true v => some v
  | .tryPopped false _ => none
  | .popped v => some v

/-- The values pushed in a run, in order. -/
def pushed {σ : Type} (tr : List (Step σ (QueueEvent A V) (QueueResult V))) : List V :=
  (tr.map Step.event).filterMap pushedValue

/-- The values taken in a run, in order. -/
def taken {σ : Type} (tr : List (Step σ (QueueEvent A V) (QueueResult V))) : List V :=
  (tr.map Step.out).flatten.filterMap takenValue

/-- A step of the list takes from the front and adds at the end. -/
theorem fifo_step {vs vs' : List V} {e : QueueEvent A V} {out : List (QueueResult V)}
    (hs : fifo.step vs e = some (vs', out)) :
    vs ++ (pushedValue e).toList = out.filterMap takenValue ++ vs' := by
  cases e with
  | push node data =>
    cases hs
    rfl
  | tryPop outData =>
    cases vs with
    | nil =>
      cases hs
      rfl
    | cons v vs =>
      cases hs
      exact List.append_nil _
  | pop =>
    cases vs with
    | nil => cases hs
    | cons v vs =>
      cases hs
      exact List.append_nil _

/-- **In order, once each, none lost**: what was there and what is pushed is what is taken and what
is left. -/
theorem fifo_order {vs vs' : List V} {tr : List (Step (List V) (QueueEvent A V) (QueueResult V))}
    (hr : Run fifo vs tr vs') : vs ++ pushed tr = taken tr ++ vs' := by
  induction hr with
  | nil vs => exact List.append_nil vs
  | @cons vs vs₁ vs₂ e out tr hs _ ih =>
    have hpush : pushed (⟨vs, e, out, vs₁⟩ :: tr) = (pushedValue e).toList ++ pushed tr := by
      unfold pushed
      rw [List.map_cons, List.filterMap_cons]
      cases pushedValue e <;> rfl
    have htake : taken (⟨vs, e, out, vs₁⟩ :: tr) = out.filterMap takenValue ++ taken tr := by
      unfold taken
      rw [List.map_cons, List.flatten_cons, List.filterMap_append]
    rw [hpush, htake, ← List.append_assoc, fifo_step hs, List.append_assoc, ih, List.append_assoc]

/-! ## The representation -/

/-- **The representation invariant**: following `next` from `head` passes the cells, all live and
all different, and `tail` is the last of them. -/
structure IsQueue (q : SafeQueue A V) (cells : List (A × V)) : Prop where
  chain : Chain q.heap q.head cells
  nodup : (addresses cells).Nodup
  tail : q.tail = cells.getLast?.map Prod.fst

/-- The values in the queue, in order. -/
def contents (cells : List (A × V)) : List V := cells.map Prod.snd

variable {q q' : SafeQueue A V} {cells : List (A × V)}

theorem isQueue_empty (heap : Heap A V) : IsQueue (.empty heap) [] where
  chain := rfl
  nodup := List.nodup_nil
  tail := rfl

/-- `head` and `tail` are NULL together. -/
theorem head_eq_none_iff (h : IsQueue q cells) : q.head = none ↔ q.tail = none := by
  rw [h.chain.eq_none_iff, h.tail, Option.map_eq_none_iff, List.getLast?_eq_none_iff]

/-- A queue that is not empty ends in a cell, and `tail` is its address. -/
theorem cells_of_tail (h : IsQueue q cells) {a : A} (ha : q.tail = some a) :
    ∃ front v, cells = front ++ [(a, v)] := by
  obtain ⟨⟨b, v⟩, hlast, rfl⟩ := Option.map_eq_some_iff.mp (h.tail.symm.trans ha)
  obtain ⟨front, rfl⟩ := List.getLast?_eq_some_iff.mp hlast
  exact ⟨front, v, rfl⟩

/-- `tail->next` is NULL. -/
theorem tail_next (h : IsQueue q cells) {a : A} (ha : q.tail = some a) :
    ∃ v, q.heap a = some ⟨v, none⟩ := by
  obtain ⟨front, v, rfl⟩ := cells_of_tail h ha
  exact ⟨v, h.chain.last⟩

variable [DecidableEq A]

/-- **A push** adds a cell at the end. -/
theorem push_isQueue (h : IsQueue q cells) {node : A} (hfresh : q.heap node = none) (data : V) :
    ∃ q', ifbSafeQueuePush q node data = some q' ∧ IsQueue q' (cells ++ [(node, data)]) := by
  have hnotin : node ∉ addresses cells := h.chain.fresh hfresh
  have hchain := h.chain.frame hnotin (some ⟨data, none⟩)
  have hnode : Function.update q.heap node (some ⟨data, none⟩) node = some ⟨data, none⟩ :=
    Function.update_self ..
  have hnodup : (addresses (cells ++ [(node, data)])).Nodup := by
    rw [addresses, List.map_append, List.nodup_append]
    refine ⟨h.nodup, by simp, ?_⟩
    rintro a ha b hb rfl
    obtain rfl : a = node := List.mem_singleton.mp hb
    exact hnotin ha
  have htail : some node = (cells ++ [(node, data)]).getLast?.map Prod.fst := by
    rw [List.getLast?_append, List.getLast?_singleton]
    rfl
  unfold ifbSafeQueuePush
  cases ht : q.tail with
  | none =>
    have hempty : cells = [] := by
      rw [← h.chain.eq_none_iff, head_eq_none_iff h, ht]
    subst hempty
    exact ⟨_, rfl, ⟨rfl, none, hnode, rfl⟩, hnodup, htail⟩
  | some a =>
    obtain ⟨front, v, rfl⟩ := cells_of_tail h ht
    -- the last cell is still there after the new node is written
    dsimp only
    rw [hchain.last]
    exact ⟨_, rfl, hchain.link h.nodup hnode hnotin, hnodup, htail⟩

/-- **Unlinking the head** hands out its value. -/
theorem unlink_isQueue {c : A × V} (h : IsQueue q (c :: cells)) :
    ∃ q', unlink q c.1 = some (q', c.2) ∧ IsQueue q' cells := by
  obtain ⟨next, hnode, hrest⟩ := h.chain.rest h.nodup
  refine ⟨⟨Function.update q.heap c.1 none, next, if next.isNone then none else q.tail⟩, ?_, hrest,
    (List.nodup_cons.mp h.nodup).2, ?_⟩
  · unfold unlink
    rw [hnode]
  · by_cases hnext : next = none
    · rw [hrest.eq_none_iff.mp hnext, hnext]
      rfl
    · have hne : cells ≠ [] := fun he => hnext (hrest.eq_none_iff.mpr he)
      have hsome : next.isNone = false := by
        rw [Option.isNone_eq_false_iff, Option.isSome_iff_ne_none]
        exact hnext
      show (if next.isNone = true then none else q.tail) = _
      rw [hsome, if_neg Bool.false_ne_true, h.tail, List.getLast?_cons_of_ne_nil hne]

/-- The address an operation allocates holds no node. -/
def Fresh (q : SafeQueue A V) (e : QueueEvent A V) : Prop :=
  ∀ node data, e = .push node data → q.heap node = none

/-- **Each operation is the list's**: it is held up where the list holds it up, gives what the list
gives, and keeps the invariant. -/
theorem queue_step (h : IsQueue q cells) {e : QueueEvent A V} (hfresh : Fresh q e) :
    (safeQueue.step q e = none ∧ fifo.step (contents cells) e = none) ∨
      ∃ q' cells' out, safeQueue.step q e = some (q', out) ∧ IsQueue q' cells' ∧
        fifo.step (contents cells) e = some (contents cells', out) := by
  cases e with
  | push node data =>
    have hnone := hfresh node data rfl
    obtain ⟨q', hpush, hq'⟩ := push_isQueue h hnone data
    refine .inr ⟨q', _, [], ?_, hq', ?_⟩
    · simp only [safeQueue, queueStep, hnone, hpush, Option.map_some]
    · show some (contents cells ++ [data], []) = some (contents (cells ++ [(node, data)]), [])
      rw [contents, contents, List.map_append]
      rfl
  | tryPop outData =>
    right
    cases cells with
    | nil =>
      refine ⟨q, [], [.tryPopped false outData], ?_, h, rfl⟩
      simp only [safeQueue, queueStep, ifbSafeQueueTryPop, h.chain.eq_none_iff.mpr rfl,
        Option.map_some]
    | cons c cells =>
      obtain ⟨q', hunlink, hq'⟩ := unlink_isQueue h
      refine ⟨q', cells, [.tryPopped true c.2], ?_, hq', rfl⟩
      simp only [safeQueue, queueStep, ifbSafeQueueTryPop, h.chain.1, hunlink, Option.map_some]
  | pop =>
    cases cells with
    | nil =>
      refine .inl ⟨?_, rfl⟩
      simp only [safeQueue, queueStep, ifbSafeQueuePop, h.chain.eq_none_iff.mpr rfl,
        Option.map_none]
    | cons c cells =>
      obtain ⟨q', hunlink, hq'⟩ := unlink_isQueue h
      refine .inr ⟨q', cells, [.popped c.2], ?_, hq', rfl⟩
      simp only [safeQueue, queueStep, ifbSafeQueuePop, h.chain.1, hunlink, Option.map_some]

/-- A step that happens allocates a fresh address. -/
theorem fresh_of_step {e : QueueEvent A V} {out : List (QueueResult V)}
    (hs : safeQueue.step q e = some (q', out)) : Fresh q e := by
  rintro node data rfl
  simp only [safeQueue, queueStep] at hs
  split at hs
  · cases hs
  · rename_i hnone
    exact hnone

/-- **The command queue is a FIFO.** In every run from an empty queue, over any heap: the
representation invariant holds, the results are those of a list queue, the values come out in the
order they were pushed, once each, and what has not come out is still there; and from its end every
operation does what the list does, so only a pop of an empty queue waits. -/
theorem safeQueue_fifo {heap : Heap A V}
    {tr : List (Step (SafeQueue A V) (QueueEvent A V) (QueueResult V))}
    (hr : Run safeQueue (.empty heap) tr q) :
    ∃ cells, IsQueue q cells ∧ (q.head = none ↔ q.tail = none) ∧
      (∀ a, q.tail = some a → ∃ v, q.heap a = some ⟨v, none⟩) ∧
      (∃ ta, Run fifo [] ta (contents cells) ∧ ta.map Step.event = tr.map Step.event ∧
        ta.map Step.out = tr.map Step.out) ∧
      pushed tr = taken tr ++ contents cells ∧
      ∀ e, Fresh q e → (safeQueue.step q e).map Prod.snd =
        (fifo.step (contents cells) e).map Prod.snd := by
  obtain ⟨ta, vs, hrun, ⟨cells, hq, rfl⟩, hev, hout⟩ := hr.simulate
    (R := fun q vs => ∃ cells, IsQueue q cells ∧ vs = contents cells) (t := [])
    (fun q vs e q' out ⟨cells, hq, hvs⟩ hs => by
      rcases queue_step hq (fresh_of_step hs) with ⟨hnone, -⟩ | ⟨q₁, cells', out', hs', hq', hf⟩
      · rw [hs] at hnone
        cases hnone
      · rw [hs] at hs'
        cases hs'
        exact ⟨_, hvs ▸ hf, cells', hq', rfl⟩)
    ⟨[], isQueue_empty heap, rfl⟩
  refine ⟨cells, hq, head_eq_none_iff hq, fun a ha => tail_next hq ha, ⟨ta, hrun, hev, hout⟩, ?_,
    fun e he => ?_⟩
  · have horder := fifo_order hrun
    unfold pushed taken at horder ⊢
    rwa [hev, hout] at horder
  · rcases queue_step hq he with ⟨hs, hf⟩ | ⟨q', cells', out, hs, -, hf⟩
    · rw [hs, hf]
      rfl
    · rw [hs, hf]
      rfl

/-- Two pushes and two pops, a node's address used again in between. -/
theorem safeQueue_fifo_twoValues : ∃ q : SafeQueue Nat Nat, ∃ tr,
    Run safeQueue (.empty fun _ => none) tr q ∧ taken tr = [7, 8] ∧ pushed tr = [7, 8] ++ [] := by
  obtain ⟨tr, q, hr, -, hQ⟩ := run_of_exec (safeQueue (A := Nat) (V := Nat)) (.empty fun _ => none)
    [.push 1 7, .tryPop 0, .push 1 8, .pop, .tryPop 0]
    (fun tr q => decide (taken tr = [7, 8]) && q.head.isNone) (by decide +kernel)
  rw [Bool.and_eq_true, decide_eq_true_eq, Option.isNone_iff_eq_none] at hQ
  obtain ⟨cells, hq, -, -, -, horder, -⟩ := safeQueue_fifo hr
  refine ⟨q, tr, hr, hQ.1, ?_⟩
  rw [horder, hQ.1, hq.chain.eq_none_iff.mp hQ.2]
  rfl

end MasterRelay.ThreadSafe
