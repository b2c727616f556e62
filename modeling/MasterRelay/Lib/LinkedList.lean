import Mathlib.Data.List.Basic
import Mathlib.Logic.Function.Basic

/-!
# Singly linked lists in a heap

A `Heap` says which addresses hold a node, so reading a freed node gives nothing. `Chain h p cells`
lists the nodes that following `next` from `p` passes, with the address and the value of each, and
says that it ends at NULL: every node on the way is live, and there is no other.

Results:
* `Chain.frame`: a node that is not on the chain may change or go.
* `Chain.last`: the last node points at NULL.
* `Chain.link`: a new node behind the last one.
* `Chain.rest`: what is left when the first node goes.
* `Chain.fresh`: an address that holds no node is not on any chain.
-/

namespace MasterRelay.Lib.LinkedList

variable {A V : Type}

/-- A node. -/
structure Node (A V : Type) where
  data : V
  next : Option A
  deriving DecidableEq, Repr

/-- The live nodes. -/
abbrev Heap (A V : Type) := A → Option (Node A V)

/-- Following `next` from `p` passes these cells and ends at NULL. -/
def Chain (h : Heap A V) : Option A → List (A × V) → Prop
  | p, [] => p = none
  | p, c :: cells => p = some c.1 ∧ ∃ q, h c.1 = some ⟨c.2, q⟩ ∧ Chain h q cells

/-- The addresses of the cells, in order. -/
def addresses (cells : List (A × V)) : List A := cells.map Prod.fst

variable {h : Heap A V} {p : Option A} {cells : List (A × V)}

/-- A chain is empty exactly when it starts at NULL. -/
theorem Chain.eq_none_iff (hc : Chain h p cells) : p = none ↔ cells = [] := by
  cases cells with
  | nil => exact iff_of_true hc rfl
  | cons c cells =>
    rw [hc.1]
    exact iff_of_false (by simp) (by simp)

/-- Every cell of a chain is live. -/
theorem Chain.live (hc : Chain h p cells) : ∀ a ∈ addresses cells, h a ≠ none := by
  induction cells generalizing p with
  | nil => exact fun a ha => absurd ha List.not_mem_nil
  | cons c cells ih =>
    obtain ⟨-, q, hnode, hrest⟩ := hc
    intro a ha
    rcases List.mem_cons.mp ha with rfl | ha'
    · rw [hnode]
      exact Option.some_ne_none _
    · exact ih hrest a ha'

/-- An address that holds no node is not on a chain. -/
theorem Chain.fresh (hc : Chain h p cells) {a : A} (ha : h a = none) : a ∉ addresses cells :=
  fun hmem => hc.live a hmem ha

/-- The last node points at NULL. -/
theorem Chain.last {a : A} {v : V} (hc : Chain h p (cells ++ [(a, v)])) :
    h a = some ⟨v, none⟩ := by
  induction cells generalizing p with
  | nil =>
    obtain ⟨-, q, hnode, hq⟩ := hc
    rw [hnode, show q = none from hq]
  | cons c cells ih =>
    obtain ⟨-, q, -, hrest⟩ := hc
    exact ih hrest

variable [DecidableEq A]

/-- **Frame**: a node that is not on the chain may change or go. -/
theorem Chain.frame (hc : Chain h p cells) {a : A} (ha : a ∉ addresses cells)
    (n : Option (Node A V)) : Chain (Function.update h a n) p cells := by
  induction cells generalizing p with
  | nil => exact hc
  | cons c cells ih =>
    obtain ⟨hp, q, hnode, hrest⟩ := hc
    have hne : c.1 ≠ a := fun he => ha (he ▸ List.mem_cons_self)
    refine ⟨hp, q, ?_, ih hrest fun hmem => ha (List.mem_cons_of_mem _ hmem)⟩
    rw [Function.update_of_ne hne, hnode]

/-- **A new node behind the last one.** -/
theorem Chain.link {last new : A} {v w : V} (hc : Chain h p (cells ++ [(last, v)]))
    (hnodup : (addresses (cells ++ [(last, v)])).Nodup) (hnew : h new = some ⟨w, none⟩)
    (hne : new ∉ addresses (cells ++ [(last, v)])) :
    Chain (Function.update h last (some ⟨v, some new⟩)) p
      (cells ++ [(last, v)] ++ [(new, w)]) := by
  induction cells generalizing p with
  | nil =>
    obtain ⟨hp, q, -, -⟩ := hc
    have hnl : new ≠ last := fun he => hne (he ▸ List.mem_cons_self)
    refine ⟨hp, some new, Function.update_self .., rfl, none, ?_, rfl⟩
    rw [Function.update_of_ne hnl, hnew]
  | cons c cells ih =>
    obtain ⟨hp, q, hnode, hrest⟩ := hc
    obtain ⟨hnotin, hnodup'⟩ := List.nodup_cons.mp hnodup
    have hcl : c.1 ≠ last := by
      rintro he
      exact hnotin (by simp [he])
    refine ⟨hp, q, ?_, ih hrest hnodup' fun hmem => hne (List.mem_cons_of_mem _ hmem)⟩
    rw [Function.update_of_ne hcl, hnode]

/-- **The first node goes**: the rest is a chain, and does not need it. -/
theorem Chain.rest {c : A × V} (hc : Chain h p (c :: cells))
    (hnodup : (addresses (c :: cells)).Nodup) : ∃ q, h c.1 = some ⟨c.2, q⟩ ∧
      Chain (Function.update h c.1 none) q cells := by
  obtain ⟨-, q, hnode, hrest⟩ := hc
  exact ⟨q, hnode, hrest.frame (List.nodup_cons.mp hnodup).1 none⟩

end MasterRelay.Lib.LinkedList
