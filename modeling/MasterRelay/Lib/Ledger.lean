import Mathlib.Algebra.Order.Group.Multiset

/-!
# A ledger of resources

A program acquires and releases resources; the ledger holds those that are live. A resource may be
acquired again, so the ledger is a multiset. Releasing what is not live is an error, and ends the
ledger (`settle` is `none`), so a resource that is released twice does not go unnoticed.

* `settle_append`: one part of the program after the other.
* `settle_frame`: what a part of the program does to the ledger does not depend on what else is
  live.
* `settle_balanced`: a part that balances on its own leaves every ledger as it was.
* `settle_flatMap`, `settle_count`: what the parts leave behind adds up.
-/

namespace MasterRelay.Lib.Ledger

/-- A use of a resource. -/
inductive Use (α : Type) where
  | acquire (a : α)
  | release (a : α)
  deriving DecidableEq, Repr

variable {α : Type} [DecidableEq α]

/-- The live resources after the uses, or `none` when one of them releases what is not live. -/
def settle : Multiset α → List (Use α) → Option (Multiset α)
  | live, [] => some live
  | live, .acquire a :: us => settle (a ::ₘ live) us
  | live, .release a :: us => if a ∈ live then settle (live.erase a) us else none

theorem settle_append (us vs : List (Use α)) (live : Multiset α) :
    settle live (us ++ vs) = (settle live us).bind fun l => settle l vs := by
  induction us generalizing live with
  | nil => rfl
  | cons u us ih =>
    cases u with
    | acquire a => exact ih _
    | release a =>
      simp only [List.cons_append, settle]
      by_cases ha : a ∈ live
      · rw [if_pos ha, if_pos ha, ih]
      · rw [if_neg ha, if_neg ha, Option.bind_none]

/-- **The frame rule**: what else is live stays live. -/
theorem settle_frame {us : List (Use α)} {live live' : Multiset α} (h : settle live us = some live')
    (rest : Multiset α) : settle (live + rest) us = some (live' + rest) := by
  induction us generalizing live with
  | nil =>
    cases h
    rfl
  | cons u us ih =>
    cases u with
    | acquire a =>
      rw [settle] at h ⊢
      rw [← Multiset.cons_add]
      exact ih h
    | release a =>
      rw [settle] at h ⊢
      split_ifs at h with ha
      rw [if_pos (Multiset.mem_add.mpr (.inl ha)), Multiset.erase_add_left_pos _ ha]
      exact ih h

/-- **What balances on its own leaves every ledger as it was.** -/
theorem settle_balanced {us : List (Use α)} (h : settle 0 us = some 0) (live : Multiset α) :
    settle live us = some live := by
  have hframe := settle_frame h live
  rwa [zero_add] at hframe

/-- What is released again balances. -/
theorem settle_acquireRelease (a : α) : settle 0 [.acquire a, .release a] = some 0 := by
  simp [settle]

/-- **What the parts leave behind adds up.** -/
theorem settle_flatMap {ι : Type} (uses : ι → List (Use α)) (kept : ι → Multiset α) :
    ∀ xs : List ι, (∀ x ∈ xs, settle 0 (uses x) = some (kept x)) →
      settle 0 (xs.flatMap uses) = some (xs.map kept).sum
  | [], _ => rfl
  | x :: xs, h => by
    have hrest := settle_flatMap uses kept xs fun y hy => h y (List.mem_cons_of_mem _ hy)
    have hframe := settle_frame hrest (kept x)
    rw [zero_add] at hframe
    rw [List.flatMap_cons, settle_append, h x List.mem_cons_self, Option.bind_some, hframe,
      List.map_cons, List.sum_cons, add_comm]

/-- **Counting what is left**: where each part leaves one copy of a resource behind for each of its
marks, so does the whole. -/
theorem settle_count {ι β : Type} (uses : ι → List (Use α)) (a : α) (marks : ι → List β)
    (marked : β → Bool) (xs : List ι)
    (h : ∀ x ∈ xs, settle 0 (uses x) = some (Multiset.replicate ((marks x).countP marked) a)) :
    settle 0 (xs.flatMap uses) =
      some (Multiset.replicate ((xs.flatMap marks).countP marked) a) := by
  rw [settle_flatMap uses (fun x => Multiset.replicate ((marks x).countP marked) a) xs h]
  refine congrArg some ?_
  clear h
  induction xs with
  | nil => rfl
  | cons x xs ih =>
    rw [List.map_cons, List.sum_cons, List.flatMap_cons, List.countP_append,
      Multiset.replicate_add, ih]

end MasterRelay.Lib.Ledger
