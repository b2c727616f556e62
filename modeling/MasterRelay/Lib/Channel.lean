import Mathlib.Data.List.Basic

/-!
# Lossy channels that keep order

A channel into which values are put, and out of which they come in the order they were put in, some
of them or none: a queue whose head is taken, and any of whose elements may get lost. `Delivers` is
its law over any history of puts, takes and losses: what has come out, and then what is still in it,
is a sublist of what was put in. Several channels may feed one history.
-/

namespace MasterRelay.Lib.Channel

variable {α : Type}

/-- What has come out of a channel, what is in it, and what was put in. -/
def Delivers (out queue inp : List α) : Prop := (out ++ queue).Sublist inp

variable {out queue queue' inp xs : List α} {x : α}

/-- Nothing has happened yet. -/
theorem delivers_nil : Delivers ([] : List α) [] [] := List.Sublist.refl _

/-- Values are put in. -/
theorem Delivers.put (h : Delivers out queue inp) (xs : List α) :
    Delivers out (queue ++ xs) (inp ++ xs) := by
  unfold Delivers at h ⊢
  rw [← List.append_assoc]
  exact h.append_right xs

/-- Values are put somewhere else, or nowhere. -/
theorem Delivers.skip (h : Delivers out queue inp) (xs : List α) :
    Delivers out queue (inp ++ xs) :=
  h.trans (List.sublist_append_left inp xs)

/-- Values get lost. -/
theorem Delivers.lose (h : Delivers out queue inp) (hq : queue'.Sublist queue) :
    Delivers out queue' inp :=
  (hq.append_left out).trans h

/-- The head of the queue comes out. -/
theorem Delivers.take (h : Delivers out (x :: queue) inp) : Delivers (out ++ [x]) queue inp := by
  unfold Delivers at h ⊢
  rwa [List.append_assoc, List.singleton_append]

/-- What has come out was put in, in this order. -/
theorem Delivers.sublist (h : Delivers out queue inp) : out.Sublist inp :=
  (List.sublist_append_left out queue).trans h

end MasterRelay.Lib.Channel
