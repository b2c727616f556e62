import Mathlib.Data.List.Basic
import Mathlib.Data.List.Nodup

/-!
# The last match

A loop that overwrites a variable at some elements of a list ends with the value of the last of
them. `lastMatch f xs` is what `f` makes of the last element of `xs` it is defined on.

* **`foldl_lastMatch`**: such a loop, where the body writes what `f` gives, or nothing.
* `foldlM_eq_ok`: a loop whose body may fail succeeds when the body never does.
* `lastMatch_isSome`, `lastMatch_mem`: it is defined when some element matches, and is the value of
  one that does.
* `lastMatch_filter`: elements that do not match do not count.
* **`lastMatch_perm`**: where no two elements match, the order does not count.
* `lastMatch_snoc`: one element more at the end, for histories.
-/

namespace MasterRelay.Lib.LastMatch

variable {α β γ σ : Type}

/-- What `f` makes of the last element it is defined on. -/
def lastMatch (f : α → Option β) (xs : List α) : Option β := (xs.filterMap f).getLast?

variable {f : α → Option β} {xs ys : List α} {x : α} {b : β}

theorem lastMatch_append (f : α → Option β) (xs ys : List α) :
    lastMatch f (xs ++ ys) = (lastMatch f ys).or (lastMatch f xs) := by
  unfold lastMatch
  rw [List.filterMap_append, List.getLast?_append]

theorem lastMatch_snoc (f : α → Option β) (xs : List α) (x : α) :
    lastMatch f (xs ++ [x]) = (f x).or (lastMatch f xs) := by
  rw [lastMatch_append]
  unfold lastMatch
  cases hx : f x with
  | none => rw [List.filterMap_cons_none hx, List.filterMap_nil, List.getLast?_nil]
  | some b => rw [List.filterMap_cons_some hx, List.filterMap_nil, List.getLast?_singleton]

theorem lastMatch_cons (f : α → Option β) (x : α) (xs : List α) :
    lastMatch f (x :: xs) = (lastMatch f xs).or (f x) := by
  have hone : lastMatch f [x] = f x := (lastMatch_snoc f [] x).trans (Option.or_none)
  rw [← List.singleton_append, lastMatch_append, hone]

/-- **A loop that overwrites** ends with the last value written, or with the first one. -/
theorem foldl_lastMatch (step : σ → α → σ) (get : σ → Option β) (f : α → Option β)
    (h : ∀ st x, get (step st x) = (f x).or (get st)) (xs : List α) (st : σ) :
    get (xs.foldl step st) = (lastMatch f xs).or (get st) := by
  induction xs generalizing st with
  | nil => rfl
  | cons x xs ih => rw [List.foldl_cons, ih, h, lastMatch_cons, Option.or_assoc]

/-- The same from a start that counts as unwritten. -/
theorem foldl_lastMatch_unwritten (step : σ → α → σ) (get : σ → Option β) (f : α → Option β)
    (h : ∀ st x, get (step st x) = (f x).or (get st)) (xs : List α) (st : σ)
    (hst : get st = none) : get (xs.foldl step st) = lastMatch f xs := by
  rw [foldl_lastMatch step get f h, hst, Option.or_none]

/-- **A loop that may stop**: where the body is a function on some elements and fails on the others,
the loop succeeds when there are none of these, and then it is a fold. -/
theorem foldlM_eq_ok {ε : Type} (body : σ → α → Except ε σ) (step : σ → α → σ) (good : α → Prop)
    (hgood : ∀ st x, good x → body st x = .ok (step st x))
    (hbad : ∀ st x, ¬ good x → ∃ e, body st x = .error e) {xs : List α} {st st' : σ} :
    xs.foldlM body st = .ok st' ↔ (∀ x ∈ xs, good x) ∧ st' = xs.foldl step st := by
  induction xs generalizing st with
  | nil =>
    constructor
    · intro h
      exact ⟨fun x hx => absurd hx List.not_mem_nil, (Except.ok.inj h).symm⟩
    · rintro ⟨-, rfl⟩
      rfl
  | cons x xs ih =>
    rw [List.foldlM_cons, List.foldl_cons, List.forall_mem_cons]
    by_cases hx : good x
    · rw [hgood st x hx]
      exact ih.trans ⟨fun h => ⟨⟨hx, h.1⟩, h.2⟩, fun h => ⟨h.1.2, h.2⟩⟩
    · obtain ⟨e, he⟩ := hbad st x hx
      rw [he]
      exact ⟨fun h => absurd h (by simp [bind, Except.bind]), fun h => absurd h.1.1 hx⟩

/-- Where it fails, and always in the same way, so does the loop. -/
theorem foldlM_error {ε : Type} (body : σ → α → Except ε σ) (good : α → Prop) {e : ε}
    (hbad : ∀ st x, ¬ good x → body st x = .error e)
    (hgood : ∀ st x, good x → ∃ st', body st x = .ok st') {xs : List α} {st : σ}
    (h : ¬ ∀ x ∈ xs, good x) : xs.foldlM body st = .error e := by
  induction xs generalizing st with
  | nil => exact absurd (fun x hx => absurd hx List.not_mem_nil) h
  | cons x xs ih =>
    rw [List.foldlM_cons]
    by_cases hx : good x
    · obtain ⟨st', hst⟩ := hgood st x hx
      rw [hst]
      exact ih fun hall => h (List.forall_mem_cons.mpr ⟨hx, hall⟩)
    · rw [hbad st x hx]
      rfl

theorem lastMatch_eq_none : lastMatch f xs = none ↔ ∀ x ∈ xs, f x = none := by
  unfold lastMatch
  rw [List.getLast?_eq_none_iff, List.filterMap_eq_nil_iff]

theorem lastMatch_mem (h : lastMatch f xs = some b) : ∃ x ∈ xs, f x = some b := by
  have hmem : b ∈ xs.filterMap f := List.mem_of_getLast? h
  exact List.mem_filterMap.mp hmem

theorem lastMatch_isSome : (∃ b, lastMatch f xs = some b) ↔ ∃ x ∈ xs, ∃ b, f x = some b := by
  constructor
  · rintro ⟨b, h⟩
    obtain ⟨x, hx, hf⟩ := lastMatch_mem h
    exact ⟨x, hx, b, hf⟩
  · rintro ⟨x, hx, b, hf⟩
    cases hlast : lastMatch f xs with
    | some c => exact ⟨c, rfl⟩
    | none => exact absurd (hf.symm.trans (lastMatch_eq_none.mp hlast x hx)) (by simp)

/-- The last match splits the list: behind it nothing matches. -/
theorem lastMatch_split (h : lastMatch f xs = some b) :
    ∃ ys x zs, xs = ys ++ x :: zs ∧ f x = some b ∧ ∀ z ∈ zs, f z = none := by
  induction xs with
  | nil => exact absurd h (by simp [lastMatch])
  | cons x xs ih =>
    rw [lastMatch_cons] at h
    cases hlast : lastMatch f xs with
    | some c =>
      rw [hlast, Option.some_or] at h
      obtain ⟨ys, z, zs, rfl, hz, hzs⟩ := ih (hlast.trans h)
      exact ⟨x :: ys, z, zs, rfl, hz, hzs⟩
    | none =>
      rw [hlast, Option.none_or] at h
      exact ⟨[], x, xs, rfl, h, lastMatch_eq_none.mp hlast⟩

theorem lastMatch_congr {g : α → Option β} (h : ∀ x ∈ xs, f x = g x) :
    lastMatch f xs = lastMatch g xs := by
  unfold lastMatch
  rw [List.filterMap_congr h]

theorem lastMatch_map (f : β → Option γ) (g : α → β) (xs : List α) :
    lastMatch f (xs.map g) = lastMatch (fun x => f (g x)) xs := by
  unfold lastMatch
  rw [List.filterMap_map]
  rfl

/-- The values mapped. -/
theorem lastMatch_value (f : α → Option β) (g : β → γ) (xs : List α) :
    lastMatch (fun x => (f x).map g) xs = (lastMatch f xs).map g := by
  unfold lastMatch
  rw [← List.getLast?_map, List.map_filterMap]

/-- A condition the last match meets does not change it. -/
theorem lastMatch_bind {g : β → Option γ} {c : γ} (h : lastMatch f xs = some b)
    (hg : g b = some c) : lastMatch (fun x => (f x).bind g) xs = some c := by
  obtain ⟨ys, x, zs, rfl, hx, hzs⟩ := lastMatch_split h
  have hnone : lastMatch (fun x => (f x).bind g) zs = none :=
    lastMatch_eq_none.mpr fun z hz => by rw [hzs z hz, Option.bind_none]
  rw [lastMatch_append, lastMatch_cons, hnone, hx, Option.bind_some, hg]
  rfl

/-- Elements that do not match do not count. -/
theorem lastMatch_filter {p : α → Bool} (h : ∀ x ∈ xs, p x = false → f x = none) :
    lastMatch f (xs.filter p) = lastMatch f xs := by
  induction xs with
  | nil => rfl
  | cons x xs ih =>
    have ih' := ih fun y hy => h y (List.mem_cons_of_mem _ hy)
    by_cases hp : p x = true
    · rw [List.filter_cons_of_pos hp, lastMatch_cons, lastMatch_cons, ih']
    · have hx := h x List.mem_cons_self (Bool.eq_false_iff.mpr hp)
      rw [List.filter_cons_of_neg hp, lastMatch_cons, hx, Option.or_none, ih']

/-- **Where no two elements match, the order does not count.** -/
theorem lastMatch_perm (hp : xs.Perm ys)
    (h : xs.Pairwise fun x y => f x = none ∨ f y = none) : lastMatch f xs = lastMatch f ys := by
  have hlen : (xs.filterMap f).length ≤ 1 := by
    induction xs generalizing ys with
    | nil => simp
    | cons x xs ih =>
      obtain ⟨hx, hxs⟩ := List.pairwise_cons.mp h
      cases hf : f x with
      | none =>
        rw [List.filterMap_cons_none hf]
        exact ih (List.Perm.refl xs) hxs
      | some b =>
        have hnone : xs.filterMap f = [] := by
          rw [List.filterMap_eq_nil_iff]
          intro y hy
          rcases hx y hy with hxf | hyf
          · exact absurd (hf.symm.trans hxf) (by simp)
          · exact hyf
        rw [List.filterMap_cons_some hf, hnone]
        exact Nat.le_refl 1
  have hperm := hp.filterMap f
  have hsame : xs.filterMap f = ys.filterMap f := by
    match hxs : xs.filterMap f with
    | [] =>
      rw [hxs] at hperm
      exact hperm.symm.eq_nil.symm
    | [b] =>
      rw [hxs] at hperm
      exact (List.singleton_perm.mp hperm)
    | _ :: _ :: _ =>
      rw [hxs] at hlen
      exact absurd hlen (by simp)
  unfold lastMatch
  rw [hsame]

end MasterRelay.Lib.LastMatch
