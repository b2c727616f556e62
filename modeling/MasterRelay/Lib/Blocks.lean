import Mathlib.Data.List.Basic
import Mathlib.Logic.Function.Basic

/-!
# Blocks and who frees them

A store says what the blocks at the live addresses hold. `malloc` gives an address that is not live,
and freeing one that is not live is an error, so a block that is freed twice does not go unnoticed.
`Owned h l` says that the live addresses are those of `l`, each in it once.

* `Owned.malloc`: a new block has an owner.
* `Owned.write`: a write to a live block.
* `Owned.freeAll`: what is owned can be freed, and what else is owned stays as it is.
* `Owned.perm`: the order does not matter.
-/

namespace MasterRelay.Lib.Blocks

variable {A B : Type}

/-- What the live blocks hold. -/
abbrev Store (A B : Type) := A → Option B

section Operations

variable [DecidableEq A]

/-- A block at `a`, which must not be live. -/
def malloc (h : Store A B) (a : A) (b : B) : Option (Store A B) :=
  if (h a).isSome then none else some (Function.update h a (some b))

/-- `free(a)`. -/
def free (h : Store A B) (a : A) : Option (Store A B) :=
  if (h a).isSome then some (Function.update h a none) else none

/-- One after the other. -/
def freeAll (h : Store A B) : List A → Option (Store A B)
  | [] => some h
  | a :: as =>
    match free h a with
    | none => none
    | some h => freeAll h as

end Operations

/-- **The live blocks are those of `l`**, each in it once. -/
structure Owned (h : Store A B) (l : List A) : Prop where
  nodup : l.Nodup
  live : ∀ a, (h a).isSome = true ↔ a ∈ l

variable {h h' : Store A B} {l l' : List A}

theorem owned_empty : Owned (fun _ => none : Store A B) [] where
  nodup := List.nodup_nil
  live a := by simp

theorem Owned.perm (ho : Owned h l) (hp : l.Perm l') : Owned h l' where
  nodup := hp.nodup ho.nodup
  live a := (ho.live a).trans hp.mem_iff

variable [DecidableEq A]

/-- **A new block.** -/
theorem Owned.malloc (ho : Owned h l) {a : A} {b : B} (hm : malloc h a b = some h') :
    Owned h' (a :: l) ∧ h' a = some b ∧ ∀ c ∈ l, h' c = h c := by
  unfold Blocks.malloc at hm
  split_ifs at hm with hlive
  obtain rfl := Option.some.inj hm
  have hnotin : a ∉ l := fun hmem => hlive ((ho.live a).mpr hmem)
  refine ⟨⟨List.nodup_cons.mpr ⟨hnotin, ho.nodup⟩, fun c => ?_⟩, Function.update_self .., ?_⟩
  · by_cases hc : c = a
    · subst hc
      simp
    · rw [Function.update_of_ne hc, ho.live, List.mem_cons, or_iff_right hc]
  · intro c hc
    exact Function.update_of_ne (ne_of_mem_of_not_mem hc hnotin) ..

/-- An address that is not live may be handed out. -/
theorem malloc_fresh {a : A} (b : B) (hfresh : h a = none) :
    malloc h a b = some (Function.update h a (some b)) :=
  if_neg (by simp [hfresh])

/-- A write to a live block. -/
theorem Owned.write (ho : Owned h l) {a : A} (ha : a ∈ l) (b : B) :
    Owned (Function.update h a (some b)) l where
  nodup := ho.nodup
  live c := by
    by_cases hc : c = a
    · subst hc
      simp [ha]
    · rw [Function.update_of_ne hc, ho.live]

theorem Owned.free {a : A} (ho : Owned h (a :: l)) :
    ∃ h', free h a = some h' ∧ Owned h' l ∧ ∀ c ∈ l, h' c = h c := by
  obtain ⟨hnotin, hnodup⟩ := List.nodup_cons.mp ho.nodup
  have hlive : (h a).isSome = true := (ho.live a).mpr List.mem_cons_self
  have hother : ∀ c ∈ l, Function.update h a none c = h c := fun c hc =>
    Function.update_of_ne (ne_of_mem_of_not_mem hc hnotin) ..
  refine ⟨Function.update h a none, if_pos hlive, ⟨hnodup, fun c => ?_⟩, hother⟩
  by_cases hc : c = a
  · subst hc
    simp [hnotin]
  · rw [Function.update_of_ne hc, ho.live, List.mem_cons, or_iff_right hc]

/-- **What is owned can be freed**, each block once. -/
theorem Owned.freeAll {as : List A} (ho : Owned h (as ++ l)) :
    ∃ h', freeAll h as = some h' ∧ Owned h' l ∧ ∀ c ∈ l, h' c = h c := by
  induction as generalizing h with
  | nil => exact ⟨h, rfl, ho, fun _ _ => rfl⟩
  | cons a as ih =>
    obtain ⟨h₁, hfree, ho₁, hother₁⟩ := Owned.free ho
    obtain ⟨h₂, hfreeAll, ho₂, hother₂⟩ := ih ho₁
    refine ⟨h₂, ?_, ho₂, fun c hc => ?_⟩
    · rw [Blocks.freeAll, hfree]
      exact hfreeAll
    · rw [hother₂ c hc, hother₁ c (List.mem_append_right _ hc)]

end MasterRelay.Lib.Blocks
