import Mathlib.Data.List.Basic

/-!
# Pointers and structs

A global pointer with what it points at (`Pointer`): reading or writing through NULL or a dangling
pointer is a fault, and `malloc` gives a block with whatever was there before. A struct is copied
word by word (`Layout`).

* `storing_start`, `storing_step`, `storing_done`: a loop that writes a struct through a pointer.
* `copying_start`, `copying_step`, `copying_done`: a loop that reads one. Through any other pointer
  than one to a struct, the first word of either faults.
-/

namespace MasterRelay.Lib.Memory

/-- A global pointer, with what it points at. -/
inductive Pointer (α : Type) where
  | null
  | freed
  | live (a : α)

namespace Pointer

variable {α : Type}

/-- NULL, or what it points at. -/
def ofOption : Option α → Pointer α
  | none => .null
  | some a => .live a

/-- A write through the pointer. -/
def write (f : α → α) : Pointer α → Option (Pointer α)
  | .live a => some (.live (f a))
  | _ => none

/-- What `malloc` returns: a block with its old contents, or NULL. -/
def malloc (ok : Bool) (old : α) : Pointer α := if ok then .live old else .null

theorem write_eq {f : α → α} {g g' : Pointer α} (h : g.write f = some g') :
    ∃ v, g = .live v ∧ g' = .live (f v) := by
  cases g with
  | live v =>
    cases h
    exact ⟨v, rfl, rfl⟩
  | null => cases h
  | freed => cases h

theorem ofOption_eq_null {o : Option α} : ofOption o = .null ↔ o = none := by
  cases o <;> simp [ofOption]

theorem ofOption_eq_live {o : Option α} {a : α} : ofOption o = .live a ↔ o = some a := by
  cases o <;> simp [ofOption]

end Pointer

/-- **The words of a struct**, which a copy goes through one by one. -/
structure Layout (α W : Type) where
  words : List W
  copy : W → α → α → α
  nonempty : words ≠ []
  /-- A copy of all of them is the struct. -/
  copied : ∀ src dst, words.foldl (fun d w => copy w src d) dst = src

section Layout

variable {α W : Type} (lay : Layout α W)

/-- `*p = src;` with the words `todo` still to be copied. -/
def Storing (src : α) (todo : List W) (g : Pointer α) : Prop :=
  ((∀ v, g ≠ .live v) ∧ todo ≠ []) ∨
    ∃ v, g = .live v ∧ todo.foldl (fun d w => lay.copy w src d) v = src

/-- `acc = *p;` with the words `todo` still to be copied. -/
def Copying (g : Pointer α) (todo : List W) (acc : α) : Prop :=
  ((∀ v, g ≠ .live v) ∧ todo ≠ []) ∨
    ∃ v, g = .live v ∧ todo.foldl (fun d w => lay.copy w v d) acc = v

variable {lay} {src acc : α} {todo : List W} {w : W} {g g' : Pointer α}

theorem storing_start (g : Pointer α) : Storing lay src lay.words g := by
  cases g with
  | live v => exact .inr ⟨v, rfl, lay.copied src v⟩
  | null => exact .inl ⟨by simp, lay.nonempty⟩
  | freed => exact .inl ⟨by simp, lay.nonempty⟩

theorem storing_step (h : Storing lay src (w :: todo) g) (hw : g.write (lay.copy w src) = some g') :
    Storing lay src todo g' := by
  rcases h with ⟨hno, -⟩ | ⟨v, rfl, hv⟩
  · obtain ⟨v, rfl, -⟩ := Pointer.write_eq hw
    exact absurd rfl (hno v)
  · obtain rfl := Option.some.inj hw
    exact .inr ⟨_, rfl, hv⟩

theorem storing_done (h : Storing lay src [] g) : g = .live src := by
  rcases h with ⟨-, hne⟩ | ⟨v, rfl, hv⟩
  · exact absurd rfl hne
  · exact congrArg Pointer.live hv

theorem copying_start (g : Pointer α) (acc : α) : Copying lay g lay.words acc := by
  cases g with
  | live v => exact .inr ⟨v, rfl, lay.copied v acc⟩
  | null => exact .inl ⟨by simp, lay.nonempty⟩
  | freed => exact .inl ⟨by simp, lay.nonempty⟩

theorem copying_step {v : α} (h : Copying lay (.live v) (w :: todo) acc) :
    Copying lay (.live v) todo (lay.copy w v acc) := by
  rcases h with ⟨hno, -⟩ | ⟨u, hu, hfold⟩
  · exact absurd rfl (hno v)
  · cases hu
    exact .inr ⟨v, rfl, hfold⟩

theorem copying_done (h : Copying lay g [] acc) : g = .live acc := by
  rcases h with ⟨-, hne⟩ | ⟨v, rfl, hv⟩
  · exact absurd rfl hne
  · exact congrArg Pointer.live hv.symm

end Layout

end MasterRelay.Lib.Memory
