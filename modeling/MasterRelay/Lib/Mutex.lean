import MasterRelay.Lib.Runs
import Mathlib.Logic.Function.Basic

/-!
# Threads under mutexes

Threads that run statement by statement, in any order, over variables that are guarded by mutexes.
A `Program` gives, for each thread, the instruction at each value of its locals (which hold its
program counter). Reading or writing a variable does not check who owns its mutex: that a program
locks before it touches is a property of the program (`Disciplined`), checked instruction by
instruction against a map `holds` from locals to the mutex held there.

`machine` is the machine of single instructions; in `sections` whole critical sections are steps.

* `exclusive`: no two threads are in sections of one mutex.
* `no_race`: no thread is about to touch a variable that another is about to change.
* `waits_no_chain`: the owner of a mutex never waits for another, so no threads wait for each other.
* `leaves`: where a rank falls with every access, a thread that runs is out of its section after as
  many instructions as the rank says.
* **`reduce`**: every run of single instructions is a run of whole sections that makes the same
  outputs in the same order, and where no mutex is held the variables agree.
-/

namespace MasterRelay.Lib.Mutex

open MasterRelay.Lib.Runs

/-- What a thread does next: `Λ` are its locals, `ε` is what it learns from outside. `none` is a
fault. -/
inductive Instr (L : Type) (V : L → Type) (Λ ε ω : Type) where
  | lock (l : L) (next : Λ)
  | unlock (l : L) (next : Λ)
  /-- Reads and writes the variable of a mutex. -/
  | access (l : L) (f : ε → V l → Option (V l × Λ))
  /-- Reads it from outside the sections. -/
  | peek (l : L) (f : ε → V l → Option (Λ × List ω))
  | free (f : ε → Option (Λ × List ω))

variable {T L : Type} {V : L → Type} {Λ ε : T → Type} {ω : Type}

/-- The instruction of each thread at each value of its locals. -/
abbrev Program (T L : Type) (V : L → Type) (Λ ε : T → Type) (ω : Type) : Type :=
  ∀ θ : T, Λ θ → Instr L V (Λ θ) (ε θ) ω

/-- The variables, who owns each mutex, and the locals. -/
structure State (T L : Type) (V : L → Type) (Λ : T → Type) where
  cell : ∀ l, V l
  owner : L → Option T
  loc : ∀ θ, Λ θ

/-- The variables and the locals, between sections. -/
structure Atomic (T L : Type) (V : L → Type) (Λ : T → Type) where
  cell : ∀ l, V l
  loc : ∀ θ, Λ θ

variable [DecidableEq T] [DecidableEq L] (P : Program T L V Λ ε ω)

/-- One instruction of one thread. A mutex that is owned cannot be locked, and one that the thread
does not own cannot be unlocked. -/
def instrStep (s : State T L V Λ) (x : Σ θ, ε θ) : Option (State T L V Λ × List ω) :=
  match P x.1 (s.loc x.1) with
  | .lock l next =>
    if s.owner l = none then
      some (⟨s.cell, Function.update s.owner l (some x.1), Function.update s.loc x.1 next⟩, [])
    else none
  | .unlock l next =>
    if s.owner l = some x.1 then
      some (⟨s.cell, Function.update s.owner l none, Function.update s.loc x.1 next⟩, [])
    else none
  | .access l f => (f x.2 (s.cell l)).map fun r =>
      (⟨Function.update s.cell l r.1, s.owner, Function.update s.loc x.1 r.2⟩, [])
  | .peek l f => (f x.2 (s.cell l)).map fun r =>
      (⟨s.cell, s.owner, Function.update s.loc x.1 r.1⟩, r.2)
  | .free f => (f x.2).map fun r => (⟨s.cell, s.owner, Function.update s.loc x.1 r.1⟩, r.2)

/-- **The machine of single instructions.** -/
def machine : System (State T L V Λ) (Σ θ, ε θ) ω := ⟨instrStep P⟩

/-- The accesses of a thread, one after the other. -/
def inside (θ : T) : List (ε θ) → (∀ l, V l) → Λ θ → Option ((∀ l, V l) × Λ θ)
  | [], c, x => some (c, x)
  | e :: es, c, x =>
    match P θ x with
    | .access l f =>
      match f e (c l) with
      | some r => inside θ es (Function.update c l r.1) r.2
      | none => none
    | _ => none

/-- One whole section of a thread, or one of its other instructions. -/
def sectionStep (a : Atomic T L V Λ) (x : Σ θ, List (ε θ)) :
    Option (Atomic T L V Λ × List ω) :=
  match P x.1 (a.loc x.1), x.2 with
  | .lock l next, es =>
    match inside P x.1 es a.cell next with
    | some (c, y) =>
      match P x.1 y with
      | .unlock l' z => if l' = l then some (⟨c, Function.update a.loc x.1 z⟩, []) else none
      | _ => none
    | none => none
  | .peek l f, [e] => (f e (a.cell l)).map fun r => (⟨a.cell, Function.update a.loc x.1 r.1⟩, r.2)
  | .free f, [e] => (f e).map fun r => (⟨a.cell, Function.update a.loc x.1 r.1⟩, r.2)
  | _, _ => none

/-- **The machine of whole sections.** -/
def sections : System (Atomic T L V Λ) (Σ θ, List (ε θ)) ω := ⟨sectionStep P⟩

/-- An instruction that locks before it touches: at locals `x`, where `holds` is the mutex held. -/
def WellLocked {Λ ε : Type} (holds : Λ → Option L) (x : Λ) : Instr L V Λ ε ω → Prop
  | .lock l next => holds x = none ∧ holds next = some l
  | .unlock l next => holds x = some l ∧ holds next = none
  | .access l f => holds x = some l ∧ ∀ e v r, f e v = some r → holds r.2 = some l
  | .peek _ f => holds x = none ∧ ∀ e v r, f e v = some r → holds r.1 = none
  | .free f => holds x = none ∧ ∀ e r, f e = some r → holds r.1 = none

/-- **The discipline of a program**: it touches a variable only under its mutex and takes one mutex
at a time; what it reads from outside a section no other thread ever changes. -/
structure Disciplined (holds : ∀ θ, Λ θ → Option L) : Prop where
  locked : ∀ θ x, WellLocked (holds θ) x (P θ x)
  reads : ∀ {θ x l f}, P θ x = .peek l f → ∀ {θ' y g}, θ' ≠ θ → P θ' y = .access l g →
    ∀ e v r, g e v = some r → r.1 = v

variable {P} {holds : ∀ θ, Λ θ → Option L}

section Disciplined

variable (hP : Disciplined P holds) {θ : T} {x : Λ θ} {l : L}

include hP

omit [DecidableEq T] [DecidableEq L] in
theorem Disciplined.lock {next : Λ θ} (h : P θ x = .lock l next) :
    holds θ x = none ∧ holds θ next = some l := by
  have hx := hP.locked θ x
  rwa [h] at hx

omit [DecidableEq T] [DecidableEq L] in
theorem Disciplined.unlock {next : Λ θ} (h : P θ x = .unlock l next) :
    holds θ x = some l ∧ holds θ next = none := by
  have hx := hP.locked θ x
  rwa [h] at hx

omit [DecidableEq T] [DecidableEq L] in
theorem Disciplined.access {f : ε θ → V l → Option (V l × Λ θ)} (h : P θ x = .access l f) :
    holds θ x = some l ∧ ∀ {e v r}, f e v = some r → holds θ r.2 = some l := by
  have hx := hP.locked θ x
  rw [h] at hx
  exact ⟨hx.1, hx.2 _ _ _⟩

omit [DecidableEq T] [DecidableEq L] in
theorem Disciplined.peek {f : ε θ → V l → Option (Λ θ × List ω)} (h : P θ x = .peek l f) :
    holds θ x = none ∧ ∀ {e v r}, f e v = some r → holds θ r.1 = none := by
  have hx := hP.locked θ x
  rw [h] at hx
  exact ⟨hx.1, hx.2 _ _ _⟩

omit [DecidableEq T] [DecidableEq L] in
theorem Disciplined.free {f : ε θ → Option (Λ θ × List ω)} (h : P θ x = .free f) :
    holds θ x = none ∧ ∀ {e r}, f e = some r → holds θ r.1 = none := by
  have hx := hP.locked θ x
  rw [h] at hx
  exact ⟨hx.1, hx.2 _ _⟩

end Disciplined

/-! ## What a step does -/

/-- **All an instruction can do.** -/
theorem instr_cases {s s' : State T L V Λ} {θ : T} {e : ε θ} {out : List ω}
    (h : (machine P).step s ⟨θ, e⟩ = some (s', out)) :
    (∃ l next, P θ (s.loc θ) = .lock l next ∧ s.owner l = none ∧ out = [] ∧
      s' = ⟨s.cell, Function.update s.owner l (some θ), Function.update s.loc θ next⟩) ∨
    (∃ l next, P θ (s.loc θ) = .unlock l next ∧ s.owner l = some θ ∧ out = [] ∧
      s' = ⟨s.cell, Function.update s.owner l none, Function.update s.loc θ next⟩) ∨
    (∃ l f r, P θ (s.loc θ) = .access l f ∧ f e (s.cell l) = some r ∧ out = [] ∧
      s' = ⟨Function.update s.cell l r.1, s.owner, Function.update s.loc θ r.2⟩) ∨
    (∃ l f r, P θ (s.loc θ) = .peek l f ∧ f e (s.cell l) = some r ∧ out = r.2 ∧
      s' = ⟨s.cell, s.owner, Function.update s.loc θ r.1⟩) ∨
    ∃ f r, P θ (s.loc θ) = .free f ∧ f e = some r ∧ out = r.2 ∧
      s' = ⟨s.cell, s.owner, Function.update s.loc θ r.1⟩ := by
  simp only [machine, instrStep] at h
  cases hP : P θ (s.loc θ) with
  | lock l next =>
    rw [hP] at h
    simp only at h
    split_ifs at h with hfree
    cases h
    exact .inl ⟨l, next, rfl, hfree, rfl, rfl⟩
  | unlock l next =>
    rw [hP] at h
    simp only at h
    split_ifs at h with howns
    cases h
    exact .inr (.inl ⟨l, next, rfl, howns, rfl, rfl⟩)
  | access l f =>
    rw [hP] at h
    obtain ⟨r, hr, heq⟩ := Option.map_eq_some_iff.mp h
    cases heq
    exact .inr (.inr (.inl ⟨l, f, r, rfl, hr, rfl, rfl⟩))
  | peek l f =>
    rw [hP] at h
    obtain ⟨r, hr, heq⟩ := Option.map_eq_some_iff.mp h
    cases heq
    exact .inr (.inr (.inr (.inl ⟨l, f, r, rfl, hr, rfl, rfl⟩)))
  | free f =>
    rw [hP] at h
    obtain ⟨r, hr, heq⟩ := Option.map_eq_some_iff.mp h
    cases heq
    exact .inr (.inr (.inr (.inr ⟨f, r, rfl, hr, rfl, rfl⟩)))

omit [DecidableEq T] in
theorem inside_cons_access {θ : T} {e : ε θ} {es : List (ε θ)} {c : ∀ l, V l} {x : Λ θ}
    {r : (∀ l, V l) × Λ θ} (h : inside P θ (e :: es) c x = some r) :
    ∃ l f v, P θ x = .access l f ∧ f e (c l) = some v ∧
      inside P θ es (Function.update c l v.1) v.2 = some r := by
  unfold inside at h
  cases hP : P θ x with
  | access l f =>
    rw [hP] at h
    simp only at h
    cases hf : f e (c l) with
    | none =>
      rw [hf] at h
      cases h
    | some v =>
      rw [hf] at h
      exact ⟨l, f, v, rfl, hf, h⟩
  | lock l next => simp [hP] at h
  | unlock l next => simp [hP] at h
  | peek l f => simp [hP] at h
  | free f => simp [hP] at h

omit [DecidableEq T] in
theorem inside_access {θ : T} {e : ε θ} {es : List (ε θ)} {c : ∀ l, V l} {x : Λ θ} {l : L}
    {f : ε θ → V l → Option (V l × Λ θ)} {v : V l × Λ θ} (hP : P θ x = .access l f)
    (hf : f e (c l) = some v) :
    inside P θ (e :: es) c x = inside P θ es (Function.update c l v.1) v.2 := by
  rw [inside, hP]
  simp only [hf]

omit [DecidableEq T] in
/-- One more access. -/
theorem inside_snoc {θ : T} {e : ε θ} {l : L} {f : ε θ → V l → Option (V l × Λ θ)} {y : Λ θ}
    {v : V l × Λ θ} {d : ∀ l, V l} (hP : P θ y = .access l f) (hf : f e (d l) = some v) :
    ∀ {es : List (ε θ)} {c : ∀ l, V l} {x : Λ θ}, inside P θ es c x = some (d, y) →
      inside P θ (es ++ [e]) c x = some (Function.update d l v.1, v.2)
  | [], c, x, h => by
    obtain ⟨rfl, rfl⟩ := Prod.mk.inj (Option.some.inj h)
    rw [List.nil_append, inside_access hP hf]
    rfl
  | e' :: es, c, x, h => by
    obtain ⟨l', f', v', hP', hf', hrest⟩ := inside_cons_access h
    rw [List.cons_append, inside_access hP' hf']
    exact inside_snoc hP hf hrest

omit [DecidableEq T] in
/-- **The rule for sections**: what every access keeps holds at the end of them. -/
theorem inside_invariant {θ : T} {I : (∀ l, V l) → Λ θ → Prop}
    (hstep : ∀ c x l f e v, I c x → P θ x = .access l f → f e (c l) = some v →
      I (Function.update c l v.1) v.2) :
    ∀ {es : List (ε θ)} {c d : ∀ l, V l} {x y : Λ θ}, inside P θ es c x = some (d, y) →
      I c x → I d y
  | [], c, d, x, y, h, hI => by
    obtain ⟨rfl, rfl⟩ := Prod.mk.inj (Option.some.inj h)
    exact hI
  | e :: es, c, d, x, y, h, hI => by
    obtain ⟨l, f, v, hP, hf, hrest⟩ := inside_cons_access h
    exact inside_invariant hstep hrest (hstep c x l f e v hI hP hf)

/-- **All a step of whole sections can do.** -/
theorem section_cases {a a' : Atomic T L V Λ} {θ : T} {es : List (ε θ)} {out : List ω}
    (h : (sections P).step a ⟨θ, es⟩ = some (a', out)) :
    (∃ l next c y z, P θ (a.loc θ) = .lock l next ∧ inside P θ es a.cell next = some (c, y) ∧
      P θ y = .unlock l z ∧ out = [] ∧ a' = ⟨c, Function.update a.loc θ z⟩) ∨
    (∃ l f e r, P θ (a.loc θ) = .peek l f ∧ es = [e] ∧ f e (a.cell l) = some r ∧ out = r.2 ∧
      a' = ⟨a.cell, Function.update a.loc θ r.1⟩) ∨
    ∃ f e r, P θ (a.loc θ) = .free f ∧ es = [e] ∧ f e = some r ∧ out = r.2 ∧
      a' = ⟨a.cell, Function.update a.loc θ r.1⟩ := by
  simp only [sections, sectionStep] at h
  cases hP : P θ (a.loc θ) with
  | lock l next =>
    rw [hP] at h
    simp only at h
    cases hin : inside P θ es a.cell next with
    | none => simp [hin] at h
    | some r =>
      obtain ⟨c, y⟩ := r
      rw [hin] at h
      simp only at h
      cases hy : P θ y with
      | unlock l' z =>
        rw [hy] at h
        simp only at h
        split_ifs at h with hl
        cases h
        subst hl
        exact .inl ⟨l', next, c, y, z, rfl, hin, hy, rfl, rfl⟩
      | lock l' z => simp [hy] at h
      | access l' f => simp [hy] at h
      | peek l' f => simp [hy] at h
      | free f => simp [hy] at h
  | peek l f =>
    rw [hP] at h
    match es with
    | [] => cases h
    | [e] =>
      obtain ⟨r, hr, heq⟩ := Option.map_eq_some_iff.mp h
      cases heq
      exact .inr (.inl ⟨l, f, e, r, rfl, rfl, hr, rfl, rfl⟩)
    | _ :: _ :: _ => cases h
  | free f =>
    rw [hP] at h
    match es with
    | [] => cases h
    | [e] =>
      obtain ⟨r, hr, heq⟩ := Option.map_eq_some_iff.mp h
      cases heq
      exact .inr (.inr ⟨f, e, r, rfl, rfl, hr, rfl, rfl⟩)
    | _ :: _ :: _ => cases h
  | unlock l next => simp [hP] at h
  | access l f => simp [hP] at h

/-! ## Who owns what -/

/-- A thread owns the mutex of the section it is in, and no other. -/
def Owned (holds : ∀ θ, Λ θ → Option L) (s : State T L V Λ) : Prop :=
  ∀ l θ, s.owner l = some θ ↔ holds θ (s.loc θ) = some l

omit [DecidableEq T] [DecidableEq L] in
/-- **Mutual exclusion.** -/
theorem exclusive {s : State T L V Λ} (h : Owned holds s) {l : L} {θ θ' : T}
    (hθ : holds θ (s.loc θ) = some l) (hθ' : holds θ' (s.loc θ') = some l) : θ = θ' :=
  Option.some.inj (((h l θ).mpr hθ).symm.trans ((h l θ').mpr hθ'))

omit [DecidableEq L] in
/-- A thread moves on without entering or leaving a section. -/
theorem owned_move {s : State T L V Λ} (h : Owned holds s) {θ : T} {x : Λ θ}
    (hx : holds θ x = holds θ (s.loc θ)) (c : ∀ l, V l) :
    Owned holds ⟨c, s.owner, Function.update s.loc θ x⟩ := by
  intro l θ'
  by_cases hθ : θ' = θ
  · subst hθ
    simp only [Function.update_self, hx]
    exact h l θ'
  · simp only [Function.update_of_ne hθ]
    exact h l θ'

theorem owned_step (hP : Disciplined P holds) {s s' : State T L V Λ} (h : Owned holds s)
    {x : Σ θ, ε θ} {out : List ω} (hs : (machine P).step s x = some (s', out)) :
    Owned holds s' := by
  obtain ⟨θ, e⟩ := x
  rcases instr_cases hs with ⟨l, next, hi, hfree, -, rfl⟩ | ⟨l, next, hi, howns, -, rfl⟩ |
    ⟨l, f, r, hi, hf, -, rfl⟩ | ⟨l, f, r, hi, hf, -, rfl⟩ | ⟨f, r, hi, hf, -, rfl⟩
  · obtain ⟨hout, hin⟩ := hP.lock hi
    intro l' θ'
    by_cases hθ : θ' = θ
    · subst hθ
      by_cases hl : l' = l
      · subst hl
        simp [hin]
      · have hold := h l' θ'
        rw [hout] at hold
        simp only [Function.update_of_ne hl, Function.update_self, hin]
        simpa [Ne.symm hl] using hold
    · by_cases hl : l' = l
      · subst hl
        have hold := h l' θ'
        rw [hfree] at hold
        simp only [Function.update_self, Function.update_of_ne hθ]
        simpa [Ne.symm hθ] using hold
      · simp only [Function.update_of_ne hl, Function.update_of_ne hθ]
        exact h l' θ'
  · obtain ⟨hin, hout⟩ := hP.unlock hi
    intro l' θ'
    by_cases hθ : θ' = θ
    · subst hθ
      by_cases hl : l' = l
      · subst hl
        simp [hout]
      · have hold := h l' θ'
        rw [hin] at hold
        simp only [Function.update_of_ne hl, Function.update_self, hout]
        simpa [Ne.symm hl] using hold
    · by_cases hl : l' = l
      · subst hl
        have hold := h l' θ'
        rw [howns] at hold
        simp only [Function.update_self, Function.update_of_ne hθ]
        simpa [Ne.symm hθ] using hold
      · simp only [Function.update_of_ne hl, Function.update_of_ne hθ]
        exact h l' θ'
  · obtain ⟨hin, hin'⟩ := hP.access hi
    exact owned_move h ((hin' hf).trans hin.symm) _
  · obtain ⟨hout, hout'⟩ := hP.peek hi
    exact owned_move h ((hout' hf).trans hout.symm) _
  · obtain ⟨hout, hout'⟩ := hP.free hi
    exact owned_move h ((hout' hf).trans hout.symm) _

/-- A thread stands before the lock of a mutex that is owned. -/
def Waits (P : Program T L V Λ ε ω) (s : State T L V Λ) (θ : T) (l : L) : Prop :=
  ∃ next, P θ (s.loc θ) = .lock l next ∧ s.owner l ≠ none

omit [DecidableEq T] [DecidableEq L] in
/-- **No threads wait for each other**: the owner of a mutex somebody waits for is another thread,
which waits for none. -/
theorem waits_no_chain (hP : Disciplined P holds) {s : State T L V Λ} (h : Owned holds s) {θ : T}
    {l : L} (hw : Waits P s θ l) :
    ∃ θ', s.owner l = some θ' ∧ θ' ≠ θ ∧ ∀ l', ¬ Waits P s θ' l' := by
  obtain ⟨next, hi, howner⟩ := hw
  obtain ⟨θ', hθ'⟩ := Option.ne_none_iff_exists'.mp howner
  have hin := (h l θ').mp hθ'
  refine ⟨θ', hθ', ?_, ?_⟩
  · rintro rfl
    exact absurd ((hP.lock hi).1.symm.trans hin) (by simp)
  · rintro l' ⟨next', hi', -⟩
    exact absurd ((hP.lock hi').1.symm.trans hin) (by simp)

/-- An instruction reads or writes the variable of a mutex. -/
def Touches {Λ ε : Type} (l : L) : Instr L V Λ ε ω → Prop
  | .access l' _ => l' = l
  | .peek l' _ => l' = l
  | _ => False

/-- An instruction can change the variable of a mutex. -/
def Writes {Λ ε : Type} (l : L) (i : Instr L V Λ ε ω) : Prop :=
  ∃ f, i = .access l f ∧ ∃ e v r, f e v = some r ∧ r.1 ≠ v

omit [DecidableEq T] [DecidableEq L] in
/-- **No data races**: where a thread is about to change a variable, no other is about to touch
it. -/
theorem no_race (hP : Disciplined P holds) {s : State T L V Λ} (h : Owned holds s) {θ θ' : T}
    (hne : θ ≠ θ') {l : L} (hw : Writes l (P θ (s.loc θ))) : ¬ Touches l (P θ' (s.loc θ')) := by
  obtain ⟨f, hi, e, v, r, hf, hr⟩ := hw
  intro ht
  cases hi' : P θ' (s.loc θ') with
  | access l' g =>
    rw [hi'] at ht
    obtain rfl : l' = l := ht
    exact hne (exclusive h (hP.access hi).1 (hP.access hi').1)
  | peek l' g =>
    rw [hi'] at ht
    obtain rfl : l' = l := ht
    exact hr (hP.reads hi' hne hi e v r hf)
  | lock l' next => simp [hi', Touches] at ht
  | unlock l' next => simp [hi', Touches] at ht
  | free g => simp [hi', Touches] at ht

/-- The instructions of a thread in a run. -/
def ownSteps (θ : T) (tr : List (Step (State T L V Λ) (Σ θ, ε θ) ω)) : Nat :=
  tr.countP fun x => decide (x.event.1 = θ)

/-- **Sections end**: a thread that stays in a section takes as many instructions as its rank falls
by, where every access lowers the rank. -/
theorem leaves (hP : Disciplined P holds) {rank : ∀ θ, Λ θ → Nat}
    (hrank : ∀ {θ x l f}, P θ x = .access l f → ∀ e v r, f e v = some r → rank θ r.2 < rank θ x)
    {s s' : State T L V Λ} {tr : List (Step (State T L V Λ) (Σ θ, ε θ) ω)}
    (hr : Run (machine P) s tr s') {θ : T} (hin : ∀ u ∈ s :: states tr, holds θ (u.loc θ) ≠ none) :
    ownSteps θ tr + rank θ (s'.loc θ) ≤ rank θ (s.loc θ) := by
  induction hr with
  | nil => simp [ownSteps]
  | @cons s s₁ s₂ x out tr hs hr ih =>
    have hrest := ih fun u hu => hin u (List.mem_cons_of_mem _ hu)
    have hnow := hin s List.mem_cons_self
    have hnext := hin s₁ (List.mem_cons_of_mem _ List.mem_cons_self)
    obtain ⟨θ', e⟩ := x
    by_cases hθ : θ' = θ
    · subst hθ
      have hcount : ownSteps θ' (⟨s, ⟨θ', e⟩, out, s₁⟩ :: tr) = ownSteps θ' tr + 1 :=
        List.countP_cons_of_pos (by simp)
      rw [hcount]
      rcases instr_cases hs with ⟨l, next, hi, -, -, -⟩ | ⟨l, next, hi, -, -, rfl⟩ |
        ⟨l, f, r, hi, hf, -, rfl⟩ | ⟨l, f, r, hi, -, -, -⟩ | ⟨f, r, hi, -, -, -⟩
      · exact absurd (hP.lock hi).1 hnow
      · exact absurd (by simp [(hP.unlock hi).2]) hnext
      · have hlt := hrank hi _ _ _ hf
        simp only [Function.update_self] at hrest
        omega
      · exact absurd (hP.peek hi).1 hnow
      · exact absurd (hP.free hi).1 hnow
    · have hcount : ownSteps θ (⟨s, ⟨θ', e⟩, out, s₁⟩ :: tr) = ownSteps θ tr :=
        List.countP_cons_of_neg (by simp [hθ])
      have hloc : s₁.loc θ = s.loc θ := by
        rcases instr_cases hs with ⟨l, next, -, -, -, rfl⟩ | ⟨l, next, -, -, -, rfl⟩ |
          ⟨l, f, r, -, -, -, rfl⟩ | ⟨l, f, r, -, -, -, rfl⟩ | ⟨f, r, -, -, -, rfl⟩ <;>
          exact Function.update_of_ne (Ne.symm hθ) _ _
      rw [hcount, ← hloc]
      exact hrest

/-! ## Sections as steps -/

omit [DecidableEq T] in
/-- A section stays under its mutex and changes no other variable. -/
theorem inside_frame (hP : Disciplined P holds) {θ : T} {l : L} {es : List (ε θ)}
    {c d : ∀ l, V l} {x y : Λ θ} (h : inside P θ es c x = some (d, y))
    (hx : holds θ x = some l) : holds θ y = some l ∧ ∀ l' ≠ l, d l' = c l' := by
  refine inside_invariant (I := fun d y => holds θ y = some l ∧ ∀ l' ≠ l, d l' = c l')
    (fun d y l₁ f e v hI hi hf => ?_) h ⟨hx, fun _ _ => rfl⟩
  obtain ⟨hin, hin'⟩ := hP.access hi
  obtain rfl := Option.some.inj (hin.symm.trans hI.1)
  exact ⟨hin' hf, fun l' hl' => by rw [Function.update_of_ne hl']; exact hI.2 l' hl'⟩

omit [DecidableEq T] in
/-- It depends on no other variable. -/
theorem inside_local (hP : Disciplined P holds) {θ : T} {l : L} :
    ∀ {es : List (ε θ)} {c c' d : ∀ l, V l} {x y : Λ θ}, inside P θ es c x = some (d, y) →
      holds θ x = some l → c' l = c l →
      ∃ d', inside P θ es c' x = some (d', y) ∧ d' l = d l
  | [], c, c', d, x, y, h, hx, hc => by
    obtain ⟨rfl, rfl⟩ := Prod.mk.inj (Option.some.inj h)
    exact ⟨c', rfl, hc⟩
  | e :: es, c, c', d, x, y, h, hx, hc => by
    obtain ⟨l', f, v, hi, hf, hrest⟩ := inside_cons_access h
    obtain ⟨hin, hin'⟩ := hP.access hi
    obtain rfl := Option.some.inj (hx.symm.trans hin)
    rw [inside_access hi (hc ▸ hf : f e (c' l) = some v)]
    exact inside_local hP hrest (hin' hf) (by simp)

/-- **The two machines side by side**: between its sections a thread is at the same place in both;
a thread inside a section has not begun it in the machine of whole sections, where its accesses so
far would lead to what the variable holds now. -/
structure Reduces (P : Program T L V Λ ε ω) (holds : ∀ θ, Λ θ → Option L) (s : State T L V Λ)
    (a : Atomic T L V Λ) : Prop where
  owned : Owned holds s
  outside : ∀ θ, holds θ (s.loc θ) = none → a.loc θ = s.loc θ
  idle : ∀ l, s.owner l = none → a.cell l = s.cell l
  within : ∀ θ l, holds θ (s.loc θ) = some l → ∃ next es c, P θ (a.loc θ) = .lock l next ∧
    inside P θ es a.cell next = some (c, s.loc θ) ∧ c l = s.cell l

omit [DecidableEq T] in
/-- The machines start side by side. -/
theorem reduces_init (c : ∀ l, V l) {x : ∀ θ, Λ θ} (hx : ∀ θ, holds θ (x θ) = none) :
    Reduces P holds ⟨c, fun _ => none, x⟩ ⟨c, x⟩ where
  owned l θ := by simp [hx]
  outside _ _ := rfl
  idle _ _ := rfl
  within θ l h := absurd ((hx θ).symm.trans h) (by simp)

omit [DecidableEq T] in
/-- What a thread reads from outside a section is the same in both. -/
theorem reduces_peek (hP : Disciplined P holds) {s : State T L V Λ} {a : Atomic T L V Λ}
    (h : Reduces P holds s a) {θ : T} {l : L} {f : ε θ → V l → Option (Λ θ × List ω)}
    (hi : P θ (s.loc θ) = .peek l f) : a.cell l = s.cell l := by
  obtain ⟨hout, -⟩ := hP.peek hi
  cases howner : s.owner l with
  | none => exact h.idle l howner
  | some θ' =>
    have hθ' := (h.owned l θ').mp howner
    have hne : θ' ≠ θ := by
      rintro rfl
      exact absurd (hout.symm.trans hθ') (by simp)
    obtain ⟨next, es, c, -, hin, hc⟩ := h.within θ' l hθ'
    have hsame := inside_invariant (I := fun c _ => c l = a.cell l)
      (fun c y l₁ g e v hI hg hv => by
        by_cases hl : l = l₁
        · subst hl
          rw [Function.update_self, hP.reads hi hne hg e _ v hv, hI]
        · rw [Function.update_of_ne hl, hI]) hin rfl
    exact hsame.symm.trans hc

omit [DecidableEq L] in
/-- The locals of the threads after a thread has moved in both machines. -/
theorem update_outside {x y : ∀ θ, Λ θ} {θ : T} (hxy : ∀ θ, holds θ (y θ) = none → x θ = y θ)
    (z : Λ θ) (θ' : T) (h : holds θ' (Function.update y θ z θ') = none) :
    Function.update x θ z θ' = Function.update y θ z θ' := by
  by_cases hθ : θ' = θ
  · subst hθ
    rw [Function.update_self, Function.update_self]
  · rw [Function.update_of_ne hθ, Function.update_of_ne hθ]
    rw [Function.update_of_ne hθ] at h
    exact hxy θ' h

/-- An instruction outside the sections is one in both machines. -/
theorem reduces_free {s : State T L V Λ} {a : Atomic T L V Λ} (h : Reduces P holds s a) {θ : T}
    {z : Λ θ} (hout : holds θ (s.loc θ) = none) (hz : holds θ z = none) :
    Reduces P holds ⟨s.cell, s.owner, Function.update s.loc θ z⟩
      ⟨a.cell, Function.update a.loc θ z⟩ where
  owned := owned_move h.owned (hz.trans hout.symm) _
  outside := update_outside h.outside z
  idle := h.idle
  within θ' l hl := by
    by_cases hθ : θ' = θ
    · subst hθ
      simp only [Function.update_self, hz] at hl
      cases hl
    · simp only [Function.update_of_ne hθ] at hl ⊢
      exact h.within θ' l hl

/-- **One instruction**: inside a section nothing happens in the machine of whole sections until
the unlock, which is the whole section there. -/
theorem reduces_step (hP : Disciplined P holds) {s s' : State T L V Λ} {a : Atomic T L V Λ}
    (h : Reduces P holds s a) {x : Σ θ, ε θ} {out : List ω}
    (hs : (machine P).step s x = some (s', out)) :
    ∃ ta a', Run (sections P) a ta a' ∧ Reduces P holds s' a' ∧ outputs ta = out := by
  obtain ⟨θ, e⟩ := x
  have howned := owned_step hP h.owned hs
  rcases instr_cases hs with ⟨l, next, hi, hfree, rfl, rfl⟩ | ⟨l, next, hi, howns, rfl, rfl⟩ |
    ⟨l, f, r, hi, hf, rfl, rfl⟩ | ⟨l, f, r, hi, hf, rfl, rfl⟩ | ⟨f, r, hi, hf, rfl, rfl⟩
  · -- the section begins
    obtain ⟨hout, hin⟩ := hP.lock hi
    refine ⟨[], a, Run.nil a, ⟨howned, fun θ' hθ' => ?_, fun l' hl' => ?_, fun θ' l' hl' => ?_⟩,
      rfl⟩
    · by_cases hθ : θ' = θ
      · subst hθ
        simp only [Function.update_self, hin] at hθ'
        cases hθ'
      · simp only [Function.update_of_ne hθ] at hθ' ⊢
        exact h.outside θ' hθ'
    · by_cases hl : l' = l
      · subst hl
        simp at hl'
      · simp only [Function.update_of_ne hl] at hl'
        exact h.idle l' hl'
    · by_cases hθ : θ' = θ
      · subst hθ
        simp only [Function.update_self, hin] at hl' ⊢
        obtain rfl := Option.some.inj hl'
        exact ⟨next, [], a.cell, by rw [h.outside θ' hout, hi], rfl, h.idle l hfree⟩
      · simp only [Function.update_of_ne hθ] at hl' ⊢
        exact h.within θ' l' hl'
  · -- the section ends, and takes place
    obtain ⟨hin, hout⟩ := hP.unlock hi
    obtain ⟨next', es, c, hlock, hinside, hc⟩ := h.within θ l hin
    obtain ⟨-, hframe⟩ := inside_frame hP hinside (hP.lock hlock).2
    have hstep : (sections P).step a ⟨θ, es⟩ = some (⟨c, Function.update a.loc θ next⟩, []) := by
      simp only [sections, sectionStep, hlock, hinside, hi, if_true]
    refine ⟨_, _, Run.single hstep, ⟨howned, update_outside h.outside next, fun l' hl' => ?_,
      fun θ' l' hl' => ?_⟩, rfl⟩
    · by_cases hl : l' = l
      · subst hl
        exact hc
      · simp only [Function.update_of_ne hl] at hl'
        exact (hframe l' hl).trans (h.idle l' hl')
    · by_cases hθ : θ' = θ
      · subst hθ
        simp only [Function.update_self, hout] at hl'
        cases hl'
      · simp only [Function.update_of_ne hθ] at hl' ⊢
        obtain ⟨n, es', c', hlock', hinside', hc'⟩ := h.within θ' l' hl'
        have hne : l' ≠ l := by
          rintro rfl
          exact hθ (exclusive h.owned hl' hin)
        obtain ⟨d, hd, hdl⟩ := inside_local hP hinside' (hP.lock hlock').2 (hframe l' hne)
        exact ⟨n, es', d, hlock', hd, hdl.trans hc'⟩
  · -- inside a section
    obtain ⟨hin, hin'⟩ := hP.access hi
    refine ⟨[], a, Run.nil a, ⟨howned, fun θ' hθ' => ?_, fun l' hl' => ?_, fun θ' l' hl' => ?_⟩,
      rfl⟩
    · by_cases hθ : θ' = θ
      · subst hθ
        simp only [Function.update_self, hin' hf] at hθ'
        cases hθ'
      · simp only [Function.update_of_ne hθ] at hθ' ⊢
        exact h.outside θ' hθ'
    · have hl : l' ≠ l := by
        rintro rfl
        exact absurd (hl'.symm.trans ((h.owned l' θ).mpr hin)) (by simp)
      simp only [Function.update_of_ne hl]
      exact h.idle l' hl'
    · by_cases hθ : θ' = θ
      · subst hθ
        simp only [Function.update_self, hin' hf] at hl' ⊢
        obtain rfl := Option.some.inj hl'
        obtain ⟨n, es, c, hlock, hinside, hc⟩ := h.within θ' l hin
        exact ⟨n, es ++ [e], _, hlock, inside_snoc hi (hc ▸ hf) hinside, by simp⟩
      · simp only [Function.update_of_ne hθ] at hl' ⊢
        obtain ⟨n, es, c, hlock, hinside, hc⟩ := h.within θ' l' hl'
        have hne : l' ≠ l := by
          rintro rfl
          exact hθ (exclusive h.owned hl' hin)
        exact ⟨n, es, c, hlock, hinside, by rw [Function.update_of_ne hne]; exact hc⟩
  · have hsame := reduces_peek hP h hi
    obtain ⟨hout, hout'⟩ := hP.peek hi
    have hstep : (sections P).step a ⟨θ, [e]⟩ =
        some (⟨a.cell, Function.update a.loc θ r.1⟩, r.2) := by
      have hloc := h.outside θ hout
      simp only [sections, sectionStep, hloc, hi, hsame, hf, Option.map_some]
    exact ⟨_, _, Run.single hstep, reduces_free h hout (hout' hf), by simp [outputs]⟩
  · obtain ⟨hout, hout'⟩ := hP.free hi
    have hstep : (sections P).step a ⟨θ, [e]⟩ =
        some (⟨a.cell, Function.update a.loc θ r.1⟩, r.2) := by
      have hloc := h.outside θ hout
      simp only [sections, sectionStep, hloc, hi, hf, Option.map_some]
    exact ⟨_, _, Run.single hstep, reduces_free h hout (hout' hf), by simp [outputs]⟩

/-- **Reduction.** A run of single instructions is a run of whole sections, with the same outputs
in the same order. -/
theorem reduce (hP : Disciplined P holds) {s s' : State T L V Λ} {a : Atomic T L V Λ}
    {tr : List (Step (State T L V Λ) (Σ θ, ε θ) ω)} (hr : Run (machine P) s tr s')
    (h : Reduces P holds s a) :
    ∃ ta a', Run (sections P) a ta a' ∧ Reduces P holds s' a' ∧ outputs ta = outputs tr := by
  induction hr generalizing a with
  | nil => exact ⟨[], a, Run.nil a, h, rfl⟩
  | cons hs _ ih =>
    obtain ⟨ta, a₁, hrun, h₁, hout⟩ := reduces_step hP h hs
    obtain ⟨tb, a', hrun', h', hout'⟩ := ih h₁
    refine ⟨ta ++ tb, a', hrun.append hrun', h', ?_⟩
    unfold outputs at hout hout' ⊢
    rw [List.flatMap_append, List.flatMap_cons, hout, hout']

end MasterRelay.Lib.Mutex
