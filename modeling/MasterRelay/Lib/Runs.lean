import Mathlib.Data.List.Forall2

/-!
# Runs of a deterministic event system

A `System` is a partial step function: `step s e` is the state after event `e` and the outputs the
step makes, or `none` when `e` cannot happen in `s` (or stops the process). Whatever is not
determined by the state (an allocation, a network send, the scheduler) is part of the event, so a
`Run` is one interleaving with one outcome for everything the environment chooses.

A trace keeps, for each step, the state before it, the event, the outputs and the state after it
(`Step`), so a condition on steps, a history and a sequence of values are all read off the trace.

Results:
* `Run.split`, `Run.mem`: a run at one of its steps.
* `Run.invariantWhere`: what every step of a run preserves holds at its end, where each step may be
  assumed to meet a condition (`Run.invariantWhere_states`: and on the way).
* `Run.history`: the same for a history variable folded over the trace; `Run.trace` is the case
  where the history is the trace.
* `Run.lockstep`: two runs over related events keep a relation between their states.
* `Run.always_iff`: what a step keeps exactly where it meets a condition holds at every point of a
  run (`Always`) exactly where all its steps do.
* `since_snoc`: what happened since something else last did (`Since`), one step later.
* `Run.simulate`: a run of one system is a run of another that makes the same outputs.
* `Run.expand`: a run of coarse steps is a run of fine ones.
* `Run.counter`: the values a counter shows increase.
* `run_exec`, `run_of_exec`: the run of a list of events is computed by `exec`.
-/

namespace MasterRelay.Lib.Runs

variable {σ ε ω : Type}

/-- A deterministic event system with outputs. -/
structure System (σ ε ω : Type) where
  step : σ → ε → Option (σ × List ω)

/-- One step of a run. -/
structure Step (σ ε ω : Type) where
  pre : σ
  event : ε
  out : List ω
  post : σ

/-- `Run S s tr s'`: the steps `tr` lead from `s` to `s'`. -/
inductive Run (S : System σ ε ω) : σ → List (Step σ ε ω) → σ → Prop
  | nil (s : σ) : Run S s [] s
  | cons {s s₁ s₂ : σ} {e : ε} {out : List ω} {tr : List (Step σ ε ω)}
      (hs : S.step s e = some (s₁, out)) (hr : Run S s₁ tr s₂) :
      Run S s (⟨s, e, out, s₁⟩ :: tr) s₂

/-- The outputs of a run, in order. -/
def outputs (tr : List (Step σ ε ω)) : List ω := tr.flatMap Step.out

/-- The states after each step of a run. -/
def states (tr : List (Step σ ε ω)) : List σ := tr.map Step.post

/-- A state some run from `s₀` ends in. -/
def Reachable (S : System σ ε ω) (s₀ s : σ) : Prop := ∃ tr, Run S s₀ tr s

variable {S : System σ ε ω}

theorem Run.append {s s₁ s₂ : σ} {t₁ t₂ : List (Step σ ε ω)} (h₁ : Run S s t₁ s₁)
    (h₂ : Run S s₁ t₂ s₂) : Run S s (t₁ ++ t₂) s₂ := by
  induction h₁ with
  | nil => exact h₂
  | cons hs _ ih => exact Run.cons hs (ih h₂)

theorem Run.single {s s' : σ} {e : ε} {out : List ω} (h : S.step s e = some (s', out)) :
    Run S s [⟨s, e, out, s'⟩] s' :=
  Run.cons h (Run.nil s')

/-- A run at one of its steps: the run up to it, the step, and the run after it. -/
theorem Run.split {s s' : σ} {x : Step σ ε ω} {t₂ : List (Step σ ε ω)} :
    ∀ {t₁ : List (Step σ ε ω)}, Run S s (t₁ ++ x :: t₂) s' →
      Run S s t₁ x.pre ∧ S.step x.pre x.event = some (x.post, x.out) ∧ Run S x.post t₂ s'
  | [], h => by
    cases h with
    | cons hs hr => exact ⟨Run.nil _, hs, hr⟩
  | _ :: _, h => by
    cases h with
    | cons hs hr =>
      obtain ⟨h₁, hstep, h₂⟩ := hr.split
      exact ⟨Run.cons hs h₁, hstep, h₂⟩

/-- Every step of a run splits it. -/
theorem Run.mem {s s' : σ} {tr : List (Step σ ε ω)} (h : Run S s tr s') {x : Step σ ε ω}
    (hx : x ∈ tr) : S.step x.pre x.event = some (x.post, x.out) ∧
      ∃ t₁ t₂, tr = t₁ ++ x :: t₂ ∧ Run S s t₁ x.pre ∧ Run S x.post t₂ s' := by
  obtain ⟨t₁, t₂, rfl⟩ := List.append_of_mem hx
  obtain ⟨h₁, hs, h₂⟩ := h.split
  exact ⟨hs, t₁, t₂, rfl, h₁, h₂⟩

/-- **Invariants under a condition on steps**: what every step meeting `P` preserves holds at the
end of a run whose steps all meet `P`. -/
theorem Run.invariantWhere {I : σ → Prop} {P : Step σ ε ω → Prop}
    (hstep : ∀ s e s' out, I s → P ⟨s, e, out, s'⟩ → S.step s e = some (s', out) → I s')
    {s s' : σ} {tr : List (Step σ ε ω)} (h : Run S s tr s') (hP : ∀ x ∈ tr, P x) (hs : I s) :
    I s' := by
  induction h with
  | nil => exact hs
  | cons hst _ ih =>
    exact ih (fun x hx => hP x (List.mem_cons_of_mem _ hx))
      (hstep _ _ _ _ hs (hP _ List.mem_cons_self) hst)

/-- The same for every state on the way. -/
theorem Run.invariantWhere_states {I : σ → Prop} {P : Step σ ε ω → Prop}
    (hstep : ∀ s e s' out, I s → P ⟨s, e, out, s'⟩ → S.step s e = some (s', out) → I s')
    {s s' : σ} {tr : List (Step σ ε ω)} (h : Run S s tr s') (hP : ∀ x ∈ tr, P x) (hs : I s) :
    ∀ u ∈ s :: states tr, I u := by
  induction h with
  | nil =>
    intro u hu
    rwa [List.mem_singleton.mp hu]
  | cons hst _ ih =>
    have h₁ := hstep _ _ _ _ hs (hP _ List.mem_cons_self) hst
    intro u hu
    rcases List.mem_cons.mp hu with rfl | hu'
    · exact hs
    · exact ih (fun x hx => hP x (List.mem_cons_of_mem _ hx)) h₁ u hu'

/-- **Histories**: an invariant between a state and a history variable `upd` folded over the
steps so far. -/
theorem Run.history {γ : Type} (upd : γ → Step σ ε ω → γ) {I : γ → σ → Prop}
    (hstep : ∀ g s e s' out, I g s → S.step s e = some (s', out) →
      I (upd g ⟨s, e, out, s'⟩) s')
    {s s' : σ} {tr : List (Step σ ε ω)} (h : Run S s tr s') {g : γ} (hg : I g s) :
    I (tr.foldl upd g) s' := by
  induction h generalizing g with
  | nil => exact hg
  | cons hs _ ih => exact ih (hstep _ _ _ _ _ hg hs)

/-- **Traces as histories**: an invariant between a state and the steps that led to it. -/
theorem Run.trace {I : List (Step σ ε ω) → σ → Prop}
    (hstep : ∀ t s e s' out, I t s → S.step s e = some (s', out) →
      I (t ++ [⟨s, e, out, s'⟩]) s')
    {s s' : σ} {tr : List (Step σ ε ω)} (h : Run S s tr s') (h₀ : I [] s) : I tr s' := by
  have hfold := h.history (fun t x => t ++ [x]) (I := I) hstep h₀
  rwa [List.foldl_append_eq_append, List.nil_append, ← List.flatMap_def,
    List.flatMap_singleton'] at hfold

/-- The property of the steps so far and the state holds at every point of the run. -/
def Always (S : System σ ε ω) (s₀ : σ) (I : List (Step σ ε ω) → σ → Prop)
    (tr : List (Step σ ε ω)) : Prop :=
  ∀ t₁ t₂ s, tr = t₁ ++ t₂ → Run S s₀ t₁ s → I t₁ s

/-- **Exactly where**: a property that a step keeps if and only if it meets `P` holds at every point
of a run if and only if all its steps meet `P`. -/
theorem Run.always_iff {I : List (Step σ ε ω) → σ → Prop} {P : Step σ ε ω → Prop} {s₀ s' : σ}
    (h₀ : I [] s₀)
    (hstep : ∀ t s e s' out, Run S s₀ t s → I t s → S.step s e = some (s', out) →
      (I (t ++ [⟨s, e, out, s'⟩]) s' ↔ P ⟨s, e, out, s'⟩))
    {tr : List (Step σ ε ω)} (h : Run S s₀ tr s') : Always S s₀ I tr ↔ ∀ x ∈ tr, P x := by
  constructor
  · intro hall x hx
    obtain ⟨hs, t₁, t₂, rfl, hr₁, -⟩ := h.mem hx
    have hpre := hall t₁ (x :: t₂) x.pre rfl hr₁
    have hpost := hall (t₁ ++ [x]) t₂ x.post (by simp) (hr₁.append (Run.single hs))
    exact (hstep t₁ _ _ _ _ hr₁ hpre hs).mp hpost
  · rintro hP t₁ t₂ u rfl hr₁
    -- along the run, and as long as the steps meet `P`
    have hinv := hr₁.trace (I := fun t s => Run S s₀ t s ∧ ((∀ x ∈ t, P x) → I t s))
      (fun t s e s' out ht hs => ⟨ht.1.append (Run.single hs), fun hx =>
        (hstep t s e s' out ht.1 (ht.2 fun y hy => hx y (List.mem_append_left _ hy)) hs).mpr
          (hx _ (List.mem_append_right _ List.mem_cons_self))⟩)
      ⟨Run.nil _, fun _ => h₀⟩
    exact hinv.2 fun x hx => hP x (List.mem_append_left _ hx)

/-- A step meeting `P` has been taken, and since then none meeting `Q`. -/
def Since (P Q : Step σ ε ω → Prop) (tr : List (Step σ ε ω)) : Prop :=
  ∃ t₁ x t₂, tr = t₁ ++ x :: t₂ ∧ P x ∧ ∀ y ∈ t₂, ¬ Q y

theorem not_since_nil {P Q : Step σ ε ω → Prop} : ¬ Since P Q [] := by
  rintro ⟨t₁, x, t₂, h, -⟩
  exact absurd h.symm (by simp)

/-- **One step later**: it has just happened, or it had and `Q` has not since. -/
theorem since_snoc {P Q : Step σ ε ω → Prop} {tr : List (Step σ ε ω)} {x : Step σ ε ω} :
    Since P Q (tr ++ [x]) ↔ P x ∨ Since P Q tr ∧ ¬ Q x := by
  constructor
  · rintro ⟨t₁, y, t₂, h, hP, hQ⟩
    rcases List.eq_nil_or_concat t₂ with rfl | ⟨t₃, z, rfl⟩
    · obtain ⟨-, hxy⟩ := List.append_inj' h rfl
      exact .inl ((List.cons.inj hxy).1 ▸ hP)
    · rw [List.concat_eq_append] at h hQ
      rw [← List.cons_append, ← List.append_assoc] at h
      obtain ⟨rfl, hxz⟩ := List.append_inj' h rfl
      obtain rfl := (List.cons.inj hxz).1
      exact .inr ⟨⟨t₁, y, t₃, rfl, hP, fun w hw => hQ w (List.mem_append_left _ hw)⟩,
        hQ x (List.mem_append_right _ List.mem_cons_self)⟩
  · rintro (hP | ⟨⟨t₁, y, t₂, rfl, hP, hQ⟩, hx⟩)
    · exact ⟨tr, x, [], rfl, hP, fun y hy => absurd hy List.not_mem_nil⟩
    · refine ⟨t₁, y, t₂ ++ [x], by rw [List.append_assoc, List.cons_append], hP, fun z hz => ?_⟩
      rcases List.mem_append.mp hz with hz' | hz'
      · exact hQ z hz'
      · exact List.mem_singleton.mp hz' ▸ hx

/-- **Lockstep**: two runs over pairwise related events, from related states, end in related
states and pass through related states on the way. -/
theorem Run.lockstep {R : σ → σ → Prop} {E : ε → ε → Prop}
    (hstep : ∀ s t e f s' t' o p, R s t → E e f → S.step s e = some (s', o) →
      S.step t f = some (t', p) → R s' t')
    {s s' t t' : σ} {tr tu : List (Step σ ε ω)} (hs : Run S s tr s') (ht : Run S t tu t')
    (hE : List.Forall₂ (fun x y => E x.event y.event) tr tu) (h : R s t) :
    R s' t' ∧ List.Forall₂ R (states tr) (states tu) := by
  induction hs generalizing t tu with
  | nil =>
    cases hE
    cases ht
    exact ⟨h, List.Forall₂.nil⟩
  | cons hs₁ _ ih =>
    cases hE with
    | cons he hE' =>
      cases ht with
      | cons ht₁ ht' =>
        have h₁ := hstep _ _ _ _ _ _ _ _ h he hs₁ ht₁
        obtain ⟨hend, hall⟩ := ih ht' hE' h₁
        exact ⟨hend, List.Forall₂.cons h₁ hall⟩

/-- **Simulation**: where each step of `S` is one of `T` for the same event, with the same outputs,
so is each run. -/
theorem Run.simulate {τ : Type} {T : System τ ε ω} {R : σ → τ → Prop}
    (hstep : ∀ s t e s' out, R s t → S.step s e = some (s', out) →
      ∃ t', T.step t e = some (t', out) ∧ R s' t')
    {s s' : σ} {tr : List (Step σ ε ω)} (hs : Run S s tr s') {t : τ} (h : R s t) :
    ∃ tu t', Run T t tu t' ∧ R s' t' ∧ tu.map Step.event = tr.map Step.event ∧
      tu.map Step.out = tr.map Step.out := by
  induction hs generalizing t with
  | nil => exact ⟨[], t, Run.nil t, h, rfl, rfl⟩
  | cons hs₁ _ ih =>
    obtain ⟨t₁, ht₁, h₁⟩ := hstep _ _ _ _ _ h hs₁
    obtain ⟨tu, t', hrun, hend, hev, hout⟩ := ih h₁
    refine ⟨_, t', Run.cons ht₁ hrun, hend, ?_, ?_⟩
    · rw [List.map_cons, List.map_cons, hev]
    · rw [List.map_cons, List.map_cons, hout]

/-- **Coarser steps**: where each step of `S` is a run of `T` with the same outputs, so is each
run. -/
theorem Run.expand {τ ε' : Type} {T : System τ ε' ω} {f : σ → τ}
    (hstep : ∀ s e s' out, S.step s e = some (s', out) →
      ∃ tu, Run T (f s) tu (f s') ∧ outputs tu = out)
    {s s' : σ} {tr : List (Step σ ε ω)} (hs : Run S s tr s') :
    ∃ tu, Run T (f s) tu (f s') ∧ outputs tu = outputs tr := by
  induction hs with
  | nil s => exact ⟨[], Run.nil (f s), rfl⟩
  | cons hs₁ _ ih =>
    obtain ⟨tu, hrun, hout⟩ := hstep _ _ _ _ hs₁
    obtain ⟨tv, hrun', hout'⟩ := ih
    refine ⟨tu ++ tv, hrun.append hrun', ?_⟩
    unfold outputs at hout hout' ⊢
    rw [List.flatMap_append, List.flatMap_cons, hout, hout']

/-- **Counters**: where some steps advance a counter, the others leave it alone, and only a step
that advances it may show its value, the values shown increase until the counter reaches its
bound. -/
theorem Run.counter (advances : Step σ ε ω → Bool) (shown : Step σ ε ω → List Nat)
    (count : σ → Nat) (bound : Nat)
    (hrest : ∀ s e s' out, S.step s e = some (s', out) → advances ⟨s, e, out, s'⟩ = false →
      count s' = count s ∧ shown ⟨s, e, out, s'⟩ = [])
    (hstep : ∀ s e s' out, S.step s e = some (s', out) → advances ⟨s, e, out, s'⟩ = true →
      count s + 1 < bound → count s' = count s + 1 ∧
        (shown ⟨s, e, out, s'⟩ = [] ∨ shown ⟨s, e, out, s'⟩ = [count s]))
    {s s' : σ} {tr : List (Step σ ε ω)} (h : Run S s tr s')
    (hbound : count s + tr.countP advances < bound) :
    (tr.flatMap shown).Pairwise (· < ·) ∧ ∀ v ∈ tr.flatMap shown, count s ≤ v := by
  induction h with
  | nil => exact ⟨List.Pairwise.nil, fun v hv => absurd hv List.not_mem_nil⟩
  | @cons s s₁ s₂ e out tr hs _ ih =>
    by_cases hadv : advances ⟨s, e, out, s₁⟩ = true
    · rw [List.countP_cons_of_pos hadv] at hbound
      obtain ⟨hcount, hshown⟩ := hstep _ _ _ _ hs hadv (by omega)
      obtain ⟨hsorted, hge⟩ := ih (by omega)
      rw [List.flatMap_cons]
      rcases hshown with hnone | hone
      · rw [hnone, List.nil_append]
        exact ⟨hsorted, fun v hv => by have := hge v hv; omega⟩
      · rw [hone, List.singleton_append]
        refine ⟨List.pairwise_cons.mpr ⟨fun v hv => ?_, hsorted⟩, fun v hv => ?_⟩
        · have := hge v hv
          omega
        · rcases List.mem_cons.mp hv with rfl | hv'
          · exact Nat.le_refl _
          · have := hge v hv'
            omega
    · rw [List.countP_cons_of_neg hadv] at hbound
      obtain ⟨hcount, hnone⟩ := hrest _ _ _ _ hs (Bool.eq_false_iff.mpr hadv)
      obtain ⟨hsorted, hge⟩ := ih (by omega)
      rw [List.flatMap_cons, hnone, List.nil_append]
      exact ⟨hsorted, fun v hv => by have := hge v hv; omega⟩

/-- **What is handled**: where an invariant leaves it to the events alone which of them are refused,
the sequences that are handled to their end are those without such an event. -/
theorem Run.handled_iff {I : σ → Prop} {P ok : ε → Prop}
    (hok : ∀ s e, I s → P e → ((∃ r, S.step s e = some r) ↔ ok e))
    (hstep : ∀ s e s' out, I s → S.step s e = some (s', out) → I s') :
    ∀ {es : List ε} {s : σ}, I s → (∀ e ∈ es, P e) →
      ((∃ tr s', Run S s tr s' ∧ tr.map Step.event = es) ↔ ∀ e ∈ es, ok e)
  | [], s, _, _ => iff_of_true ⟨[], s, Run.nil s, rfl⟩ fun _ he => absurd he List.not_mem_nil
  | e :: es, s, hs, hes => by
    obtain ⟨he, htail⟩ := List.forall_mem_cons.mp hes
    rw [List.forall_mem_cons]
    constructor
    · rintro ⟨_ | ⟨x, tr⟩, s', hr, hev⟩
      · cases hev
      · cases hr with
        | cons hfirst hrest =>
          obtain ⟨rfl, hrestev⟩ := List.cons.inj hev
          exact ⟨(hok _ _ hs he).mp ⟨_, hfirst⟩, (Run.handled_iff hok hstep
            (hstep _ _ _ _ hs hfirst) htail).mp ⟨tr, s', hrest, hrestev⟩⟩
    · rintro ⟨hfirst, hrest⟩
      obtain ⟨⟨s₁, out⟩, hs₁⟩ := (hok _ _ hs he).mpr hfirst
      obtain ⟨tr, s', hr, rfl⟩ :=
        (Run.handled_iff hok hstep (hstep _ _ _ _ hs hs₁) htail).mpr hrest
      exact ⟨_, s', Run.cons hs₁ hr, rfl⟩

/-- The run of a list of events, when none of them is refused. -/
def exec (S : System σ ε ω) : σ → List ε → Option (List (Step σ ε ω) × σ)
  | s, [] => some ([], s)
  | s, e :: es =>
    match S.step s e with
    | some (s₁, out) => (exec S s₁ es).map fun r => (⟨s, e, out, s₁⟩ :: r.1, r.2)
    | none => none

/-- What `exec` computes is a run. -/
theorem run_exec : ∀ {es : List ε} {s s' : σ} {tr : List (Step σ ε ω)},
    exec S s es = some (tr, s') → Run S s tr s'
  | [], s, s', tr, h => by
    obtain ⟨rfl, rfl⟩ := Prod.mk.inj (Option.some.inj h)
    exact Run.nil s
  | e :: es, s, s', tr, h => by
    simp only [exec] at h
    split at h
    · rename_i s₁ out hs
      obtain ⟨⟨tr₁, s₂⟩, hr, heq⟩ := Option.map_eq_some_iff.mp h
      obtain ⟨rfl, rfl⟩ := Prod.mk.inj heq
      exact Run.cons hs (run_exec hr)
    · exact absurd h (by simp)

theorem exec_events : ∀ {es : List ε} {s s' : σ} {tr : List (Step σ ε ω)},
    exec S s es = some (tr, s') → tr.map Step.event = es
  | [], s, s', tr, h => by
    obtain ⟨rfl, rfl⟩ := Prod.mk.inj (Option.some.inj h)
    rfl
  | e :: es, s, s', tr, h => by
    simp only [exec] at h
    split at h
    · obtain ⟨⟨tr₁, s₂⟩, hr, heq⟩ := Option.map_eq_some_iff.mp h
      obtain ⟨rfl, rfl⟩ := Prod.mk.inj heq
      rw [List.map_cons, exec_events hr]
    · exact absurd h (by simp)

/-- A run found by evaluation, with what its steps and its end state pass. -/
theorem run_of_exec (S : System σ ε ω) (s : σ) (es : List ε) (Q : List (Step σ ε ω) → σ → Bool)
    (h : ((exec S s es).map fun r => Q r.1 r.2) = some true) :
    ∃ tr s', Run S s tr s' ∧ tr.map Step.event = es ∧ Q tr s' = true := by
  obtain ⟨⟨tr, s'⟩, hexec, hQ⟩ := Option.map_eq_some_iff.mp h
  exact ⟨tr, s', run_exec hexec, exec_events hexec, hQ⟩

end MasterRelay.Lib.Runs
