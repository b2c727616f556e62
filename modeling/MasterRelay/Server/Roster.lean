import Mathlib.Data.Fin.Tuple.Basic
import Mathlib.Data.Fintype.Defs
import Mathlib.Logic.Function.Basic

/-!
# The roster

What the registry of the server is for, without its records: `n` seats, each free or held by a peer,
one of which may be the master's. A peer that joins gets the lowest free seat and is the master when
nobody was there; a peer that leaves frees its seat, and the seat of a master that left is not given
to anybody else.

A `Roster` carries what makes it one: no peer holds two seats, and only the first seat is ever a
master's. `join` and `leave` keep both, so there is never more than one master.

Results:
* `seated_join`, `seated_leave`: who has a seat afterwards.
* `Roster.master_unique`: at most one master.
* `Roster.led_join`, `Roster.led_leave`: a roster with a master, or empty, stays one, unless the
  master leaves while others stay.
* `Roster.leaderless_join`, `Roster.leaderless_leave`: without a master it stays so until it is
  empty.
-/

namespace MasterRelay.Server

variable {n : Nat} {P : Type}

/-- A seat that is taken. -/
structure Seat (P : Type) where
  peer : P
  isMaster : Bool
  deriving DecidableEq, Repr

/-- The seats; `none` is free. -/
abbrev Seats (n : Nat) (P : Type) := Fin n → Option (Seat P)

namespace Seats

/-- Who holds seat `i`. -/
def peerAt (s : Seats n P) (i : Fin n) : Option P := (s i).map Seat.peer

/-- Seat `i` is a master's. -/
def masterAt (s : Seats n P) (i : Fin n) : Bool := (s i).any Seat.isMaster

/-- Nobody is there. -/
def vacant (s : Seats n P) : Bool := decide (∀ i, (s i).isNone = true)

/-- The lowest free seat. -/
def free (s : Seats n P) : Option (Fin n) := Fin.find? fun i => (s i).isNone

/-- The lowest master's seat. -/
def leader (s : Seats n P) : Option (Fin n) := Fin.find? s.masterAt

variable [DecidableEq P]

/-- `p` takes the lowest free seat, unless it has one or there is none. -/
def join (s : Seats n P) (p : P) : Seats n P :=
  if ∃ i, s.peerAt i = some p then s
  else
    match s.free with
    | none => s
    | some i => Function.update s i (some ⟨p, s.vacant⟩)

/-- `p` leaves its seat. -/
def leave (s : Seats n P) (p : P) : Seats n P :=
  fun i => if s.peerAt i = some p then none else s i

end Seats

theorem peerAt_some {s : Seats n P} {i : Fin n} {p : P} :
    s.peerAt i = some p ↔ ∃ b, s i = some ⟨p, b⟩ := by
  rw [Seats.peerAt, Option.map_eq_some_iff]
  constructor
  · rintro ⟨⟨q, b⟩, h, rfl⟩
    exact ⟨b, h⟩
  · rintro ⟨b, h⟩
    exact ⟨_, h, rfl⟩

theorem masterAt_iff {s : Seats n P} {i : Fin n} :
    s.masterAt i = true ↔ ∃ p, s i = some ⟨p, true⟩ := by
  rw [Seats.masterAt, Option.any_eq_true]
  constructor
  · rintro ⟨⟨p, b⟩, h, rfl⟩
    exact ⟨p, h⟩
  · rintro ⟨p, h⟩
    exact ⟨_, h, rfl⟩

theorem vacant_iff {s : Seats n P} : s.vacant = true ↔ ∀ i, s i = none := by
  simp [Seats.vacant]

theorem free_eq_some {s : Seats n P} {i : Fin n} (h : s.free = some i) :
    s i = none ∧ ∀ j < i, s j ≠ none := by
  obtain ⟨hi, hlt⟩ := Fin.find?_eq_some_iff.mp h
  refine ⟨Option.isNone_iff_eq_none.mp hi, fun j hj hn => ?_⟩
  exact absurd (hlt j hj) (by simp [hn])

theorem leader_isSome {s : Seats n P} : s.leader.isSome = true ↔ ∃ i, s.masterAt i = true := by
  rw [Seats.leader, Fin.isSome_find?_iff]

variable [DecidableEq P]

/-- Everything a join can do. -/
theorem join_cases (s : Seats n P) (p : P) :
    ((∃ i, s.peerAt i = some p) ∨ s.free = none) ∧ s.join p = s ∨
      ∃ i, (∀ j, s.peerAt j ≠ some p) ∧ s.free = some i ∧
        s.join p = Function.update s i (some ⟨p, s.vacant⟩) := by
  unfold Seats.join
  split
  · rename_i h
    exact .inl ⟨.inl h, rfl⟩
  · rename_i h
    split
    · rename_i hf
      exact .inl ⟨.inr hf, rfl⟩
    · rename_i i hf
      exact .inr ⟨i, fun j hj => h ⟨j, hj⟩, hf, rfl⟩

/-- A seat that is taken stays taken when a peer joins. -/
theorem join_keeps {s : Seats n P} {i : Fin n} {x : Seat P} (h : s i = some x) (p : P) :
    s.join p i = some x := by
  rcases join_cases s p with ⟨-, he⟩ | ⟨k, -, hfree, he⟩
  · rw [he, h]
  · have hik : i ≠ k := by
      rintro rfl
      exact absurd (h.symm.trans (free_eq_some hfree).1) (by simp)
    rw [he, Function.update_of_ne hik, h]

theorem leave_some {s : Seats n P} {p : P} {i : Fin n} {x : Seat P} :
    s.leave p i = some x ↔ s i = some x ∧ x.peer ≠ p := by
  unfold Seats.leave
  split
  · rename_i h
    obtain ⟨b, hb⟩ := peerAt_some.mp h
    rw [hb]
    constructor
    · intro h'
      exact absurd h' (by simp)
    · rintro ⟨h', hne⟩
      cases h'
      exact absurd rfl hne
  · rename_i h
    refine ⟨fun hx => ⟨hx, fun hp => h ?_⟩, And.left⟩
    rw [Seats.peerAt, hx, Option.map_some, hp]

/-- **Who has a seat after a join**: whoever had one, and `p` when one was free. -/
theorem seated_join {s : Seats n P} {p q : P} : (∃ i, (s.join p).peerAt i = some q) ↔
    (∃ i, s.peerAt i = some q) ∨ q = p ∧ s.free ≠ none := by
  constructor
  · rintro ⟨i, hi⟩
    rcases join_cases s p with ⟨-, he⟩ | ⟨k, -, hfree, he⟩
    · exact .inl ⟨i, he ▸ hi⟩
    · rw [he, Seats.peerAt] at hi
      by_cases hik : i = k
      · rw [hik, Function.update_self] at hi
        exact .inr ⟨(Option.some.inj hi).symm, by simp [hfree]⟩
      · rw [Function.update_of_ne hik] at hi
        exact .inl ⟨i, hi⟩
  · rintro (⟨i, hi⟩ | ⟨rfl, hfree⟩)
    · obtain ⟨b, hb⟩ := peerAt_some.mp hi
      exact ⟨i, peerAt_some.mpr ⟨b, join_keeps hb p⟩⟩
    · rcases join_cases s q with ⟨⟨i, hi⟩ | hnone, he⟩ | ⟨k, -, -, he⟩
      · exact ⟨i, by rwa [he]⟩
      · exact absurd hnone hfree
      · exact ⟨k, peerAt_some.mpr ⟨s.vacant, by rw [he, Function.update_self]⟩⟩

/-- **Who has a seat after a leave**: whoever had one, but for `p`. -/
theorem seated_leave {s : Seats n P} {p q : P} : (∃ i, (s.leave p).peerAt i = some q) ↔
    (∃ i, s.peerAt i = some q) ∧ q ≠ p := by
  constructor
  · rintro ⟨i, hi⟩
    obtain ⟨b, hb⟩ := peerAt_some.mp hi
    obtain ⟨hs, hne⟩ := leave_some.mp hb
    exact ⟨⟨i, peerAt_some.mpr ⟨b, hs⟩⟩, hne⟩
  · rintro ⟨⟨i, hi⟩, hne⟩
    obtain ⟨b, hb⟩ := peerAt_some.mp hi
    exact ⟨i, peerAt_some.mpr ⟨b, leave_some.mpr ⟨hb, hne⟩⟩⟩

/-- **A roster**: no peer has two seats, and a master sits in the first. -/
structure Roster (n : Nat) (P : Type) where
  seat : Seats n P
  distinct : ∀ i j p, seat.peerAt i = some p → seat.peerAt j = some p → i = j
  leads : ∀ i, seat.masterAt i = true → (i : Nat) = 0

namespace Roster

/-- Nobody has joined. -/
def empty : Roster n P where
  seat _ := none
  distinct _ _ _ h := absurd h (by simp [Seats.peerAt])
  leads _ h := absurd h (by simp [Seats.masterAt])

theorem distinct_join (r : Roster n P) (p : P) (i j : Fin n) (q : P)
    (hi : (r.seat.join p).peerAt i = some q) (hj : (r.seat.join p).peerAt j = some q) : i = j := by
  rcases join_cases r.seat p with ⟨-, he⟩ | ⟨k, hnew, -, he⟩
  · rw [he] at hi hj
    exact r.distinct i j q hi hj
  · -- the seat taken and the seats that were held
    have hkey : ∀ l, (r.seat.join p).peerAt l = some q →
        l = k ∧ q = p ∨ l ≠ k ∧ r.seat.peerAt l = some q := by
      intro l hl
      rw [he, Seats.peerAt] at hl
      by_cases hlk : l = k
      · rw [hlk, Function.update_self] at hl
        exact .inl ⟨hlk, (Option.some.inj hl).symm⟩
      · rw [Function.update_of_ne hlk] at hl
        exact .inr ⟨hlk, hl⟩
    rcases hkey i hi with ⟨rfl, rfl⟩ | ⟨-, hi'⟩
    · rcases hkey j hj with ⟨rfl, -⟩ | ⟨-, hj'⟩
      · rfl
      · exact absurd hj' (hnew j)
    · rcases hkey j hj with ⟨-, rfl⟩ | ⟨-, hj'⟩
      · exact absurd hi' (hnew i)
      · exact r.distinct i j q hi' hj'

theorem leads_join (r : Roster n P) (p : P) (i : Fin n)
    (h : (r.seat.join p).masterAt i = true) : (i : Nat) = 0 := by
  rcases join_cases r.seat p with ⟨-, he⟩ | ⟨k, -, hfree, he⟩
  · exact r.leads i (he ▸ h)
  · rw [he, Seats.masterAt] at h
    by_cases hik : i = k
    · subst hik
      -- the new seat is a master's only when all seats were free, the first one with them
      rw [Function.update_self] at h
      have hvac := vacant_iff.mp h
      by_contra hpos
      exact (free_eq_some hfree).2 ⟨0, by omega⟩ (Fin.lt_def.mpr (Nat.pos_of_ne_zero hpos)) (hvac _)
    · rw [Function.update_of_ne hik] at h
      exact r.leads i h

/-- **Joining** gives a roster again. -/
def join (r : Roster n P) (p : P) : Roster n P where
  seat := r.seat.join p
  distinct := r.distinct_join p
  leads := r.leads_join p

/-- **Leaving** gives a roster again. -/
def leave (r : Roster n P) (p : P) : Roster n P where
  seat := r.seat.leave p
  distinct i j q hi hj := by
    obtain ⟨b, hb⟩ := peerAt_some.mp hi
    obtain ⟨c, hc⟩ := peerAt_some.mp hj
    exact r.distinct i j q (peerAt_some.mpr ⟨b, (leave_some.mp hb).1⟩)
      (peerAt_some.mpr ⟨c, (leave_some.mp hc).1⟩)
  leads i h := by
    obtain ⟨q, hq⟩ := masterAt_iff.mp h
    exact r.leads i (masterAt_iff.mpr ⟨q, (leave_some.mp hq).1⟩)

omit [DecidableEq P] in
/-- **At most one master.** -/
theorem master_unique (r : Roster n P) {i j : Fin n} (hi : r.seat.masterAt i = true)
    (hj : r.seat.masterAt j = true) : i = j :=
  Fin.ext ((r.leads i hi).trans (r.leads j hj).symm)

omit [DecidableEq P] in
theorem leader_eq_some (r : Roster n P) {i : Fin n} :
    r.seat.leader = some i ↔ r.seat.masterAt i = true := by
  constructor
  · exact fun h => (Fin.find?_eq_some_iff.mp h).1
  · intro h
    obtain ⟨j, hj⟩ := Option.isSome_iff_exists.mp (leader_isSome.mpr ⟨i, h⟩)
    rw [hj, r.master_unique h (Fin.find?_eq_some_iff.mp hj).1]

/-! ## Having a master -/

/-- Nobody is there, or there is a master. -/
def Led (s : Seats n P) : Prop := s.vacant = true ∨ s.leader.isSome = true

/-- Somebody is there, and there is no master. -/
def Leaderless (s : Seats n P) : Prop := s.vacant = false ∧ s.leader = none

omit [DecidableEq P] in
theorem leaderless_iff {s : Seats n P} : Leaderless s ↔ ¬ Led s := by
  unfold Leaderless Led
  rw [not_or, Bool.not_eq_true, Bool.not_eq_true, Option.isSome_eq_false_iff,
    Option.isNone_iff_eq_none]

/-- `p` is the master and leaves others behind. -/
def Orphans (s : Seats n P) (p : P) : Prop :=
  (∃ i, s i = some ⟨p, true⟩) ∧ ∃ j q, s.peerAt j = some q ∧ q ≠ p

omit [DecidableEq P] in
/-- A seat that is kept keeps its master. -/
theorem led_of_masterAt {s : Seats n P} {i : Fin n} (h : s.masterAt i = true) : Led s :=
  .inr (leader_isSome.mpr ⟨i, h⟩)

/-- A roster that is led stays so when a peer joins: the first to come is the master. -/
theorem led_join {s : Seats n P} (h : Led s) (p : P) : Led (s.join p) := by
  rcases join_cases s p with ⟨-, he⟩ | ⟨k, -, hfree, he⟩
  · rw [he]
    exact h
  · rcases h with hvac | hled
    · refine led_of_masterAt (i := k) ?_
      rw [he, Seats.masterAt, Function.update_self, hvac]
      rfl
    · obtain ⟨i, hi⟩ := leader_isSome.mp hled
      obtain ⟨q, hq⟩ := masterAt_iff.mp hi
      exact led_of_masterAt (i := i) (masterAt_iff.mpr ⟨q, join_keeps hq p⟩)

/-- It stays so when a peer leaves, unless the master leaves others behind. -/
theorem led_leave {s : Seats n P} (h : Led s) {p : P} (hp : ¬ Orphans s p) : Led (s.leave p) := by
  rcases h with hvac | hled
  · refine .inl (vacant_iff.mpr fun i => ?_)
    rw [Option.eq_none_iff_forall_ne_some]
    intro x hx
    exact absurd (leave_some.mp hx).1 (by simp [vacant_iff.mp hvac i])
  · obtain ⟨i, hi⟩ := leader_isSome.mp hled
    obtain ⟨q, hq⟩ := masterAt_iff.mp hi
    by_cases hqp : q = p
    · -- the master leaves, and nobody else is there
      refine .inl (vacant_iff.mpr fun j => ?_)
      rw [Option.eq_none_iff_forall_ne_some]
      rintro ⟨q', b⟩ hx
      obtain ⟨hj, hne⟩ := leave_some.mp hx
      exact hp ⟨⟨i, hqp ▸ hq⟩, j, q', peerAt_some.mpr ⟨b, hj⟩, hne⟩
    · exact led_of_masterAt (i := i) (masterAt_iff.mpr ⟨q, leave_some.mpr ⟨hq, hqp⟩⟩)

/-- Without a master, a join does not make one. -/
theorem leaderless_join {s : Seats n P} (h : Leaderless s) (p : P) : Leaderless (s.join p) := by
  rcases join_cases s p with ⟨-, he⟩ | ⟨k, -, hfree, he⟩
  · rw [he]
    exact h
  · rw [leaderless_iff, he]
    rintro (hvac | hled)
    · have := vacant_iff.mp hvac k
      rw [Function.update_self] at this
      exact absurd this (by simp)
    · obtain ⟨i, hi⟩ := leader_isSome.mp hled
      rw [Seats.masterAt] at hi
      by_cases hik : i = k
      · rw [hik, Function.update_self] at hi
        exact absurd (h.1.symm.trans hi) (by simp)
      · rw [Function.update_of_ne hik] at hi
        exact absurd (leader_isSome.mpr ⟨i, hi⟩) (by simp [h.2])

/-- Nor does a leave. -/
theorem leaderless_leave {s : Seats n P} (h : s.leader = none) (p : P) :
    (s.leave p).leader = none := by
  rw [← Option.isNone_iff_eq_none, ← Option.isSome_eq_false_iff, Bool.eq_false_iff]
  intro hled
  obtain ⟨i, hi⟩ := leader_isSome.mp hled
  obtain ⟨q, hq⟩ := masterAt_iff.mp hi
  have := leader_isSome.mpr ⟨i, masterAt_iff.mpr ⟨q, (leave_some.mp hq).1⟩⟩
  rw [h] at this
  exact absurd this (by simp)

/-- A master that leaves others behind leaves them without one. -/
theorem orphans_leave (r : Roster n P) {p : P} (h : Orphans r.seat p) :
    Leaderless (r.seat.leave p) := by
  obtain ⟨⟨i, hi⟩, j, q, hq, hne⟩ := h
  rw [leaderless_iff]
  rintro (hvac | hled)
  · obtain ⟨b, hb⟩ := peerAt_some.mp hq
    have := leave_some.mpr ⟨hb, hne⟩
    rw [vacant_iff.mp hvac j] at this
    exact absurd this (by simp)
  · obtain ⟨k, hk⟩ := leader_isSome.mp hled
    obtain ⟨q', hq'⟩ := masterAt_iff.mp hk
    obtain ⟨hseat, hne'⟩ := leave_some.mp hq'
    -- there was only one master, and it has left
    have hik : i = k := r.master_unique (masterAt_iff.mpr ⟨p, hi⟩) (masterAt_iff.mpr ⟨q', hseat⟩)
    rw [← hik, hi] at hseat
    cases hseat
    exact hne' rfl

end Roster

end MasterRelay.Server
