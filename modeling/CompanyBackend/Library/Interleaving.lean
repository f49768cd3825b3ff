import Mathlib.Algebra.BigOperators.Group.Finset.Basic
import Mathlib.Logic.Relation
import Mathlib.Tactic.Abel

/-!
# Interleaved calls on a shared store

A call goes through local states, and with each step it executes one command on a store
that it shares with other calls. The command is atomic, the call is not: between two
commands of one call any number of commands of other calls may be executed, and what the
call has read may be out of date when it writes.

`Pool` holds the local states of all calls, any number of them, together with the store.
An interleaving is trusted only as far as a condition on the state before each step; the
trivial condition admits all of them. An invariant that every admitted step keeps holds in
every state that is reached.
-/

/-- Calls in progress, and the store that they share. -/
structure Pool (ι L σ : Type) where
  calls : ι → L
  store : σ

namespace Pool

open Function

variable {ι L σ : Type} [DecidableEq ι]

variable (next : L → σ → L × σ) (condition : Pool ι L σ → ι → Prop)

def step (pool : Pool ι L σ) (i : ι) : Pool ι L σ where
  calls := Function.update pool.calls i (next (pool.calls i) pool.store).1
  store := (next (pool.calls i) pool.store).2

def run (pool : Pool ι L σ) (schedule : List ι) : Pool ι L σ :=
  schedule.foldl (step next) pool

/-- A step of one call, taken in a state that meets the condition. -/
def Steps (pool pool' : Pool ι L σ) : Prop :=
  ∃ i, condition pool i ∧ pool' = pool.step next i

/-- An interleaving leads from one state to the other, and all of its steps meet
the condition. -/
def Reaches : Pool ι L σ → Pool ι L σ → Prop :=
  Relation.ReflTransGen (Steps next condition)

/-- Every step of a schedule meets the condition. -/
def Admits (next : L → σ → L × σ) (condition : Pool ι L σ → ι → Prop) : Pool ι L σ → List ι → Prop
  | _, [] => True
  | pool, i :: schedule => condition pool i ∧ Admits next condition (pool.step next i) schedule

/-- Schedules are checked step by step. -/
instance decidableAdmits (next : L → σ → L × σ) (condition : Pool ι L σ → ι → Prop)
    [decided : ∀ pool i, Decidable (condition pool i)] :
    ∀ pool schedule, Decidable (Admits next condition pool schedule)
  | _, [] => .isTrue trivial
  | pool, i :: schedule =>
    have := decidableAdmits next condition (pool.step next i) schedule
    inferInstanceAs (Decidable (condition pool i ∧ _))

variable {next : L → σ → L × σ} {condition : Pool ι L σ → ι → Prop}
variable {pool pool' start : Pool ι L σ} {i j : ι}

theorem step_self : (pool.step next i).calls i = (next (pool.calls i) pool.store).1 :=
  update_self ..

theorem step_ne (other : j ≠ i) : (pool.step next i).calls j = pool.calls j :=
  update_of_ne other ..

/-- What is seen of the calls changes for one call. -/
theorem map_calls_step {M : Type} (view : L → M) :
    (fun j => view ((pool.step next i).calls j)) =
      update (fun j => view (pool.calls j)) i (view (next (pool.calls i) pool.store).1) :=
  comp_update view pool.calls i _

/-- A call that has ended changes nothing. -/
theorem step_eq_self (ended : next (pool.calls i) pool.store = (pool.calls i, pool.store)) :
    pool.step next i = pool := by
  rw [step, ended, update_eq_self]

/-- A call that stays where it is changes only the store. -/
theorem step_eq_of_stays (stays : (next (pool.calls i) pool.store).1 = pool.calls i) :
    pool.step next i = { pool with store := (next (pool.calls i) pool.store).2 } := by
  rw [step, stays, update_eq_self]

variable {P : ι → L → Prop}

/-- A property of all calls survives a step if the call that took it has the
property. -/
theorem forall_step (self : P i (next (pool.calls i) pool.store).1)
    (others : ∀ j, j ≠ i → P j (pool.calls j)) : ∀ j, P j ((pool.step next i).calls j) := by
  intro j
  by_cases same : j = i
  · subst same
    rwa [step_self]
  · rw [step_ne same]
    exact others j same

section Views

variable {D : Type} (P : D → Prop) {duties : ι → D} {duty : D}

/-- When one of the calls moves, what it is left with and what the others have
to do is all that there is to do. -/
theorem forall_update (own : P duty) (others : ∀ j, P (duties j)) :
    ∀ j, P (update duties i duty j) :=
  (forall_update_iff duties fun _ => P).mpr ⟨own, fun j _ => others j⟩

/-- What another call has to do remains to be done. -/
theorem exists_update (found : ∃ j, P (duties j)) (other : ¬ P (duties i)) :
    ∃ j, P (update duties i duty j) := by
  obtain ⟨j, held⟩ := found
  have apart : j ≠ i := by
    rintro rfl
    exact other held
  exact ⟨j, by rwa [update_of_ne apart]⟩

/-- What the call that has moved does not have to do was to be done before. -/
theorem of_exists_update (found : ∃ j, P (update duties i duty j)) (other : ¬ P duty) :
    ∃ j, P (duties j) := by
  obtain ⟨j, held⟩ := found
  have apart : j ≠ i := by
    rintro rfl
    rw [update_self] at held
    exact other held
  exact ⟨j, by rwa [update_of_ne apart] at held⟩

end Views

/-- At most one call has a property, if a call that gets it finds no other that
has it. -/
theorem unique_step (unique : ∀ j k, P j (pool.calls j) → P k (pool.calls k) → j = k)
    (first : P i (next (pool.calls i) pool.store).1 → ∀ j, j ≠ i → ¬ P j (pool.calls j)) :
    ∀ j k, P j ((pool.step next i).calls j) → P k ((pool.step next i).calls k) → j = k := by
  intro j k left right
  by_cases leftSelf : j = i <;> by_cases rightSelf : k = i
  · rw [leftSelf, rightSelf]
  · subst leftSelf
    rw [step_self] at left
    rw [step_ne rightSelf] at right
    exact absurd right (first left k rightSelf)
  · subst rightSelf
    rw [step_self] at right
    rw [step_ne leftSelf] at left
    exact absurd left (first right j leftSelf)
  · rw [step_ne leftSelf] at left
    rw [step_ne rightSelf] at right
    exact unique j k left right

variable {Invariant : Pool ι L σ → Prop}

section

variable (reached : Reaches next condition start pool)

include reached

/-- An invariant that admitted steps keep holds in every state that is
reached. -/
theorem Reaches.invariant (first : Invariant start)
    (kept : ∀ pool i, Invariant pool → condition pool i → Invariant (pool.step next i)) :
    Invariant pool := by
  induction reached with
  | refl => exact first
  | tail _ taken ih =>
    obtain ⟨i, admitted, rfl⟩ := taken
    exact kept _ i ih admitted

omit reached in
/-- What each call keeps by itself, whatever the store, holds for all calls. -/
theorem Reaches.forall_calls (P : ι → L → Prop) (reached : Reaches next condition start pool)
    (first : ∀ i, P i (start.calls i))
    (kept : ∀ i call store, P i call → P i (next call store).1) : ∀ i, P i (pool.calls i) := by
  induction reached with
  | refl => exact first
  | tail _ taken ih =>
    obtain ⟨i, _, rfl⟩ := taken
    exact forall_step (kept i _ _ (ih i)) fun j _ => ih j

/-- The condition may be forgotten. -/
theorem Reaches.weaken : Reaches next (fun _ _ => True) start pool := by
  induction reached with
  | refl => exact .refl
  | tail _ taken ih =>
    obtain ⟨i, _, rfl⟩ := taken
    exact ih.tail ⟨i, trivial, rfl⟩

/-- Along an interleaving an invariant may be added to the condition. -/
theorem Reaches.restrict (first : Invariant start)
    (kept : ∀ pool i, Invariant pool → condition pool i → Invariant (pool.step next i)) :
    Reaches next (fun pool i => Invariant pool ∧ condition pool i) start pool := by
  have both : Reaches next (fun pool i => Invariant pool ∧ condition pool i) start pool ∧
      Invariant pool := by
    induction reached with
    | refl => exact ⟨.refl, first⟩
    | tail _ taken ih =>
      obtain ⟨i, admitted, rfl⟩ := taken
      exact ⟨ih.1.tail ⟨i, ⟨ih.2, admitted⟩, rfl⟩, kept _ i ih.2 admitted⟩
  exact both.1

end

variable {schedule : List ι}

/-- A schedule whose steps all meet the condition reaches its last state. -/
theorem reaches_run (admits : Admits next condition pool schedule) :
    Reaches next condition pool (pool.run next schedule) := by
  induction schedule generalizing pool with
  | nil => exact .refl
  | cons i schedule ih => exact .head ⟨i, admits.1, rfl⟩ (ih admits.2)

theorem run_append (first second : List ι) :
    pool.run next (first ++ second) = (pool.run next first).run next second :=
  List.foldl_append

theorem admits_append {first second : List ι} :
    Admits next condition pool (first ++ second) ↔
      Admits next condition pool first ∧ Admits next condition (pool.run next first) second := by
  induction first generalizing pool with
  | nil => simp [Admits, run]
  | cons i first ih =>
    rw [List.cons_append, Admits, Admits, ih, and_assoc]
    rfl

theorem run_concat (schedule : List ι) :
    pool.run next (schedule ++ [i]) = (pool.run next schedule).step next i :=
  run_append schedule [i]

theorem admits_concat : Admits next condition pool (schedule ++ [i]) ↔
      Admits next condition pool schedule ∧ condition (pool.run next schedule) i := by
  rw [admits_append, Admits, Admits, and_true]

theorem Admits.and {other : Pool ι L σ → ι → Prop}
    (left : Admits next condition pool schedule) (right : Admits next other pool schedule) :
    Admits next (fun pool i => condition pool i ∧ other pool i) pool schedule := by
  induction schedule generalizing pool with
  | nil => exact trivial
  | cons i schedule ih => exact ⟨⟨left.1, right.1⟩, ih left.2 right.2⟩

theorem Admits.weaken {weaker : Pool ι L σ → ι → Prop}
    (admits : Admits next condition pool schedule)
    (implied : ∀ pool i, condition pool i → weaker pool i) : Admits next weaker pool schedule := by
  induction schedule generalizing pool with
  | nil => exact trivial
  | cons i schedule ih => exact ⟨implied pool i admits.1, ih admits.2⟩

/-- Every schedule is admitted if an invariant that all steps keep implies the
condition. -/
theorem admits_of_invariant {P : Pool ι L σ → Prop} (first : P pool)
    (kept : ∀ pool i, P pool → P (pool.step next i)) (implies : ∀ pool i, P pool → condition pool i)
    (schedule : List ι) : Admits next condition pool schedule := by
  induction schedule generalizing pool with
  | nil => exact trivial
  | cons i schedule ih => exact ⟨implies pool i first, ih (kept pool i first)⟩

/-- Every schedule is an interleaving. -/
theorem admits_any (schedule : List ι) : Admits next (fun _ _ => True) pool schedule :=
  admits_of_invariant (P := fun _ => True) trivial (fun _ _ _ => trivial)
    (fun _ _ _ => trivial) schedule

section Traces

variable {κ : Type} {emit : L → Option κ} {apply : σ → κ → σ}

/-- What the calls emit with their steps, in the order of the schedule. -/
def trace (next : L → σ → L × σ) (emit : L → Option κ) : Pool ι L σ → List ι → List κ
  | _, [] => []
  | pool, i :: schedule =>
    (emit (pool.calls i)).toList ++ trace next emit (pool.step next i) schedule

/-- A store that changes with what is emitted can be told from the trace. -/
theorem store_run
    (written : ∀ call store, (next call store).2 = (emit call).toList.foldl apply store)
    (schedule : List ι) :
    (pool.run next schedule).store = (pool.trace next emit schedule).foldl apply pool.store := by
  induction schedule generalizing pool with
  | nil => rfl
  | cons i schedule ih =>
    rw [trace, List.foldl_append, ← written]
    exact ih

/-- Calls that take one step each emit what they start with. -/
theorem trace_of_nodup (once : schedule.Nodup) :
    pool.trace next emit schedule = schedule.filterMap fun i => emit (pool.calls i) := by
  induction schedule generalizing pool with
  | nil => rfl
  | cons i schedule ih =>
    obtain ⟨apart, rest⟩ := List.nodup_cons.mp once
    have same : schedule.filterMap (fun j => emit ((pool.step next i).calls j)) =
        schedule.filterMap fun j => emit (pool.calls j) := by
      refine List.filterMap_congr ?_
      intro j listed
      have other : j ≠ i := by
        rintro rfl
        exact apart listed
      rw [step_ne other]
    rw [trace, ih rest, same, List.filterMap_cons]
    cases emit (pool.calls i) <;> rfl

/-- A call that takes no step stays where it is. -/
theorem run_calls_of_notMem (idle : i ∉ schedule) :
    (pool.run next schedule).calls i = pool.calls i := by
  induction schedule generalizing pool with
  | nil => rfl
  | cons j schedule ih =>
    obtain ⟨apart, rest⟩ := List.ne_and_not_mem_of_not_mem_cons idle
    exact (ih rest).trans (step_ne apart)

end Traces

/-- In a sum over all calls a step changes one summand. -/
theorem sum_step [Fintype ι] {M : Type} [AddCommMonoid M] (f : ι → L → M) :
    ∃ rest, ∑ j, f j (pool.calls j) = f i (pool.calls i) + rest ∧
      ∑ j, f j ((pool.step next i).calls j) = f i (next (pool.calls i) pool.store).1 + rest := by
  refine ⟨∑ j ∈ Finset.univ.erase i, f j (pool.calls j), ?_, ?_⟩
  · exact (Finset.add_sum_erase _ _ (Finset.mem_univ i)).symm
  · rw [← Finset.add_sum_erase _ _ (Finset.mem_univ i), step_self]
    congr 1
    refine Finset.sum_congr rfl ?_
    intro j other
    rw [step_ne (Finset.ne_of_mem_erase other)]

/-- Conservation: if what the calls have put in and taken out balances what is
given and what remains, and the step of one call keeps its own balance, the sums
still balance. -/
theorem balance_step [Fintype ι] {M : Type} [AddCancelCommMonoid M] {given remaining remaining' : M}
    (put taken : L → M)
    (before : given + ∑ j, put (pool.calls j) = remaining + ∑ j, taken (pool.calls j))
    (moved : put (next (pool.calls i) pool.store).1 + (remaining + taken (pool.calls i)) =
      put (pool.calls i) + (remaining' + taken (next (pool.calls i) pool.store).1)) :
    given + ∑ j, put ((pool.step next i).calls j) =
      remaining' + ∑ j, taken ((pool.step next i).calls j) := by
  obtain ⟨restPut, putBefore, putAfter⟩ := @sum_step ι L σ _ next pool i _ M _ fun _ => put
  obtain ⟨restTaken, takenBefore, takenAfter⟩ := @sum_step ι L σ _ next pool i _ M _ fun _ => taken
  rw [putBefore, takenBefore] at before
  rw [putAfter, takenAfter]
  apply add_right_cancel (b := remaining + taken (pool.calls i))
  calc given + (put (next (pool.calls i) pool.store).1 + restPut) +
    (remaining + taken (pool.calls i))
    _ = put (next (pool.calls i) pool.store).1 + (remaining + taken (pool.calls i)) +
          (given + restPut) := by abel
    _ = put (pool.calls i) + (remaining' + taken (next (pool.calls i) pool.store).1) +
          (given + restPut) := by rw [moved]
    _ = given + (put (pool.calls i) + restPut) +
          (remaining' + taken (next (pool.calls i) pool.store).1) := by abel
    _ = remaining + (taken (pool.calls i) + restTaken) +
          (remaining' + taken (next (pool.calls i) pool.store).1) := by rw [before]
    _ = remaining' + (taken (next (pool.calls i) pool.store).1 + restTaken) +
          (remaining + taken (pool.calls i)) := by abel

end Pool
