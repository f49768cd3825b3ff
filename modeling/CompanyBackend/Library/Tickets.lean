import CompanyBackend.Library.Interleaving
import Mathlib.Data.Finset.Card
import Mathlib.Order.Interval.Finset.Nat

/-!
# Tickets from a shared counter

Calls draw tickets from a counter of the store: the step that draws one raises the counter
and returns its new value. As long as the counter never falls, two calls never hold the same
ticket, whatever the interleaving, and every ticket lies between the first and the last value
of the counter. A bound on tickets is therefore a bound on the number of calls that hold one.

A call need not keep the value that it has drawn: if each step that gives a call a property
raises the counter, the rise of the counter bounds the number of calls that have got it.
-/

/-- A counter of the store, and the ticket that a call has drawn from it. -/
structure Dispenser (L σ N : Type) where
  counter : σ → N
  ticket : L → Option N

namespace Dispenser

variable {ι L σ N : Type} [DecidableEq ι] [Preorder N] {dispenser : Dispenser L σ N}

/-- What a step may do: leave the ticket of the call and not lower the counter,
or raise the counter and take its new value as the first ticket of the call. -/
inductive Moves (dispenser : Dispenser L σ N) (call : L) (store : σ) (after : L × σ) : Prop
  | keeps (same : dispenser.ticket after.1 = dispenser.ticket call)
      (rises : dispenser.counter store ≤ dispenser.counter after.2)
  | draws (first : dispenser.ticket call = none)
      (drawn : dispenser.ticket after.1 = some (dispenser.counter after.2))
      (rises : dispenser.counter store < dispenser.counter after.2)

/-- The tickets that were drawn since a state. -/
structure Drawn (dispenser : Dispenser L σ N) (start pool : Pool ι L σ) : Prop where
  rises : dispenser.counter start.store ≤ dispenser.counter pool.store
  within : ∀ i ticket, dispenser.ticket (start.calls i) = none →
    dispenser.ticket (pool.calls i) = some ticket →
      dispenser.counter start.store < ticket ∧ ticket ≤ dispenser.counter pool.store
  distinct : ∀ i j ticket, dispenser.ticket (start.calls i) = none →
    dispenser.ticket (start.calls j) = none → dispenser.ticket (pool.calls i) = some ticket →
      dispenser.ticket (pool.calls j) = some ticket → i = j

variable {next : L → σ → L × σ} {start pool : Pool ι L σ} {i : ι}

omit [DecidableEq ι] in
theorem Drawn.refl (start : Pool ι L σ) : dispenser.Drawn start start where
  rises := le_refl _
  within i ticket fresh held := by
    rw [fresh] at held
    cases held
  distinct i j ticket fresh _ held := by
    rw [fresh] at held
    cases held

/-- A new ticket is greater than all tickets that were drawn before. -/
theorem Drawn.step (drawn : dispenser.Drawn start pool)
    (moves : dispenser.Moves (pool.calls i) pool.store (next (pool.calls i) pool.store)) :
    dispenser.Drawn start (pool.step next i) := by
  cases moves with
  | keeps same rises =>
    have tickets : ∀ j, dispenser.ticket ((pool.step next i).calls j) =
        dispenser.ticket (pool.calls j) := by
      intro j
      by_cases self : j = i
      · rw [self, Pool.step_self, same]
      · rw [Pool.step_ne self]
    constructor
    · exact drawn.rises.trans rises
    · intro j ticket fresh held
      rw [tickets] at held
      obtain ⟨above, below⟩ := drawn.within j ticket fresh held
      exact ⟨above, below.trans rises⟩
    · intro j k ticket freshLeft freshRight left right
      rw [tickets] at left right
      exact drawn.distinct j k ticket freshLeft freshRight left right
  | draws first ticketed rises =>
    have own : ∀ ticket, dispenser.ticket (next (pool.calls i) pool.store).1 = some ticket →
        ticket = dispenser.counter (pool.step next i).store := by
      intro ticket held
      rw [ticketed] at held
      exact (Option.some.inj held).symm
    constructor
    · exact drawn.rises.trans rises.le
    · intro j ticket fresh held
      by_cases self : j = i
      · subst self
        rw [Pool.step_self] at held
        rw [own ticket held]
        exact ⟨drawn.rises.trans_lt rises, le_refl _⟩
      · rw [Pool.step_ne self] at held
        obtain ⟨above, atMost⟩ := drawn.within j ticket fresh held
        exact ⟨above, atMost.trans rises.le⟩
    · intro j k ticket freshLeft freshRight left right
      refine Pool.unique_step (P := fun j call => dispenser.ticket (start.calls j) = none ∧
        dispenser.ticket call = some ticket) ?_ ?_ j k ⟨freshLeft, left⟩ ⟨freshRight, right⟩
      · rintro j k ⟨freshLeft, left⟩ ⟨freshRight, right⟩
        exact drawn.distinct j k ticket freshLeft freshRight left right
      · -- The other calls hold tickets up to the old value of the counter.
        rintro ⟨_, held⟩ j _ ⟨fresh, other⟩
        have atMost := (drawn.within j ticket fresh other).2
        rw [own ticket held] at atMost
        exact absurd rises atMost.not_gt

/-- In every interleaving whose steps move as they may, the tickets are
distinct. -/
theorem drawn_of_reaches {condition : Pool ι L σ → ι → Prop}
    (moves : ∀ pool i, condition pool i →
      dispenser.Moves (pool.calls i) pool.store (next (pool.calls i) pool.store))
    (reached : Pool.Reaches next condition start pool) : dispenser.Drawn start pool :=
  reached.invariant (Drawn.refl start) fun pool i drawn admitted =>
    drawn.step (moves pool i admitted)

omit [DecidableEq ι] in
/-- At most as many calls as the greatest ticket allows hold one. -/
theorem Drawn.card_le {dispenser : Dispenser L σ Nat} {calls : Finset ι} {max : Nat}
    (drawn : dispenser.Drawn start pool)
    (held : ∀ i ∈ calls, dispenser.ticket (start.calls i) = none ∧
      ∃ ticket ≤ max, dispenser.ticket (pool.calls i) = some ticket) : calls.card ≤ max := by
  let number : ι → Nat := fun i => (dispenser.ticket (pool.calls i)).getD 0
  have bounded : Set.MapsTo number calls (Finset.Icc 1 max : Set Nat) := by
    intro i member
    obtain ⟨fresh, ticket, atMost, ticketed⟩ := held i member
    have above := (drawn.within i ticket fresh ticketed).1
    have same : number i = ticket := by simp [number, ticketed]
    rw [same, Finset.mem_coe, Finset.mem_Icc]
    omega
  have injective : Set.InjOn number calls := by
    intro i first j second same
    obtain ⟨freshLeft, left, _, leftTicket⟩ := held i first
    obtain ⟨freshRight, right, _, rightTicket⟩ := held j second
    have equal : left = right := by simpa [number, leftTicket, rightTicket] using same
    subst equal
    exact drawn.distinct i j left freshLeft freshRight leftTicket rightTicket
  have count := Finset.card_le_card_of_injOn number bounded injective
  rw [Nat.card_Icc] at count
  omega

end Dispenser

namespace Pool

variable {ι L σ : Type} [DecidableEq ι] {next : L → σ → L × σ}
variable {condition : Pool ι L σ → ι → Prop} {start pool : Pool ι L σ}

/-- The calls that have got a property are counted by a counter that rises with
each of them. -/
theorem Reaches.card_add_le (P : L → Prop) (counter : σ → Nat)
    (reached : Reaches next condition start pool)
    (rises : ∀ pool i, condition pool i → counter pool.store ≤ counter (pool.step next i).store)
    (counted : ∀ pool i, condition pool i → ¬ P (pool.calls i) →
      P ((pool.step next i).calls i) → counter pool.store < counter (pool.step next i).store)
    {calls : Finset ι} (gained : ∀ i ∈ calls, ¬ P (start.calls i) ∧ P (pool.calls i)) :
    calls.card + counter start.store ≤ counter pool.store := by
  induction reached generalizing calls with
  | refl =>
    have none : calls = ∅ :=
      Finset.eq_empty_of_forall_notMem fun i member => (gained i member).1 (gained i member).2
    simp [none]
  | @tail pool _ _ taken ih =>
    obtain ⟨i, admitted, rfl⟩ := taken
    have others : ∀ j ∈ calls.erase i, ¬ P (start.calls j) ∧ P (pool.calls j) := by
      intro j member
      obtain ⟨other, inside⟩ := Finset.mem_erase.mp member
      have held := gained j inside
      rwa [step_ne other] at held
    by_cases fresh : i ∈ calls ∧ ¬ P (pool.calls i)
    · -- The call gets the property with this step, and the counter rises.
      have raised := counted pool i admitted fresh.2 (gained i fresh.1).2
      have before := ih others
      have card := Finset.card_erase_add_one fresh.1
      omega
    · have before : calls.card + counter start.store ≤ counter pool.store := by
        refine ih fun j member => ?_
        by_cases self : j = i
        · subst self
          exact ⟨(gained j member).1, by_contra fun lost => fresh ⟨member, lost⟩⟩
        · exact others j (Finset.mem_erase.mpr ⟨self, member⟩)
      exact before.trans (rises pool i admitted)

end Pool
