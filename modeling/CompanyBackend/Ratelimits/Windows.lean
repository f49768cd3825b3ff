import CompanyBackend.Library.Tickets
import CompanyBackend.Ratelimits.Ratelimiter
import Mathlib.Tactic.FinCases

/-!
# Accepted calls between two resets

The counter of an entry is within its limit in every interleaving, but it does not count every
call: two calls that look up the same entry both write it back with one unit more. Calls that
look up an entry only while no other call is between its lookup and its insertion do not lose
units. Then every call that is accepted raises the counter by one or resets the entry, and no
more calls are accepted between two resets than the limit allows.

A call is accepted when it has saved the entry with its own unit deducted. All that is left for
it is to return the guard.
-/

namespace Company

open RatelimitCall RatelimitStorage Pool

/-- The call has read an entry, or the lack of one, and has not yet written it
back. -/
def RatelimitProgress.holding : RatelimitProgress → Bool
  | .missing | .found _ | .measured _ _ | .deducting _ _ | .renewing _ _ | .saving _ _ => true
  | .looking | .saved _ _ | .finished _ | .overflowed => false

/-- The call has its unit. -/
def RatelimitProgress.accepted : RatelimitProgress → Bool
  | .saved _ _ | .finished (.ok _) => true
  | _ => false

namespace RatelimitCall

variable (hasher : List String → UInt64)

/-- The key that the call is about to look up. -/
def looksUp : RatelimitCall → Option UInt64
  | .from request .looking => some (request.key hasher)
  | _ => none

/-- The key whose entry the call is working on. -/
def holds : RatelimitCall → Option UInt64
  | .from request progress => if progress.holding then some (request.key hasher) else none
  | .clock => none

def accepted (key : UInt64) : RatelimitCall → Bool
  | .from request progress => progress.accepted && request.key hasher == key
  | .clock => false

end RatelimitCall

variable (hasher : List String → UInt64)

/-- No other call is working on the entry that the call is about to look up. -/
def LooksUpAlone {ι : Type} (pool : RatelimitPool ι) (i : ι) : Prop :=
  ∀ j, j ≠ i → (pool.calls i).looksUp hasher = none ∨
    (pool.calls j).holds hasher ≠ (pool.calls i).looksUp hasher

instance decidableLooksUpAlone (hasher : List String → UInt64) {ι : Type} [Fintype ι]
    [DecidableEq ι] (pool : RatelimitPool ι) (i : ι) : Decidable (LooksUpAlone hasher pool i) :=
  inferInstanceAs (Decidable (∀ j, j ≠ i → _))

/-- When the units of the key are given back. -/
def RatelimitStorage.resetOf (key : UInt64) (storage : RatelimitStorage) : Option Nat :=
  (storage.map.lookup key).map Entry.reset

/-- The units of the key that are used. -/
def RatelimitStorage.usedOf (key : UInt64) (storage : RatelimitStorage) : Nat :=
  (storage.map.lookup key).elim 0 fun entry => entry.used.toNat

/-- The step does not reset the entry of the key, nor create it. -/
def Unreset (key : UInt64) {ι : Type} [DecidableEq ι] (pool : RatelimitPool ι) (i : ι) : Prop :=
  (pool.step (RatelimitCall.next hasher) i).store.resetOf key = pool.store.resetOf key

instance decidableUnreset (hasher : List String → UInt64) (key : UInt64) {ι : Type}
    [DecidableEq ι] (pool : RatelimitPool ι) (i : ι) : Decidable (Unreset hasher key pool i) :=
  inferInstanceAs (Decidable (_ = _))

variable (stored : Option Entry)

/-- The entry that a call works with is the stored one, or a new one where there
is none. -/
def Entry.ReadFrom (entry : Entry) : Prop :=
  stored = some entry ∨ stored = none ∧ entry.used = 0

/-- The entry is the stored one with one unit more, or it starts again with the
first unit. -/
def Entry.Follows (entry : Entry) : Prop :=
  (∃ old, stored = some old ∧ old.reset = entry.reset ∧ entry.used.toNat = old.used.toNat + 1) ∨
  stored.map Entry.reset ≠ some entry.reset ∧ entry.used.toNat = 1

/-- What the call has read is what is stored. -/
def RatelimitProgress.Current (now : Nat) : RatelimitProgress → Prop
  | .looking | .saved _ _ | .finished _ | .overflowed => True
  | .missing => stored = none
  | .found entry | .measured entry _ | .deducting entry _ => entry.ReadFrom stored
  | .renewing entry _ => entry.ReadFrom stored ∧ entry.reset < now
  | .saving entry _ => entry.Follows stored

def RatelimitCall.Current (storage : RatelimitStorage) : RatelimitCall → Prop
  | .from request progress =>
    progress.Current (storage.map.lookup (request.key hasher)) storage.now
  | .clock => True

open RatelimitRequest

variable {hasher : List String → UInt64} {key : UInt64} {progress : RatelimitProgress}
variable {entry : Entry} {stored : Option Entry} {call : RatelimitCall}

section Current

variable {storage storage' : RatelimitStorage}

theorem Entry.ReadFrom.follows_add {used : UInt32} (read : entry.ReadFrom stored)
    (counted : used.toNat = entry.used.toNat + 1) : Entry.Follows stored { entry with used } := by
  obtain rfl | ⟨rfl, unused⟩ := read
  · exact .inl ⟨entry, rfl, rfl, counted⟩
  · refine .inr ⟨nofun, ?_⟩
    rw [counted, unused]
    rfl

/-- An entry is renewed after it has expired, so it gets a later reset. -/
theorem Entry.ReadFrom.follows_renewed {now : Nat} (read : entry.ReadFrom stored)
    (expired : entry.reset < now) : (Entry.renewed now).Follows stored := by
  refine .inr ⟨?_, rfl⟩
  obtain rfl | ⟨rfl, _⟩ := read
  · have later : entry.reset ≠ now + Entry.lifetime := by omega
    simpa [Entry.renewed] using later
  · nofun

theorem checkedAdd_toNat {a b c : UInt32} (sum : checkedAdd a b = some c) :
    c.toNat = a.toNat + b.toNat := by
  by_cases fits : a.toNat + b.toNat < UInt32.size
  · obtain ⟨_, computed, value⟩ := checkedAdd_eq_some fits
    rw [computed] at sum
    cases sum
    exact value
  · rw [checkedAdd, if_neg fits] at sum
    cases sum

/-- A call works with what it has read. -/
theorem RatelimitRequest.progress_current (request : RatelimitRequest)
    (current : progress.Current (storage.map.lookup key) storage.now) :
    (request.progress key storage progress).Current
      ((write key storage progress).map.lookup key) (write key storage progress).now := by
  cases progress with
  | looking =>
    show RatelimitProgress.Current (storage.map.lookup key) storage.now _
    rw [progress]
    cases found : storage.map.lookup key with
    | none => rfl
    | some entry => exact .inl rfl
  | missing => exact .inr ⟨current, rfl⟩
  | found entry =>
    rw [progress]
    cases entry.getRemaining storage.now request.limit with
    | none => exact trivial
    | some remaining => exact current
  | measured entry remaining =>
    by_cases none : remaining = 0
    · simp only [progress, none, if_true, RatelimitProgress.Current]
    · simp only [progress, none, if_false]
      exact current
  | deducting entry ratelimiter =>
    by_cases expired : storage.now > entry.reset
    · rw [progress, if_pos expired]
      exact ⟨current, expired⟩
    · rw [progress, if_neg expired]
      cases sum : checkedAdd entry.used 1 with
      | none => exact trivial
      | some used => exact current.follows_add (checkedAdd_toNat sum)
  | renewing entry ratelimiter => exact current.1.follows_renewed current.2
  | saving entry ratelimiter | finished result | overflowed => exact trivial
  | saved entry ratelimiter =>
    rw [progress]
    cases checkedSub ratelimiter.remaining 1 with
    | none | some remaining => exact trivial

namespace RatelimitCall

/-- A call writes only to the entry that it is working on. -/
theorem lookup_next (other : call.holds hasher ≠ some key) :
    (call.next hasher storage).2.map.lookup key = storage.map.lookup key := by
  cases call with
  | clock => rfl
  | «from» request progress =>
    cases progress with
    | saving entry ratelimiter =>
      refine HashMap.lookup_put_ne _ ?_ entry
      rintro rfl
      exact other rfl
    | _ => rfl

theorem next_current (current : call.Current hasher storage) :
    (call.next hasher storage).1.Current hasher (call.next hasher storage).2 := by
  cases call with
  | clock => exact trivial
  | «from» request progress => exact request.progress_current current

/-- What a call has read stays current as long as nobody writes to the entry. -/
theorem Current.mono (current : call.Current hasher storage) (passes : storage.now ≤ storage'.now)
    (same : ∀ key, call.holds hasher = some key → storage'.map.lookup key = storage.map.lookup key)
    : call.Current hasher storage' := by
  cases call with
  | clock => exact trivial
  | «from» request progress =>
    have lookup : progress.holding = true → storage'.map.lookup (request.key hasher) =
        storage.map.lookup (request.key hasher) := by
      intro holding
      exact same _ (if_pos holding)
    cases progress with
    | looking | saved _ _ | finished _ | overflowed => exact trivial
    | renewing entry ratelimiter =>
      refine ⟨?_, Nat.lt_of_lt_of_le current.2 passes⟩
      rw [lookup rfl]
      exact current.1
    | _ =>
      dsimp only [RatelimitCall.Current]
      rw [lookup rfl]
      exact current

/-- A call starts to work on an entry by looking it up. -/
theorem of_holds_next (holds : (call.next hasher storage).1.holds hasher = some key) :
    call.looksUp hasher = some key ∨ call.holds hasher = some key := by
  cases call with
  | clock => cases holds
  | «from» request progress =>
    have own : request.key hasher = key := by
      rw [RatelimitCall.next, RatelimitCall.holds] at holds
      split at holds
      · exact Option.some.inj holds
      · cases holds
    subst own
    cases progress with
    | looking => exact .inl rfl
    | saved entry ratelimiter =>
      rw [RatelimitCall.next, progress] at holds
      cases computed : checkedSub ratelimiter.remaining 1 <;> simp [computed, RatelimitCall.holds,
        RatelimitProgress.holding] at holds
    | saving _ _ | finished _ | overflowed => cases holds
    | _ => exact .inr rfl

end RatelimitCall

end Current

/-! ## Whole runs -/

variable {limits : UInt64 → UInt32}

namespace RatelimitPool

variable {ι : Type} [DecidableEq ι]
variable {start pool : RatelimitPool ι} {i : ι}

abbrev advance (hasher : List String → UInt64) (pool : RatelimitPool ι) (i : ι) : RatelimitPool ι :=
  pool.step (RatelimitCall.next hasher) i

/-- At most one call works on an entry, and with what is stored. -/
structure Exclusive (hasher : List String → UInt64) (pool : RatelimitPool ι) : Prop where
  unique : ∀ key i j, (pool.calls i).holds hasher = some key →
    (pool.calls j).holds hasher = some key → i = j
  current : ∀ i, (pool.calls i).Current hasher pool.store

theorem exclusive_step (exclusive : pool.Exclusive hasher) (alone : LooksUpAlone hasher pool i) :
    Exclusive hasher (pool.advance hasher i) where
  unique key := by
    refine unique_step (P := fun _ (call : RatelimitCall) => call.holds hasher = some key)
      (exclusive.unique key) ?_
    intro gets j other held
    obtain looks | holds := of_holds_next gets
    · obtain none | apart := alone j other
      · rw [looks] at none
        cases none
      · exact apart (held.trans looks.symm)
    · exact other (exclusive.unique key j i held holds)
  current := by
    refine forall_step (P := fun _ (call : RatelimitCall) => call.Current hasher _)
      (next_current (exclusive.current i)) ?_
    intro j other
    refine (exclusive.current j).mono now_le_next ?_
    intro key held
    refine lookup_next fun holds => other ?_
    exact exclusive.unique key j i held holds

omit [DecidableEq ι] in
theorem Begun.exclusive (begun : start.Begun hasher limits) : start.Exclusive hasher := by
  have first : ∀ i, (start.calls i).holds hasher = none ∧
      (start.calls i).Current hasher start.store := by
    intro i
    have idle := begun.calls i
    cases call : start.calls i with
    | clock => exact ⟨rfl, trivial⟩
    | «from» request progress =>
      rw [call] at idle
      cases progress with
      | looking => exact ⟨rfl, trivial⟩
      | _ => cases idle
  refine ⟨fun key i j held => ?_, fun i => (first i).2⟩
  rw [(first i).1] at held
  cases held

end RatelimitPool

section Counting

variable {storage : RatelimitStorage}

theorem RatelimitStorage.usedOf_eq (stored : storage.map.lookup key = some entry) :
    storage.usedOf key = entry.used.toNat := by
  rw [usedOf, stored]
  rfl

/-- An entry that follows the stored one counts one unit more, unless it is
reset. -/
theorem Entry.Follows.used (follows : entry.Follows (storage.map.lookup key))
    (same : some entry.reset = storage.resetOf key) :
    entry.used.toNat = storage.usedOf key + 1 := by
  obtain ⟨old, stored, _, counted⟩ | ⟨apart, _⟩ := follows
  · rw [counted, usedOf_eq stored]
  · exact absurd same.symm apart

theorem Entry.Follows.positive (follows : entry.Follows stored) : 0 < entry.used.toNat := by
  obtain ⟨_, _, _, counted⟩ | ⟨_, first⟩ := follows <;> omega

/-- Only the insertion of an entry makes a call accepted. -/
theorem RatelimitRequest.accepted_progress (request : RatelimitRequest)
    (other : ∀ entry guard, progress ≠ .saving entry guard)
    (accepted : (request.progress key storage progress).accepted) : progress.accepted := by
  cases progress with
  | saving entry guard => exact absurd rfl (other entry guard)
  | saved _ _ => rfl
  | finished result => exact accepted
  | missing | renewing _ _ | overflowed => cases accepted
  | looking | found entry =>
    rw [progress] at accepted
    split at accepted <;> cases accepted
  | measured entry remaining =>
    dsimp only [progress] at accepted
    split at accepted <;> cases accepted
  | deducting entry guard =>
    rw [progress] at accepted
    split at accepted
    · cases accepted
    · split at accepted <;> cases accepted

/-- What a step does to a key: nothing, or it inserts an entry that follows the
stored one. -/
theorem RatelimitCall.next_key (current : call.Current hasher storage) (key : UInt64) :
    (call.next hasher storage).2.map.lookup key = storage.map.lookup key ∧
        ((call.next hasher storage).1.accepted hasher key → call.accepted hasher key) ∨
      ∃ entry : Entry, entry.Follows (storage.map.lookup key) ∧
        (call.next hasher storage).2.map.lookup key = some entry := by
  cases call with
  | clock => exact .inl ⟨rfl, id⟩
  | «from» request progress =>
    by_cases own : request.key hasher = key
    · subst own
      have keeps : (∀ entry guard, progress ≠ .saving entry guard) →
          (RatelimitCall.next hasher (.from request progress) storage).1.accepted hasher
            (request.key hasher) = true →
          (RatelimitCall.from request progress).accepted hasher (request.key hasher) = true := by
        intro other accepted
        rw [RatelimitCall.accepted, Bool.and_eq_true_iff]
        rw [RatelimitCall.next, RatelimitCall.accepted, Bool.and_eq_true_iff] at accepted
        exact ⟨request.accepted_progress other accepted.1, accepted.2⟩
      cases progress with
      | saving entry guard => exact .inr ⟨entry, current, HashMap.lookup_put ..⟩
      | _ => exact .inl ⟨rfl, keeps fun _ _ => RatelimitProgress.noConfusion⟩
    · refine .inl ⟨lookup_next ?_, ?_⟩
      · rw [RatelimitCall.holds]
        split
        · exact fun same => own (Option.some.inj same)
        · nofun
      · simp [RatelimitCall.next, RatelimitCall.accepted, own]

end Counting

namespace RatelimitPool

variable {ι : Type} [DecidableEq ι]
variable {start pool : RatelimitPool ι} {i : ι}

section

variable (exclusive : pool.Exclusive hasher)

include exclusive

theorem step_key (i : ι) (key : UInt64) :
    (pool.advance hasher i).store.map.lookup key =
          pool.store.map.lookup key ∧
        (((pool.advance hasher i).calls i).accepted hasher key →
          (pool.calls i).accepted hasher key) ∨
      ∃ entry : Entry, entry.Follows (pool.store.map.lookup key) ∧
        (pool.advance hasher i).store.map.lookup key = some entry := by
  rw [step_self]
  exact next_key (exclusive.current i) key

/-- Without a reset the units of the key do not fall, and a call that is
accepted adds one. -/
theorem usedOf_step (unreset : Unreset hasher key pool i) :
    pool.store.usedOf key ≤ (pool.advance hasher i).store.usedOf key ∧
      (¬ (pool.calls i).accepted hasher key →
        ((pool.advance hasher i).calls i).accepted hasher key →
          pool.store.usedOf key < (pool.advance hasher i).store.usedOf key) := by
  obtain ⟨same, keeps⟩ | ⟨entry, follows, stored⟩ := step_key exclusive i key
  · refine ⟨Nat.le_of_eq ?_, fun before after => absurd (keeps after) before⟩
    rw [usedOf, usedOf, same]
  · rw [Unreset, resetOf, stored] at unreset
    have counted := follows.used unreset
    rw [usedOf_eq stored, counted]
    exact ⟨Nat.le_succ _, fun _ _ => Nat.lt_succ_self _⟩

/-- With or without a reset, a call that is accepted has used a unit. -/
theorem usedOf_step_pos (before : ¬ (pool.calls i).accepted hasher key)
    (after : ((pool.advance hasher i).calls i).accepted hasher key) :
    0 < (pool.advance hasher i).store.usedOf key := by
  obtain ⟨_, keeps⟩ | ⟨entry, follows, stored⟩ := step_key exclusive i key
  · exact absurd (keeps after) before
  · rw [usedOf_eq stored]
    exact follows.positive

omit exclusive in
omit [DecidableEq ι] in
theorem Bounded.usedOf_le (bounded : pool.Bounded hasher limits) (key : UInt64) :
    pool.store.usedOf key ≤ (limits key).toNat := by
  cases stored : pool.store.map.lookup key with
  | none => simp [usedOf, stored]
  | some entry =>
    rw [usedOf_eq stored]
    exact UInt32.le_iff_toNat_le.mp (bounded.stored key entry stored)

variable {calls : Finset ι} {schedule : List ι}

omit exclusive in
/-- Along steps that do not reset the entry, the units of the key count the
accepted calls. -/
theorem Exclusive.card_add_le (exclusive : start.Exclusive hasher)
    (alone : Pool.Admits (RatelimitCall.next hasher) (LooksUpAlone hasher) start schedule)
    (unreset : Pool.Admits (RatelimitCall.next hasher) (Unreset hasher key) start schedule)
    (accepted : ∀ i ∈ calls, ¬ (start.calls i).accepted hasher key ∧
      ((start.run (RatelimitCall.next hasher) schedule).calls i).accepted hasher key) :
    calls.card + start.store.usedOf key ≤
      (start.run (RatelimitCall.next hasher) schedule).store.usedOf key := by
  have kept : ∀ (pool : RatelimitPool ι) i, pool.Exclusive hasher →
      LooksUpAlone hasher pool i ∧ Unreset hasher key pool i →
        Exclusive hasher (pool.advance hasher i) :=
    fun _ _ exclusive taken => exclusive_step exclusive taken.1
  have reached := (reaches_run (alone.and unreset)).restrict exclusive kept
  exact reached.card_add_le (fun call => call.accepted hasher key = true)
    (usedOf key) (fun _ _ taken => (usedOf_step taken.1 taken.2.2).1)
    (fun _ _ taken => (usedOf_step taken.1 taken.2.2).2) accepted

/-- A first step that may reset the entry counts as well. -/
theorem Exclusive.card_le_usedOf
    (alone : Pool.Admits (RatelimitCall.next hasher) (LooksUpAlone hasher) pool (i :: schedule))
    (unreset : Pool.Admits (RatelimitCall.next hasher) (Unreset hasher key)
      (pool.advance hasher i) schedule)
    (accepted : ∀ j ∈ calls, ¬ (pool.calls j).accepted hasher key ∧
      ((pool.run (RatelimitCall.next hasher) (i :: schedule)).calls j).accepted hasher key) :
    calls.card ≤ (pool.run (RatelimitCall.next hasher) (i :: schedule)).store.usedOf key := by
  have later := exclusive_step exclusive alone.1
  have others : ∀ j ∈ calls, j ≠ i →
      ¬ ((pool.advance hasher i).calls j).accepted hasher key = true := by
    intro j member other
    rw [Pool.step_ne other]
    exact (accepted j member).1
  by_cases gained : i ∈ calls ∧ ((pool.advance hasher i).calls i).accepted hasher key = true
  · have used := usedOf_step_pos exclusive (accepted i gained.1).1 gained.2
    have fresh : ∀ j ∈ calls.erase i,
        ¬ ((pool.advance hasher i).calls j).accepted hasher key = true ∧
          ((pool.run (RatelimitCall.next hasher) (i :: schedule)).calls j).accepted hasher key =
            true := by
      intro j member
      obtain ⟨other, inside⟩ := Finset.mem_erase.mp member
      exact ⟨others j inside other, (accepted j inside).2⟩
    have counted := later.card_add_le alone.2 unreset fresh
    have card := Finset.card_erase_add_one gained.1
    change calls.card ≤ ((pool.advance hasher i).run _ schedule).store.usedOf key
    omega
  · refine (Nat.le_add_right _ _).trans (later.card_add_le alone.2 unreset ?_)
    intro j member
    refine ⟨?_, (accepted j member).2⟩
    by_cases self : j = i
    · subst self
      exact fun early => gained ⟨member, early⟩
    · exact others j member self

end

end RatelimitPool

open RatelimitPool

/-- If calls look up an entry only while no other call works on it, then at most
as many calls with one key as its limit allows are accepted from one reset of
its entry, the step `first`, up to the next one. -/
theorem ratelimiter_accepts_at_most_limit {ι : Type} [DecidableEq ι]
    {hasher : List String → UInt64} {limits : UInt64 → UInt32} {start : RatelimitPool ι}
    {key : UInt64} {before window : List ι} {first : ι} (begun : start.Begun hasher limits)
    (alone : Pool.Admits (RatelimitCall.next hasher) (LooksUpAlone hasher) start
      (before ++ first :: window))
    (unreset : Pool.Admits (RatelimitCall.next hasher) (Unreset hasher key)
      (start.run (RatelimitCall.next hasher) (before ++ [first])) window)
    {calls : Finset ι}
    (accepted : ∀ i ∈ calls,
      ¬ ((start.run (RatelimitCall.next hasher) before).calls i).accepted hasher key ∧
        ((start.run (RatelimitCall.next hasher) (before ++ first :: window)).calls i).accepted
          hasher key) :
    calls.card ≤ (limits key).toNat := by
  obtain ⟨aloneBefore, aloneWindow⟩ := admits_append.mp alone
  have exclusive : Exclusive hasher (start.run (RatelimitCall.next hasher) before) :=
    (reaches_run aloneBefore).invariant begun.exclusive fun _ _ => exclusive_step
  have bounded := (begun.reaches_bounded (reaches_run alone)).usedOf_le key
  rw [run_concat] at unreset
  rw [run_append] at accepted bounded
  exact (exclusive.card_le_usedOf aloneWindow unreset accepted).trans bounded

theorem ratelimiter_accepts_both :
    (∀ i, (((RatelimitPool.sample Bool 2).run (RatelimitCall.next fun _ => 0)
      ([true, true, true, true, true] ++ true ::
        [false, true, false, false, false, false, false])).calls i).accepted (fun _ => 0) 0) ∧
      (Finset.univ : Finset Bool).card ≤ (2 : UInt32).toNat := by
  have accepted : ∀ i ∈ (Finset.univ : Finset Bool),
      ¬ (((sample Bool 2).run (RatelimitCall.next fun _ => 0)
          [true, true, true, true, true]).calls i).accepted (fun _ => 0) 0 = true ∧
        (((sample Bool 2).run (RatelimitCall.next fun _ => 0)
          ([true, true, true, true, true] ++ true ::
            [false, true, false, false, false, false, false])).calls i).accepted (fun _ => 0) 0 =
              true := by
    decide +kernel
  refine ⟨fun i => (accepted i (Finset.mem_univ i)).2, ?_⟩
  exact ratelimiter_accepts_at_most_limit (sample_begun Bool 2) (by decide +kernel)
    (by decide +kernel) accepted

/-- Three calls with a limit of two. The first one creates the entry. The other
two look it up before either of them has saved it, both count the second unit,
and all three are accepted, though the entry is not reset in between. -/
theorem ratelimiter_accepts_beyond_limit :
    ∃ pool after : RatelimitPool (Fin 3),
      pool = (RatelimitPool.sample (Fin 3) 2).run (RatelimitCall.next fun _ => 0)
        [0, 0, 0, 0, 0, 0, 0] ∧
      after = pool.run (RatelimitCall.next fun _ => 0) [1, 2, 1, 1, 1, 1, 1, 2, 2, 2, 2, 2] ∧
      Pool.Admits (RatelimitCall.next fun _ => 0) (Unreset (fun _ => 0) 0) pool
        [1, 2, 1, 1, 1, 1, 1, 2, 2, 2, 2, 2] ∧
      (∀ i, ∃ request guard, after.calls i = .from request (.finished (.ok guard)) ∧
        request.limit = 2) ∧
      after.store.map.lookup 0 = some { used := 2, reset := 10000 } := by
  refine ⟨_, _, rfl, rfl, by decide +kernel, ?_, by decide +kernel⟩
  intro i
  fin_cases i <;> exact ⟨_, _, rfl, rfl⟩

end Company
