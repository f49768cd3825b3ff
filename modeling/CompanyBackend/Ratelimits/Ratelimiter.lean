import CompanyBackend.Library.HashMap
import CompanyBackend.Library.Interleaving
import Mathlib.Data.Fintype.Basic

/-!
# The rate limiter

`Ratelimiter::from` looks up the entry of a bucket in a concurrent map, decides from it, and
writes it back. The lookup and the insertion are atomic, the call is not, and it reads the
clock up to five times on its way. Every access to the map and every reading of the clock is a
step of its own here, so that any number of calls and any time may come in between.

Times are whole milliseconds since the epoch. The clock is driven by a call of its own that
may take its step at any time, so a run goes through every monotone clock. The arithmetic on
counters is checked: a result that does not fit 32 bits ends the call as `overflowed`.
-/

namespace Company

def checkedSub (a b : UInt32) : Option UInt32 := if b ≤ a then some (a - b) else none

def checkedAdd (a b : UInt32) : Option UInt32 :=
  if a.toNat + b.toNat < UInt32.size then some (a + b) else none

theorem checkedSub_eq_some {a b : UInt32} (fits : b ≤ a) :
    ∃ c, checkedSub a b = some c ∧ c.toNat = a.toNat - b.toNat :=
  ⟨a - b, if_pos fits, UInt32.toNat_sub_of_le a b fits⟩

theorem checkedAdd_eq_some {a b : UInt32} (fits : a.toNat + b.toNat < UInt32.size) :
    ∃ c, checkedAdd a b = some c ∧ c.toNat = a.toNat + b.toNat :=
  ⟨a + b, if_pos fits, (UInt32.toNat_add a b).trans (Nat.mod_eq_of_lt fits)⟩

/-- The state of a bucket: the units that are used, and when they are given
back. -/
structure Entry where
  used : UInt32
  reset : Nat
deriving DecidableEq

namespace Entry

def lifetime : Nat := 10000

def fresh (now : Nat) : Entry where
  used := 0
  reset := now + lifetime

def getRemaining (now : Nat) (limit : UInt32) (entry : Entry) : Option UInt32 :=
  if now > entry.reset then some limit else checkedSub limit entry.used

def leftUntilReset (now : Nat) (entry : Entry) : Nat := entry.reset - now

/-- A bucket that has expired starts again with the first unit. -/
def renewed (now : Nat) : Entry where
  used := 1
  reset := now + lifetime

end Entry

/-- The guard that is returned, with an entry's remaining units or without
any. -/
structure Ratelimiter where
  key : UInt64
  limit : UInt32
  remaining : UInt32
  reset : Nat
deriving DecidableEq

structure RatelimitStorage where
  map : HashMap UInt64 Entry := ∅
  now : Nat := 0

structure RatelimitRequest where
  identifier : String
  limit : UInt32
  bucket : String
  resource : Option String
deriving DecidableEq

/-- The key of a request, by a hasher of the texts that are written to it. -/
def RatelimitRequest.key (hasher : List String → UInt64) (request : RatelimitRequest) : UInt64 :=
  hasher ([request.identifier, request.bucket] ++ request.resource.toList)

inductive RatelimitProgress where
  | looking
  /-- There is no entry; the clock is to be read for a new one. -/
  | missing
  | found (entry : Entry)
  | measured (entry : Entry) (remaining : UInt32)
  | deducting (entry : Entry) (ratelimiter : Ratelimiter)
  /-- The entry has expired; the clock is to be read again. -/
  | renewing (entry : Entry) (ratelimiter : Ratelimiter)
  | saving (entry : Entry) (ratelimiter : Ratelimiter)
  | saved (entry : Entry) (ratelimiter : Ratelimiter)
  | finished (result : Except Ratelimiter Ratelimiter)
  | overflowed
deriving DecidableEq

namespace RatelimitRequest

def progress (request : RatelimitRequest) (key : UInt64) (storage : RatelimitStorage) :
    RatelimitProgress → RatelimitProgress
  | .looking =>
    match storage.map.lookup key with
    | some entry => .found entry
    | none => .missing
  | .missing => .found (.fresh storage.now)
  | .found entry =>
    match entry.getRemaining storage.now request.limit with
    | some remaining => .measured entry remaining
    | none => .overflowed
  | .measured entry remaining =>
    let ratelimiter : Ratelimiter :=
      { key, limit := request.limit, remaining, reset := entry.leftUntilReset storage.now }
    if remaining = 0 then .finished (.error ratelimiter) else .deducting entry ratelimiter
  | .deducting entry ratelimiter =>
    if storage.now > entry.reset then .renewing entry ratelimiter
    else
      match checkedAdd entry.used 1 with
      | some used => .saving { entry with used } ratelimiter
      | none => .overflowed
  | .renewing _ ratelimiter => .saving (.renewed storage.now) ratelimiter
  | .saving entry ratelimiter => .saved entry ratelimiter
  | .saved entry ratelimiter =>
    match checkedSub ratelimiter.remaining 1 with
    | some remaining =>
      .finished (.ok { ratelimiter with remaining, reset := entry.leftUntilReset storage.now })
    | none => .overflowed
  | .finished result => .finished result
  | .overflowed => .overflowed

/-- What the next step of a call writes. -/
def write (key : UInt64) (storage : RatelimitStorage) : RatelimitProgress → RatelimitStorage
  | .saving entry _ => { storage with map := storage.map.put key entry }
  | _ => storage

end RatelimitRequest

/-- A call of `Ratelimiter::from`, or the passing of time. -/
inductive RatelimitCall where
  | «from» (request : RatelimitRequest) (progress : RatelimitProgress)
  | clock
deriving DecidableEq

/-- One step: a call goes on, or a millisecond passes. -/
def RatelimitCall.next (hasher : List String → UInt64) :
    RatelimitCall → RatelimitStorage → RatelimitCall × RatelimitStorage
  | .from request progress, storage =>
    (.from request (request.progress (request.key hasher) storage progress),
      RatelimitRequest.write (request.key hasher) storage progress)
  | .clock, storage => (.clock, { storage with now := storage.now + 1 })

abbrev RatelimitPool (ι : Type) := Pool ι RatelimitCall RatelimitStorage

namespace RatelimitCall

def begun : RatelimitCall → Bool
  | .from _ .looking | .clock => true
  | .from _ _ => false

def Limited (hasher : List String → UInt64) (limits : UInt64 → UInt32) : RatelimitCall → Prop
  | .from request _ => request.limit = limits (request.key hasher)
  | .clock => True

end RatelimitCall

open RatelimitCall

/-- Calls that begin on an empty map, at any time, and use each key with one
limit. -/
structure RatelimitPool.Begun {ι : Type} (hasher : List String → UInt64)
    (limits : UInt64 → UInt32) (pool : RatelimitPool ι) : Prop where
  map : pool.store.map = ∅
  calls : ∀ i, (pool.calls i).begun
  limited : ∀ i, (pool.calls i).Limited hasher limits

/-- One more unit can be taken: the entry has one left, or it has expired. -/
structure Entry.Deductible (limit : UInt32) (now : Nat) (entry : Entry) : Prop where
  positive : 0 < limit.toNat
  left : entry.used.toNat < limit.toNat ∨ entry.reset < now

/-- What a call has read is within the limit, and it goes on only if a unit is
left. -/
def RatelimitProgress.Bounded (limit : UInt32) (now : Nat) : RatelimitProgress → Prop
  | .looking | .missing | .finished _ => True
  | .found entry => entry.used ≤ limit
  | .measured entry remaining => remaining ≠ 0 → entry.Deductible limit now
  | .deducting entry ratelimiter => ratelimiter.remaining ≠ 0 ∧ entry.Deductible limit now
  | .renewing _ ratelimiter => ratelimiter.remaining ≠ 0 ∧ 0 < limit.toNat
  | .saving entry ratelimiter => ratelimiter.remaining ≠ 0 ∧ entry.used ≤ limit
  | .saved _ ratelimiter => ratelimiter.remaining ≠ 0
  | .overflowed => False

def RatelimitCall.Bounded (hasher : List String → UInt64) (limits : UInt64 → UInt32) (now : Nat) :
    RatelimitCall → Prop
  | .from request progress => progress.Bounded (limits (request.key hasher)) now
  | .clock => True

def RatelimitStorage.Bounded (limits : UInt64 → UInt32) (storage : RatelimitStorage) : Prop :=
  ∀ key entry, storage.map.lookup key = some entry → entry.used ≤ limits key

variable {progress : RatelimitProgress}

section Bounds

variable {limit : UInt32} {now later : Nat} {entry : Entry}

theorem Entry.Deductible.mono (deductible : entry.Deductible limit now) (passes : now ≤ later) :
    entry.Deductible limit later where
  positive := deductible.positive
  left := deductible.left.imp_right fun expired => Nat.lt_of_lt_of_le expired passes

/-- The bounds do not get worse as time passes. -/
theorem RatelimitProgress.Bounded.mono (bounded : progress.Bounded limit now) (passes : now ≤ later)
    : progress.Bounded limit later := by
  cases progress with
  | measured entry remaining => exact fun left => (bounded left).mono passes
  | deducting entry ratelimiter => exact ⟨bounded.1, bounded.2.mono passes⟩
  | _ => exact bounded

/-- The units that remain fit, and if there are any, one can be taken. -/
theorem Entry.getRemaining_eq_some (within : entry.used ≤ limit) :
    ∃ remaining, entry.getRemaining now limit = some remaining ∧
      (remaining ≠ 0 → entry.Deductible limit now) := by
  have used : entry.used.toNat ≤ limit.toNat := UInt32.le_iff_toNat_le.mp within
  have positive : ∀ n : UInt32, n ≠ 0 → 0 < n.toNat := by
    intro n nonzero
    refine Nat.pos_of_ne_zero fun zero => nonzero ?_
    exact UInt32.toNat_inj.mp zero
  by_cases expired : now > entry.reset
  · exact ⟨limit, if_pos expired, fun left => ⟨positive limit left, .inr expired⟩⟩
  · obtain ⟨remaining, difference, value⟩ := checkedSub_eq_some within
    refine ⟨remaining, (if_neg expired).trans difference, fun left => ?_⟩
    have := positive remaining left
    exact ⟨by omega, .inl (by omega)⟩

/-- A unit that can be taken is counted within the limit. -/
theorem Entry.Deductible.checkedAdd (deductible : entry.Deductible limit now)
    (current : ¬ now > entry.reset) :
    ∃ used, checkedAdd entry.used 1 = some used ∧ used.toNat = entry.used.toNat + 1 ∧
      used ≤ limit := by
  have left : entry.used.toNat < limit.toNat := deductible.left.resolve_right current
  have fits : entry.used.toNat + (1 : UInt32).toNat < UInt32.size := by
    have := limit.toNat_lt_size
    have one : (1 : UInt32).toNat = 1 := rfl
    omega
  obtain ⟨used, sum, value⟩ := checkedAdd_eq_some fits
  exact ⟨used, sum, value, UInt32.le_iff_toNat_le.mpr (value ▸ left)⟩

end Bounds

variable {hasher : List String → UInt64} {limits : UInt64 → UInt32}

section Steps

variable {storage : RatelimitStorage}

open RatelimitRequest

theorem RatelimitRequest.progress_bounded {request : RatelimitRequest} {key : UInt64}
    (limited : request.limit = limits key) (stored : storage.Bounded limits)
    (bounded : progress.Bounded (limits key) storage.now) :
    (request.progress key storage progress).Bounded (limits key) storage.now := by
  cases progress with
  | looking =>
    rw [progress]
    cases found : storage.map.lookup key with
    | none => exact trivial
    | some entry => exact stored key entry found
  | missing => exact UInt32.le_iff_toNat_le.mpr (Nat.zero_le _)
  | found entry =>
    obtain ⟨remaining, computed, deductible⟩ := Entry.getRemaining_eq_some bounded
    rw [progress, limited, computed]
    exact deductible
  | measured entry remaining =>
    by_cases none : remaining = 0
    · simp only [progress, none, if_true, RatelimitProgress.Bounded]
    · simp only [progress, none, if_false]
      exact ⟨none, bounded none⟩
  | deducting entry ratelimiter =>
    by_cases expired : storage.now > entry.reset
    · rw [progress, if_pos expired]
      exact ⟨bounded.1, bounded.2.positive⟩
    · obtain ⟨used, sum, _, within⟩ := bounded.2.checkedAdd expired
      rw [progress, if_neg expired, sum]
      exact ⟨bounded.1, within⟩
  | renewing entry ratelimiter =>
    exact ⟨bounded.1, UInt32.le_iff_toNat_le.mpr bounded.2⟩
  | saving entry ratelimiter => exact bounded.1
  | saved entry ratelimiter =>
    have positive : (1 : UInt32) ≤ ratelimiter.remaining := by
      refine UInt32.le_iff_toNat_le.mpr (Nat.pos_of_ne_zero fun zero => bounded ?_)
      exact UInt32.toNat_inj.mp zero
    obtain ⟨remaining, difference, _⟩ := checkedSub_eq_some positive
    rw [progress, difference]
    exact trivial
  | finished result => exact trivial
  | overflowed => exact bounded

namespace RatelimitCall

variable {call : RatelimitCall}

theorem next_limited (limited : call.Limited hasher limits) :
    (call.next hasher storage).1.Limited hasher limits := by
  cases call <;> exact limited

theorem now_le_next : storage.now ≤ (call.next hasher storage).2.now := by
  cases call with
  | clock => exact Nat.le_succ _
  | «from» request progress => cases progress <;> exact Nat.le_refl _

theorem Bounded.mono {now later : Nat} (bounded : call.Bounded hasher limits now)
    (passes : now ≤ later) : call.Bounded hasher limits later := by
  cases call with
  | clock => exact trivial
  | «from» request progress => exact RatelimitProgress.Bounded.mono bounded passes

theorem next_bounded (limited : call.Limited hasher limits) (stored : storage.Bounded limits)
    (bounded : call.Bounded hasher limits storage.now) :
    (call.next hasher storage).1.Bounded hasher limits storage.now := by
  cases call with
  | clock => exact trivial
  | «from» request progress => exact progress_bounded limited stored bounded

/-- Only one step of a call writes to the map, and it writes what the call has
counted. -/
theorem next_stored (stored : storage.Bounded limits)
    (bounded : call.Bounded hasher limits storage.now) :
    (call.next hasher storage).2.Bounded limits := by
  cases call with
  | clock => exact stored
  | «from» request progress =>
    cases progress with
    | saving entry ratelimiter => exact HashMap.forall_put stored bounded.2
    | _ => exact stored

end RatelimitCall

end Steps

namespace RatelimitPool

variable {ι : Type} [DecidableEq ι]
variable {condition : RatelimitPool ι → ι → Prop} {start pool : RatelimitPool ι} {i : ι}

/-- The entries in the map and in the calls are within their limits. -/
structure Bounded (hasher : List String → UInt64) (limits : UInt64 → UInt32)
    (pool : RatelimitPool ι) : Prop where
  limited : ∀ i, (pool.calls i).Limited hasher limits
  stored : pool.store.Bounded limits
  calls : ∀ i, (pool.calls i).Bounded hasher limits pool.store.now

theorem bounded_step (bounded : pool.Bounded hasher limits) :
    Bounded hasher limits (pool.step (RatelimitCall.next hasher) i) where
  limited :=
    Pool.forall_step (P := fun _ call => RatelimitCall.Limited hasher limits call)
      (next_limited (bounded.limited i)) fun j _ => bounded.limited j
  stored := next_stored bounded.stored (bounded.calls i)
  calls := by
    have passes : pool.store.now ≤ (pool.step (RatelimitCall.next hasher) i).store.now :=
      now_le_next
    refine Pool.forall_step (P := fun _ (call : RatelimitCall) => call.Bounded hasher limits _)
      ?_ fun j _ => (bounded.calls j).mono passes
    exact (next_bounded (bounded.limited i) bounded.stored (bounded.calls i)).mono passes

omit [DecidableEq ι] in
theorem Begun.bounded (begun : start.Begun hasher limits) : start.Bounded hasher limits where
  limited := begun.limited
  stored key entry found := by
    rw [begun.map] at found
    cases found
  calls i := by
    have first := begun.calls i
    cases call : start.calls i with
    | clock => exact trivial
    | «from» request progress =>
      rw [call] at first
      cases progress with
      | looking => exact trivial
      | _ => cases first

/-- In every run, whatever the condition on its steps. -/
theorem Begun.reaches_bounded (begun : start.Begun hasher limits)
    (reached : Pool.Reaches (RatelimitCall.next hasher) condition start pool) :
    pool.Bounded hasher limits :=
  reached.invariant begun.bounded fun _ _ bounded _ => bounded_step bounded

end RatelimitPool

/-- In every interleaving every stored entry is within the limit of its key, and
no counter of a call leaves its range. Nothing is assumed about the order of the
steps or about the clock. -/
theorem ratelimiter_never_underflows {ι : Type} [DecidableEq ι] {hasher : List String → UInt64}
    {limits : UInt64 → UInt32} {start pool : RatelimitPool ι} (begun : start.Begun hasher limits)
    (reached : Pool.Reaches (RatelimitCall.next hasher) (fun _ _ => True) start pool) :
    (∀ key entry, pool.store.map.lookup key = some entry → entry.used ≤ limits key) ∧
      ∀ i request, pool.calls i ≠ .from request .overflowed := by
  have bounded := begun.reaches_bounded reached
  refine ⟨bounded.stored, ?_⟩
  intro i request call
  have own := bounded.calls i
  rw [call] at own
  exact own

def RatelimitPool.sample (ι : Type) (limit : UInt32) : RatelimitPool ι where
  calls _ := .from { identifier := "01USER", limit, bucket := "users", resource := none } .looking
  store := {}

theorem RatelimitPool.sample_begun (ι : Type) (limit : UInt32) :
    (sample ι limit).Begun (fun _ => 0) fun _ => limit where
  map := rfl
  calls _ := rfl
  limited _ := rfl

/-- Two calls work on a missing entry at the same time, and both save one used
unit. -/
theorem ratelimiter_never_underflows_together :
    ∃ pool, pool = (RatelimitPool.sample Bool 1).run (RatelimitCall.next fun _ => 0)
        [true, false, true, false, true, true, true, true, false, false, false, false] ∧
      pool.store.map.lookup 0 = some { used := 1, reset := 10000 } ∧
      (∀ key entry, pool.store.map.lookup key = some entry → entry.used ≤ 1) ∧
      ∀ i request, pool.calls i ≠ .from request .overflowed :=
  ⟨_, rfl, by decide +kernel, ratelimiter_never_underflows (RatelimitPool.sample_begun Bool 1)
    (Pool.reaches_run (Pool.admits_any _))⟩

end Company
