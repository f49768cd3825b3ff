import CompanyBackend.Broker.Delivery
import CompanyBackend.Library.Tickets

/-!
# Rate limits

A call that queues a message counts itself against two counters and goes on only if both
counts are within their limits. The counts are tickets: the calls that count themselves
while a counter lives see distinct values, also those that are refused for another reason.
So no more calls get past the check than the limit allows, for each lifetime of the counter.

A call belongs to the lifetime in which it has counted itself. Its check may come later,
even when the counter has expired in the meantime.
-/

namespace Company

open List

/-- The counts of the limits that a call has counted itself against. -/
def EnqueueProgress.counts : EnqueueProgress → List Nat
  | .counting counts | .writing counts _ | .finished counts _ => counts

namespace BrokerCall

def count (n : Nat) : BrokerCall → Option Nat
  | .enqueue _ progress => progress.counts[n]?
  | _ => none

def counter (n : Nat) : BrokerCall → Option String
  | .enqueue call _ => call.limits[n]?.map RateLimit.key
  | _ => none

/-- The next command makes the key disappear. -/
def removes (key : String) : BrokerCall → Bool
  | .expiry expired => expired == key
  | .drain call (.clearing _) => call.queue == key
  | _ => false

end BrokerCall

/-- The counter does not disappear. -/
def Retains (key : String) {ι : Type} (pool : BrokerPool ι) (i : ι) : Prop :=
  (pool.calls i).removes key = false

instance decidableRetains (key : String) {ι : Type} (pool : BrokerPool ι) (i : ι) :
    Decidable (Retains key pool i) :=
  inferInstanceAs (Decidable (_ = _))

/-- The counter as a dispenser of counts against the `n`-th limit. -/
def countsOf (n : Nat) (key : String) : Dispenser BrokerCall Redis Nat where
  counter redis := redis.counters key
  ticket call := if call.counter n = some key then call.count n else none

variable {fromStr : String → Option Json} {redis : Redis} {counts : List Nat}

section Counts

variable {key : String} {n : Nat}

theorem Redis.counters_incr (other : String) :
    (redis.incr other).2.counters key = redis.counters key + if other = key then 1 else 0 := by
  by_cases same : other = key
  · subst same
    simp [incr]
  · simp [incr, same, Function.update_of_ne (Ne.symm same)]

variable (call : Enqueue)

theorem Enqueue.counters_write (counts : List Nat) (depth : Nat) :
    (call.write counts depth redis).counters = redis.counters := by
  obtain ⟨ttl, written⟩ := call.write_eq counts depth redis
  rw [written]
  rfl

theorem Enqueue.counts_check (counts : List Nat) (depth : Nat) :
    (call.check counts depth).counts = counts := by
  rw [Enqueue.check]
  split
  · rfl
  · split <;> rfl

variable (progress : EnqueueProgress)

/-- A call that queues a message keeps its counts and adds new ones at the
end. -/
theorem Enqueue.counts_next (redis : Redis) :
    (call.next progress redis).1.counts = progress.counts ∧
        (call.next progress redis).2.counters = redis.counters ∨
      ∃ limit, progress = .counting progress.counts ∧
        call.limits[progress.counts.length]? = some limit ∧
        call.next progress redis = (.counting (progress.counts ++ [redis.counters limit.key + 1]),
          (redis.incr limit.key).2) := by
  cases progress with
  | counting counts =>
    rw [Enqueue.next]
    cases found : call.limits[counts.length]? with
    | some limit => exact .inr ⟨limit, rfl, found, rfl⟩
    | none => exact .inl ⟨call.counts_check counts _, rfl⟩
  | writing counts depth => exact .inl ⟨rfl, call.counters_write counts depth⟩
  | finished counts result => exact .inl ⟨rfl, rfl⟩

theorem Enqueue.counts_le_next (redis : Redis) :
    progress.counts <+: (call.next progress redis).1.counts := by
  rcases call.counts_next progress redis with ⟨same, _⟩ | ⟨limit, _, _, counted⟩
  · rw [same]
  · rw [counted]
    exact prefix_append _ _

theorem BrokerCall.count_next {call : BrokerCall} {value : Nat}
    (counted : call.count n = some value) : (call.next fromStr redis).1.count n = some value := by
  cases call with
  | enqueue call progress =>
    obtain ⟨later, grown⟩ := call.counts_le_next progress redis
    have short : n < progress.counts.length := (List.getElem?_eq_some_iff.mp counted).1
    show (call.next progress redis).1.counts[n]? = some value
    rw [← grown, getElem?_append_left short]
    exact counted
  | drain call progress | expiry key => cases counted

theorem Redis.counters_del {other : String} (apart : other ≠ key) :
    (redis.del other).counters key = redis.counters key :=
  Function.update_of_ne (Ne.symm apart) ..

theorem getElem?_append_singleton_ne (other : n ≠ counts.length) (value : Nat) :
    (counts ++ [value])[n]? = counts[n]? := by
  rcases Nat.lt_or_gt_of_ne other with short | long
  · exact getElem?_append_left short
  · rw [getElem?_eq_none (by simp; omega), getElem?_eq_none (by omega)]

theorem countsOf_ticket : (countsOf n key).ticket (.enqueue call progress) =
      if call.limits[n]?.map RateLimit.key = some key then progress.counts[n]? else none :=
  rfl

theorem Enqueue.moves : (countsOf n key).Moves (.enqueue call progress) redis
      (.enqueue call (call.next progress redis).1, (call.next progress redis).2) := by
  rcases call.counts_next progress redis with ⟨same, counters⟩ | ⟨limit, _, limited, counted⟩
  · refine .keeps ?_ (Nat.le_of_eq ?_)
    · rw [countsOf_ticket, countsOf_ticket, same]
    · simp only [countsOf, counters]
  · rw [counted]
    have raised : (countsOf n key).counter (redis.incr limit.key).2 =
        redis.counters key + if limit.key = key then 1 else 0 := Redis.counters_incr limit.key
    have counts : (EnqueueProgress.counting
        (progress.counts ++ [redis.counters limit.key + 1])).counts =
          progress.counts ++ [redis.counters limit.key + 1] := rfl
    by_cases own : n = progress.counts.length ∧ limit.key = key
    · obtain ⟨rfl, rfl⟩ := own
      rw [if_pos rfl] at raised
      refine .draws ?_ ?_ ?_
      · rw [countsOf_ticket, getElem?_eq_none (Nat.le_refl _), ite_self]
      · rw [raised, countsOf_ticket, limited, counts, getElem?_concat_length]
        exact if_pos rfl
      · rw [raised]
        exact Nat.lt_succ_self _
    · refine .keeps ?_ ?_
      · rw [countsOf_ticket, countsOf_ticket, counts]
        split
        · next keyed =>
          apply getElem?_append_singleton_ne
          intro last
          rw [last, limited, Option.map_some, Option.some.injEq] at keyed
          exact own ⟨last, keyed⟩
        · rfl
      · rw [raised]
        exact Nat.le_add_right _ _

/-- While the counter lives, each count is a new value of it. -/
theorem BrokerCall.moves (call : BrokerCall) (retains : call.removes key = false) :
    (countsOf n key).Moves call redis (call.next fromStr redis) := by
  cases call with
  | enqueue call progress => exact call.moves progress
  | expiry expired =>
    refine .keeps rfl (Nat.le_of_eq ?_)
    exact (Redis.counters_del (by simpa [removes] using retains)).symm
  | drain call progress =>
    refine .keeps rfl (Nat.le_of_eq ?_)
    cases progress with
    | begun =>
      show redis.counters key = (call.next fromStr .begun redis).2.counters key
      rw [Drain.next]
      split <;> rfl
    | clearing messages =>
      exact (Redis.counters_del (by simpa [removes] using retains)).symm
    | filtering messages loop | finished messages returned => rfl

end Counts

variable {progress : EnqueueProgress}

namespace Enqueue

variable (call : Enqueue)

/-- The call has got past the check of its rate limits: it is about to write,
has written, or has found the queue full. -/
def passed : EnqueueProgress → Bool
  | .counting _ => false
  | .writing _ _ => true
  | .finished _ (.ok _) => true
  | .finished _ (.error e) => e == .failedValidation call.depthError

def Within (counts : List Nat) : Prop :=
  ∀ (n : Nat) (limit : RateLimit), call.limits[n]? = some limit →
    ∃ count ≤ limit.max, counts[n]? = some count

/-- The text for a full queue is used for nothing else. -/
structure Distinguishes : Prop where
  size : call.sizeError ≠ call.depthError
  limits : ∀ limit ∈ call.limits, limit.error ≠ call.depthError

/-- A call that has passed the check has all its counts within their limits. -/
def Checked (progress : EnqueueProgress) : Prop :=
  call.passed progress = true → call.Within progress.counts

variable {call : Enqueue}

theorem within_of_exceeded (complete : call.limits[counts.length]? = none)
    (fits : call.exceeded counts = none) : call.Within counts := by
  intro n limit limited
  have inside : n < call.limits.length := (List.getElem?_eq_some_iff.mp limited).1
  have short : n < counts.length := by
    have all := getElem?_eq_none_iff.mp complete
    omega
  refine ⟨counts[n], ?_, getElem?_eq_getElem short⟩
  have zipped : (call.limits.zip counts)[n]? = some (limit, counts[n]) :=
    getElem?_zip_eq_some.mpr ⟨limited, getElem?_eq_getElem short⟩
  have checked := find?_eq_none.mp fits _ (mem_of_getElem? zipped)
  simpa using checked

theorem checked_check (distinguishes : call.Distinguishes)
    (complete : call.limits[counts.length]? = none) (depth : Nat) :
    call.Checked (call.check counts depth) := by
  intro passed
  rw [counts_check]
  rw [check] at passed
  split at passed
  · next limit count refused =>
    have listed : limit ∈ call.limits := (of_mem_zip (mem_of_find?_eq_some refused)).1
    have same : limit.error = call.depthError := by simpa [Enqueue.passed] using passed
    exact absurd same (distinguishes.limits limit listed)
  · next fits => exact within_of_exceeded complete fits

theorem Checked.next (checked : call.Checked progress)
    (distinguishes : call.Distinguishes) : call.Checked (call.next progress redis).1 := by
  cases progress with
  | counting counts =>
    rw [Enqueue.next]
    cases found : call.limits[counts.length]? with
    | some limit => rintro ⟨⟩
    | none => exact checked_check distinguishes found _
  | writing counts depth => exact fun _ => checked rfl
  | finished counts result => exact checked

theorem checked_begin (distinguishes : call.Distinguishes) : call.Checked call.begin := by
  rw [begin]
  split
  · intro passed
    exact absurd (by simpa [Enqueue.passed] using passed) distinguishes.size
  · rintro ⟨⟩

end Enqueue

theorem queueOfflineMessage_distinguishes (senderId recipientId sessionId messageEvent : String) :
    (queueOfflineMessage senderId recipientId sessionId messageEvent).Distinguishes := by
  have size : "Message exceeds maximum size for offline delivery." ≠
      "Recipient's offline message queue is full. Try again later." := by decide +kernel
  have limited : "Rate limited" ≠
      "Recipient's offline message queue is full. Try again later." := by decide +kernel
  refine ⟨size, ?_⟩
  intro limit listed
  rcases mem_pair.mp listed with rfl | rfl
  · exact limited
  · exact limited

theorem pushSyncEnvelope_distinguishes (userId sourceSessionId destSessionId envelope : String) :
    (pushSyncEnvelope userId sourceSessionId destSessionId envelope).Distinguishes := by
  have size : "Sync envelope exceeds maximum size." ≠ "Destination sync queue is full." := by
    decide +kernel
  have limited :
      "Sync rate limit exceeded. Try again later." ≠ "Destination sync queue is full." := by
    decide +kernel
  refine ⟨size, ?_⟩
  intro limit listed
  obtain rfl := mem_singleton.mp listed
  exact limited

/-- The checks of a call so far are right. -/
def BrokerCall.Checked : BrokerCall → Prop
  | .enqueue call progress => call.Distinguishes ∧ call.Checked progress
  | _ => True

theorem BrokerCall.Checked.next {call : BrokerCall} (checked : call.Checked) :
    (call.next fromStr redis).1.Checked := by
  cases call with
  | enqueue call progress => exact ⟨checked.1, checked.2.next checked.1⟩
  | drain call progress | expiry key => exact trivial

theorem BrokerCall.Issued.checked {call : BrokerCall} (issued : call.Issued) : call.Checked := by
  cases issued with
  | offline senderId recipientId sessionId messageEvent =>
    have texts := queueOfflineMessage_distinguishes senderId recipientId sessionId messageEvent
    exact ⟨texts, Enqueue.checked_begin texts⟩
  | sync userId sourceSessionId destSessionId envelope =>
    have texts := pushSyncEnvelope_distinguishes userId sourceSessionId destSessionId envelope
    exact ⟨texts, Enqueue.checked_begin texts⟩
  | drainOffline | drainSync => exact trivial

/-- The call counts itself against its `n`-th limit between the two states. -/
def CountsBetween {ι : Type} (n : Nat) (opened closed : BrokerPool ι) (i : ι) : Prop :=
  (opened.calls i).count n = none ∧ ((closed.calls i).count n).isSome

instance decidableCountsBetween {ι : Type} (n : Nat) (opened closed : BrokerPool ι) (i : ι) :
    Decidable (CountsBetween n opened closed i) :=
  inferInstanceAs (Decidable (_ ∧ _))

/-- The call queues a message from the sender to the recipient. -/
def BrokerCall.Queues (senderId recipientId : String) (call : BrokerCall) : Prop :=
  ∃ sessionId messageEvent progress,
    call = .enqueue (queueOfflineMessage senderId recipientId sessionId messageEvent) progress

/-- The call has got past the check of its rate limits. -/
def BrokerCall.passed : BrokerCall → Bool
  | .enqueue call progress => call.passed progress
  | _ => false

open BrokerCall

section Lifetimes

variable {ι : Type} [DecidableEq ι] {key : String} {n : Nat}
variable {condition : BrokerPool ι → ι → Prop} {start opened closed last : BrokerPool ι} {i : ι}

theorem checked_of_reaches
    (issued : ∀ i, (start.calls i).Issued ∨ ∃ key, start.calls i = .expiry key)
    (reached : Pool.Reaches (next fromStr) condition start last) : ∀ i, (last.calls i).Checked := by
  apply reached.forall_calls fun _ call => call.Checked
  · intro i
    rcases issued i with call | ⟨key, expiry⟩
    · exact call.checked
    · rw [expiry]
      exact trivial
  · intro i call redis checked
    exact checked.next

theorem enqueue_of_reaches {call : Enqueue}
    (reached : Pool.Reaches (next fromStr) condition start last)
    (first : start.calls i = .enqueue call progress) :
    ∃ progress', last.calls i = .enqueue call progress' := by
  refine reached.forall_calls (fun j now => ∀ progress, start.calls j = .enqueue call progress →
    ∃ progress', now = .enqueue call progress') ?_ ?_ i progress first
  · exact fun _ progress same => ⟨progress, same⟩
  · intro j now redis kept progress same
    obtain ⟨progress', rfl⟩ := kept progress same
    exact ⟨_, rfl⟩

theorem count_of_reaches (reached : Pool.Reaches (next fromStr) condition start last) :
    ∀ i value, (start.calls i).count n = some value → (last.calls i).count n = some value := by
  apply reached.forall_calls fun i call => ∀ value, (start.calls i).count n = some value →
    call.count n = some value
  · exact fun _ _ counted => counted
  · intro i call redis kept value counted
    exact count_next (kept value counted)

/-- Of the calls that count themselves in one lifetime of a counter, no more get
past the check than the limit allows. -/
theorem card_le_of_lifetime (n : Nat) {calls : Finset ι} {max : Nat}
    (issued : ∀ i, (start.calls i).Issued ∨ ∃ key, start.calls i = .expiry key)
    (before : Pool.Reaches (next fromStr) (fun _ _ => True) start opened)
    (lifetime : Pool.Reaches (next fromStr) (Retains key) opened closed)
    (after : Pool.Reaches (next fromStr) (fun _ _ => True) closed last)
    (limited : ∀ i ∈ calls, ∃ call progress limit, start.calls i = .enqueue call progress ∧
      call.limits[n]? = some limit ∧ limit.key = key ∧ limit.max = max)
    (passes : ∀ i ∈ calls, CountsBetween n opened closed i ∧ (last.calls i).passed) :
    calls.card ≤ max := by
  have drawn : (countsOf n key).Drawn opened closed :=
    Dispenser.drawn_of_reaches (fun pool i retains => (pool.calls i).moves retains) lifetime
  have reached := before.trans (lifetime.weaken.trans after)
  refine drawn.card_le ?_
  intro i member
  obtain ⟨call, progress, limit, begun, limit_eq, rfl, rfl⟩ := limited i member
  obtain ⟨⟨fresh, counted⟩, passed⟩ := passes i member
  obtain ⟨value, counted⟩ := Option.isSome_iff_exists.mp counted
  have keyed : ∀ progress, (enqueue call progress).counter n = some limit.key := by
    intro progress
    rw [counter, limit_eq]
    rfl
  obtain ⟨_, atOpening⟩ := enqueue_of_reaches before begun
  obtain ⟨_, atClosing⟩ := enqueue_of_reaches lifetime atOpening
  obtain ⟨_, atEnd⟩ := enqueue_of_reaches after atClosing
  -- The count that was drawn is the one that was checked.
  have kept := count_of_reaches after i value counted
  have right := checked_of_reaches issued reached i
  rw [atOpening] at fresh ⊢
  rw [atClosing] at counted ⊢
  rw [atEnd] at kept right passed
  refine ⟨(if_pos (keyed _)).trans fresh, value, ?_, (if_pos (keyed _)).trans counted⟩
  obtain ⟨count, atMost, stored⟩ := right.2 passed n limit limit_eq
  cases stored.symm.trans kept
  exact atMost

end Lifetimes

/-- For every interleaving, and every time between two disappearances of a
counter: of the calls that count themselves in that time, at most as many get
past the check as the limit of the pair allows, and as the limit of the sender
allows. -/
theorem rate_limits_hold {ι : Type} [DecidableEq ι] {fromStr : String → Option Json}
    {start opened closed last : BrokerPool ι} {senderId : String} {calls : Finset ι}
    (issued : ∀ i, (start.calls i).Issued ∨ ∃ key, start.calls i = .expiry key)
    (before : Pool.Reaches (BrokerCall.next fromStr) (fun _ _ => True) start opened)
    (after : Pool.Reaches (BrokerCall.next fromStr) (fun _ _ => True) closed last) :
    (∀ recipientId,
        Pool.Reaches (BrokerCall.next fromStr) (Retains (rateKey senderId recipientId)) opened
          closed →
        (∀ i ∈ calls, (start.calls i).Queues senderId recipientId) →
        (∀ i ∈ calls, CountsBetween 1 opened closed i ∧ (last.calls i).passed) →
        calls.card ≤ rateLimitMaxPerWindow) ∧
      (Pool.Reaches (BrokerCall.next fromStr) (Retains (globalRateKey senderId)) opened closed →
        (∀ i ∈ calls, ∃ recipientId, (start.calls i).Queues senderId recipientId) →
        (∀ i ∈ calls, CountsBetween 0 opened closed i ∧ (last.calls i).passed) →
        calls.card ≤ rateLimitGlobalMaxPerWindow) := by
  constructor
  · intro recipientId lifetime queues passes
    refine card_le_of_lifetime 1 issued before lifetime after ?_ passes
    intro i member
    obtain ⟨sessionId, messageEvent, progress, begun⟩ := queues i member
    exact ⟨_, progress, pairRateLimit senderId recipientId, begun, rfl, rfl, rfl⟩
  · intro lifetime queues passes
    refine card_le_of_lifetime 0 issued before lifetime after ?_ passes
    intro i member
    obtain ⟨recipientId, sessionId, messageEvent, progress, begun⟩ := queues i member
    exact ⟨_, progress, globalRateLimit senderId, begun, rfl, rfl, rfl⟩

/-! Two messages to two devices of one user. -/

def twoDevices : BrokerPool Bool where
  calls
    | true => .enqueue (queueOfflineMessage "alice" "bob" "phone" "first")
        (queueOfflineMessage "alice" "bob" "phone" "first").begin
    | false => .enqueue (queueOfflineMessage "alice" "bob" "laptop" "second")
        (queueOfflineMessage "alice" "bob" "laptop" "second").begin
  store := {}

def bothQueued : BrokerPool Bool :=
  twoDevices.run (BrokerCall.next fun _ => none) [true, false, false, true, true, false]

theorem rate_limits_hold_sample :
    ({true, false} : Finset Bool).card ≤ rateLimitMaxPerWindow ∧
      (bothQueued.calls true).passed ∧ (bothQueued.calls false).passed := by
  have issued : ∀ i, (twoDevices.calls i).Issued ∨ ∃ key, twoDevices.calls i = .expiry key := by
    intro i
    cases i with
    | true => exact .inl (.offline "alice" "bob" "phone" "first")
    | false => exact .inl (.offline "alice" "bob" "laptop" "second")
  have lifetime : Pool.Reaches (next fun _ => none) (Retains (rateKey "alice" "bob"))
      twoDevices bothQueued := Pool.reaches_run (by decide +kernel)
  have queues : ∀ i ∈ ({true, false} : Finset Bool), (twoDevices.calls i).Queues "alice" "bob" := by
    intro i _
    cases i with
    | true => exact ⟨"phone", "first", _, rfl⟩
    | false => exact ⟨"laptop", "second", _, rfl⟩
  have passes : ∀ i ∈ ({true, false} : Finset Bool),
      CountsBetween 1 twoDevices bothQueued i ∧ (bothQueued.calls i).passed = true := by
    decide +kernel
  refine ⟨?_, by decide +kernel, by decide +kernel⟩
  exact (rate_limits_hold issued .refl .refl).1 "bob" lifetime queues passes

end Company
