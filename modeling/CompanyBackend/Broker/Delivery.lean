import CompanyBackend.Broker.Queue
import Mathlib.Algebra.Order.Group.Multiset

/-!
# What becomes of queued messages

A drain reads its list with one command and deletes it with another. As long as nobody
pushes to the list or reads it in between, every message that was queued is still in the
list or was taken by one drain: the contents of the list and what the calls have pushed and
taken balance, message by message. A message that is pushed between the two commands is
deleted unread, and a second drain in between reads everything twice.
-/

namespace Company

open BrokerCall Filtering Pool Function Option

abbrev BrokerPool (ι : Type) := Pool ι BrokerCall Redis

/-- The calls of the source, before their first command. -/
inductive BrokerCall.Issued : BrokerCall → Prop
  | offline (senderId recipientId sessionId messageEvent : String) :
      Issued (.enqueue (queueOfflineMessage senderId recipientId sessionId messageEvent)
        (queueOfflineMessage senderId recipientId sessionId messageEvent).begin)
  | sync (userId sourceSessionId destSessionId envelope : String) :
      Issued (.enqueue (pushSyncEnvelope userId sourceSessionId destSessionId envelope)
        (pushSyncEnvelope userId sourceSessionId destSessionId envelope).begin)
  | drainOffline (userId sessionId : String) :
      Issued (.drain (drainOfflineQueue userId sessionId) .begun)
  | drainSync (userId destSessionId : String) :
      Issued (.drain (drainSyncEnvelopes userId destSessionId) .begun)

namespace BrokerCall

/-- The list that the next command pushes to or reads. -/
def uses : BrokerCall → Option String
  | .enqueue call (.writing _ _) => some call.queue
  | .drain call .begun => some call.queue
  | _ => none

/-- The call has read the list and not deleted it yet. -/
def clears (queue : String) : BrokerCall → Bool
  | .drain call (.clearing _) => call.queue == queue
  | _ => false

/-- What a call that returned `Ok` has pushed to a list. -/
def pushed (queue : String) : BrokerCall → Multiset String
  | .enqueue call (.finished _ (.ok _)) => if call.queue = queue then {call.message} else 0
  | _ => 0

def taken (queue : String) : BrokerCall → Multiset String
  | .drain call (.filtering messages _) | .drain call (.finished messages _) =>
    if call.queue = queue then messages else 0
  | _ => 0

end BrokerCall

/-- Nobody pushes to a list or reads it between the two commands of a drain. -/
def Undisturbed {ι : Type} (pool : BrokerPool ι) (i : ι) : Prop :=
  ∀ queue ∈ (pool.calls i).uses, ∀ j, (pool.calls j).clears queue = false

theorem undisturbed_iff {ι : Type} {pool : BrokerPool ι} {i : ι} :
    (∀ j, ((pool.calls i).uses.all fun queue => !(pool.calls j).clears queue)) ↔
      Undisturbed pool i := by
  simp only [all_eq_true, Bool.not_eq_true']
  exact ⟨fun all queue uses j => all j queue uses, fun all j queue uses => all queue uses j⟩

instance decidableUndisturbed {ι : Type} [Fintype ι] (pool : BrokerPool ι) (i : ι) :
    Decidable (Undisturbed pool i) :=
  decidable_of_iff _ undisturbed_iff

variable (fromStr : String → Option Json) (epochOf : String → Int)

/-- The message is an envelope from before the epoch of its channel. -/
def prePurge (eventJson : String) : Bool :=
  (extractEnvelopeEpoch fromStr eventJson).any fun envelope => envelope.2 < epochOf envelope.1

/-- What a drain returns of the messages that it has read. -/
def Drain.returned (call : Drain) (messages : List String) : List String :=
  if call.filters then messages.filter fun eventJson => !prePurge fromStr epochOf eventJson
  else messages

open Drain Enqueue

section Lists

variable {fromStr : String → Option Json} {redis : Redis} {queue : String}

theorem Redis.lists_rpush (key value : String) :
    (redis.rpush key value).lists queue =
      redis.lists queue ++ if key = queue then [value] else [] := by
  by_cases same : key = queue
  · subst same
    simp [rpush]
  · simp [rpush, same, update_of_ne (Ne.symm same)]

theorem Enqueue.lists_write (call : Enqueue) (counts : List Nat) (depth : Nat) :
    (call.write counts depth redis).lists queue =
      redis.lists queue ++ if call.queue = queue then [call.message] else [] := by
  obtain ⟨ttl, written⟩ := call.write_eq counts depth redis
  rw [written]
  exact Redis.lists_rpush call.queue call.message

theorem Enqueue.pushed_check (call : Enqueue) (counts : List Nat) (depth : Nat) :
    (BrokerCall.enqueue call (call.check counts depth)).pushed queue = 0 := by
  rw [check]
  split
  · rfl
  · split <;> rfl

variable (call : Drain)

theorem Filtering.taken_progress (messages : List String) (loop : Filtering) :
    (BrokerCall.drain call (loop.progress messages)).taken queue =
      if call.queue = queue then (messages : Multiset String) else 0 := by
  rw [Filtering.progress]
  split <;> rfl

theorem Drain.taken_filter (messages : List String) :
    (BrokerCall.drain call (call.filter fromStr messages)).taken queue =
      if call.queue = queue then (messages : Multiset String) else 0 := by
  rw [filter]
  split
  · exact taken_progress call messages _
  · rfl

theorem Redis.lists_del (key : String) :
    (redis.del key).lists queue = if key = queue then [] else redis.lists queue := by
  by_cases same : key = queue
  · subst same
    simp [del]
  · simp [del, same, update_of_ne (Ne.symm same)]

theorem Enqueue.next_balance (call : Enqueue) (progress : EnqueueProgress) :
    (BrokerCall.enqueue call (call.next progress redis).1).pushed queue +
        (redis.lists queue : Multiset String) =
      (BrokerCall.enqueue call progress).pushed queue +
        (call.next progress redis).2.lists queue := by
  cases progress with
  | counting counts =>
    rw [next]
    split
    · rfl
    · rw [pushed_check]
      rfl
  | writing counts depth =>
    have pushed : (BrokerCall.enqueue call (.finished counts (.ok ()))).pushed queue =
        ((if call.queue = queue then [call.message] else [] : List String) : Multiset String) := by
      rw [BrokerCall.pushed]
      split <;> rfl
    rw [next, pushed, lists_write, ← Multiset.coe_add]
    exact (add_comm _ _).trans (zero_add _).symm
  | finished counts result => rfl

theorem Drain.next_balance (progress : DrainProgress)
    (held : ∀ messages, progress = .clearing messages → redis.lists call.queue = messages) :
    (redis.lists queue : Multiset String) + (BrokerCall.drain call progress).taken queue =
      (call.next fromStr progress redis).2.lists queue +
        (BrokerCall.drain call (call.next fromStr progress redis).1).taken queue := by
  cases progress with
  | begun =>
    rw [next]
    split
    · next empty =>
      rw [taken_filter, List.isEmpty_iff.mp empty]
      split <;> rfl
    · rfl
  | clearing messages =>
    rw [next, taken_filter, Redis.lists_del]
    split
    · next same =>
      rw [← same, held messages rfl]
      exact (add_zero _).trans (zero_add _).symm
    · rfl
  | filtering messages loop =>
    rw [next, taken_progress]
    rfl
  | finished messages returned => rfl

/-- A call keeps its own account. A drain that deletes its list must have read
what it deletes. -/
theorem BrokerCall.next_balance (call : BrokerCall)
    (held : ∀ drain messages, call = .drain drain (.clearing messages) →
      redis.lists drain.queue = messages) (kept : ∀ key, call ≠ .expiry key) :
    (call.next fromStr redis).1.pushed queue + (redis.lists queue + call.taken queue) =
      call.pushed queue +
        ((call.next fromStr redis).2.lists queue + (call.next fromStr redis).1.taken queue) := by
  cases call with
  | expiry key => exact absurd rfl (kept key)
  | enqueue call progress =>
    have balanced := @Enqueue.next_balance redis queue call progress
    exact (add_assoc _ _ _).symm.trans ((congrArg (· + 0) balanced).trans (add_assoc _ _ _))
  | drain call progress =>
    have balanced := @Drain.next_balance fromStr redis queue call progress
      fun messages same => held call messages (by rw [same])
    exact congrArg (0 + ·) balanced

/-- A list is changed by a call that pushes to it and by one that deletes it. -/
theorem BrokerCall.lists_next (call : BrokerCall) (kept : ∀ key, call ≠ .expiry key)
    (unused : queue ∉ call.uses) (uncleared : call.clears queue = false) :
    (call.next fromStr redis).2.lists queue = redis.lists queue := by
  cases call with
  | expiry key => exact absurd rfl (kept key)
  | enqueue call progress =>
    cases progress with
    | counting counts =>
      show (call.next (.counting counts) redis).2.lists queue = redis.lists queue
      rw [Enqueue.next]
      split <;> rfl
    | writing counts depth =>
      have other : call.queue ≠ queue := fun same => unused (congrArg some same)
      exact (lists_write call counts depth).trans (by simp [other])
    | finished counts result => rfl
  | drain call progress =>
    cases progress with
    | begun =>
      show (call.next fromStr .begun redis).2.lists queue = redis.lists queue
      rw [Drain.next]
      split <;> rfl
    | clearing messages =>
      have other : call.queue ≠ queue := by simpa [clears] using uncleared
      exact (Redis.lists_del call.queue).trans (by simp [other])
    | filtering messages loop | finished messages returned => rfl

theorem Filtering.progress_ne_clearing (read messages : List String) (loop : Filtering) :
    loop.progress read ≠ .clearing messages := by
  rw [Filtering.progress]
  split <;> rintro ⟨⟩

theorem Drain.filter_ne_clearing (read messages : List String) :
    call.filter fromStr read ≠ .clearing messages := by
  rw [filter]
  split
  · exact progress_ne_clearing read messages _
  · rintro ⟨⟩

variable {messages : List String}

/-- A drain that is between its commands has just read the list. -/
theorem Drain.of_next_clearing {call : Drain} {progress : DrainProgress}
    (clearing : (call.next fromStr progress redis).1 = .clearing messages) :
    progress = .begun ∧ (call.next fromStr progress redis).2.lists call.queue = messages := by
  cases progress with
  | begun =>
    refine ⟨rfl, ?_⟩
    simp only [next] at clearing ⊢
    split at clearing
    · exact absurd clearing (filter_ne_clearing call _ messages)
    · next nonempty =>
      rw [if_neg nonempty]
      cases clearing
      rfl
  | clearing read => exact absurd clearing (filter_ne_clearing call read messages)
  | filtering read loop => exact absurd clearing (progress_ne_clearing read messages _)
  | finished read returned => cases clearing

theorem BrokerCall.of_next_clearing {call : BrokerCall} {drain : Drain}
    (clearing : (call.next fromStr redis).1 = .drain drain (.clearing messages)) :
    call.uses = some drain.queue ∧
      (call.next fromStr redis).2.lists drain.queue = messages := by
  cases call with
  | expiry key | enqueue call progress => cases clearing
  | drain call progress =>
    obtain ⟨rfl, reading⟩ := BrokerCall.drain.inj clearing
    obtain ⟨rfl, read⟩ := Drain.of_next_clearing reading
    exact ⟨rfl, read⟩

theorem BrokerCall.of_clears {call : BrokerCall} (clears : call.clears queue) :
    ∃ drain messages, call = .drain drain (.clearing messages) ∧ drain.queue = queue := by
  cases call with
  | enqueue call progress | expiry key => cases clears
  | drain call progress =>
    cases progress with
    | clearing messages => exact ⟨call, messages, rfl, beq_iff_eq.mp clears⟩
    | _ => cases clears

end Lists

variable {call : BrokerCall} {eventJson : String}

section Purges

variable {fromStr : String → Option Json} {epochOf : String → Int} {redis : Redis}
variable {messages : List String}

/-- The loop has looked at the beginning of the messages, and knows the right
epochs. -/
structure Filtering.Judges (fromStr : String → Option Json) (epochOf : String → Int)
    (messages : List String) (loop : Filtering) : Prop where
  seen : ∃ seen, messages = seen ++ loop.rest ∧
    loop.kept = seen.filter fun eventJson => !prePurge fromStr epochOf eventJson
  epochs : ∀ channelId epoch, loop.epochs.lookup channelId = some epoch → epoch = epochOf channelId

def Drain.step (fromStr : String → Option Json) (call : Drain) (state : DrainProgress × Redis) :
    DrainProgress × Redis :=
  call.next fromStr state.1 state.2

section Loop

variable {epochs : HashMap String Int} (kept rest : List String)

/-- The loop knows what it takes to judge a message. -/
def Filtering.Decides (fromStr : String → Option Json) (epochOf : String → Int)
    (epochs : HashMap String Int) (eventJson : String) : Prop :=
  ∀ envelope, extractEnvelopeEpoch fromStr eventJson = some envelope →
    epochs.lookup envelope.1 = some (epochOf envelope.1)

theorem Filtering.advance_of_decides (decides : Decides fromStr epochOf epochs eventJson) :
    advance fromStr epochs kept (eventJson :: rest) = advance fromStr epochs
      (kept ++ [eventJson].filter fun eventJson => !prePurge fromStr epochOf eventJson) rest := by
  rw [advance]
  cases found : extractEnvelopeEpoch fromStr eventJson with
  | none => simp [prePurge, found]
  | some envelope =>
    simp only [decides envelope found]
    split
    · next stale => simp [prePurge, found, stale]
    · next fresh => simp [prePurge, found, fresh]

variable (known : ∀ channelId epoch, epochs.lookup channelId = some epoch →
  epoch = epochOf channelId)
include known

/-- Otherwise it stops at an envelope, whose epoch it has to look up. -/
theorem Filtering.advance_of_unknown (unknown : ¬ Decides fromStr epochOf epochs eventJson) :
    (∃ envelope, extractEnvelopeEpoch fromStr eventJson = some envelope) ∧
      advance fromStr epochs kept (eventJson :: rest) = ⟨epochs, kept, eventJson :: rest⟩ := by
  rw [Decides] at unknown
  push Not at unknown
  obtain ⟨envelope, found, other⟩ := unknown
  refine ⟨⟨envelope, found⟩, ?_⟩
  cases cached : epochs.lookup envelope.1 with
  | none => simp only [advance, found, cached]
  | some epoch => exact absurd (cached.trans (by rw [known _ _ cached])) other

/-- The loop keeps exactly the messages that are not from before a purge. -/
theorem Filtering.judges_advance (seen : List String) :
    (Filtering.advance fromStr epochs
      (seen.filter fun eventJson => !prePurge fromStr epochOf eventJson) rest).Judges fromStr
        epochOf (seen ++ rest) := by
  induction rest generalizing seen with
  | nil => exact ⟨⟨seen, rfl, rfl⟩, known⟩
  | cons eventJson rest ih =>
    by_cases decides : Decides fromStr epochOf epochs eventJson
    · rw [advance_of_decides _ rest decides, ← List.filter_append, List.append_cons]
      exact ih (seen ++ [eventJson])
    · rw [(advance_of_unknown _ rest known decides).2]
      exact ⟨⟨seen, rfl, rfl⟩, known⟩

/-- Each lookup gets the loop past a message. -/
theorem Drain.iterate_advance {steps : Nat} (enough : rest.length ≤ steps)
    (same : ∀ channelId, getChannelEpochCached channelId redis = epochOf channelId) (call : Drain) :
    (call.step fromStr)^[steps] ((advance fromStr epochs kept rest).progress messages, redis) =
      (.finished messages (kept ++ rest.filter fun eventJson =>
        !prePurge fromStr epochOf eventJson), redis) := by
  induction rest generalizing epochs kept steps with
  | nil =>
    rw [List.filter_nil, List.append_nil]
    exact iterate_fixed rfl steps
  | cons eventJson rest ih =>
    rw [← List.singleton_append, List.filter_append, ← List.append_assoc, List.singleton_append]
    by_cases decides : Decides fromStr epochOf epochs eventJson
    · rw [advance_of_decides kept rest decides]
      exact ih _ known (Nat.le_of_succ_le enough)
    · obtain ⟨⟨envelope, found⟩, waits⟩ := advance_of_unknown kept rest known decides
      obtain _ | steps := steps
      · cases enough
      have looked : Filtering.lookup fromStr redis ⟨epochs, kept, eventJson :: rest⟩ =
          advance fromStr (epochs.put envelope.1 (epochOf envelope.1)) (kept ++
            [eventJson].filter fun eventJson => !prePurge fromStr epochOf eventJson) rest := by
        rw [← advance_of_decides, ← same]
        · simp only [Filtering.lookup, List.head?_cons, bind_some, found]
        · intro _ again
          cases found.symm.trans again
          exact HashMap.lookup_put ..
      rw [iterate_succ_apply, waits, step, Filtering.progress, Drain.next, looked]
      exact ih _ (HashMap.forall_put known rfl) (Nat.le_of_succ_le_succ enough)

end Loop

variable {loop : Filtering}

theorem Filtering.Judges.lookup (judges : loop.Judges fromStr epochOf messages)
    (same : ∀ channelId, getChannelEpochCached channelId redis = epochOf channelId) :
    (loop.lookup fromStr redis).Judges fromStr epochOf messages := by
  rw [Filtering.lookup]
  split
  · next channelId _ _ =>
    obtain ⟨⟨seen, rfl, kept⟩, known⟩ := judges
    rw [kept]
    exact judges_advance _ (HashMap.forall_put known (same channelId)) seen
  · exact judges

/-- What a drain has decided about its messages so far. -/
def Drain.Judged (fromStr : String → Option Json) (epochOf : String → Int) (call : Drain) :
    DrainProgress → Prop
  | .filtering messages loop => call.filters = true ∧ loop.Judges fromStr epochOf messages
  | .finished messages returned => returned = call.returned fromStr epochOf messages
  | _ => True

theorem Filtering.Judges.progress {call : Drain} (filters : call.filters)
    (judges : loop.Judges fromStr epochOf messages) :
    call.Judged fromStr epochOf (loop.progress messages) := by
  rw [Filtering.progress]
  split
  · next done =>
    obtain ⟨seen, rfl, kept⟩ := judges.seen
    rw [Judged, returned, if_pos filters, done, List.append_nil, kept]
  · exact ⟨filters, judges⟩

theorem Drain.filter_judged (call : Drain) (messages : List String) :
    call.Judged fromStr epochOf (call.filter fromStr messages) := by
  rw [filter]
  split
  · next filters =>
    exact (judges_advance messages (by rintro _ _ ⟨⟩) []).progress filters
  · next plain =>
    rw [Judged, returned, if_neg plain]

theorem Drain.Judged.next {call : Drain} {progress : DrainProgress}
    (judged : call.Judged fromStr epochOf progress)
    (same : ∀ channelId, getChannelEpochCached channelId redis = epochOf channelId) :
    call.Judged fromStr epochOf (call.next fromStr progress redis).1 := by
  cases progress with
  | begun =>
    rw [Drain.next]
    split
    · exact call.filter_judged _
    · exact trivial
  | clearing read => exact call.filter_judged read
  | filtering read loop => exact (judged.2.lookup same).progress judged.1
  | finished read returned => exact judged

/-- A call that judges its messages, and leaves the epochs alone. -/
def BrokerCall.Judged (fromStr : String → Option Json) (epochOf : String → Int) : BrokerCall → Prop
  | .enqueue _ _ => True
  | .drain call progress =>
    (∀ channelId, channelEpochKey channelId ≠ call.queue) ∧ call.Judged fromStr epochOf progress
  | .expiry _ => False

theorem Enqueue.numbers_next (call : Enqueue) (progress : EnqueueProgress) :
    (call.next progress redis).2.numbers = redis.numbers := by
  cases progress with
  | counting counts =>
    rw [next]
    split <;> rfl
  | writing counts depth =>
    obtain ⟨ttl, written⟩ := call.write_eq counts depth redis
    rw [next, written]
    rfl
  | finished counts result => rfl

theorem Drain.epochs_next (call : Drain) (progress : DrainProgress)
    (apart : ∀ channelId, channelEpochKey channelId ≠ call.queue) (channelId : String) :
    getChannelEpochCached channelId (call.next fromStr progress redis).2 =
      getChannelEpochCached channelId redis := by
  cases progress with
  | begun =>
    rw [next]
    split <;> rfl
  | clearing read =>
    have kept : (redis.del call.queue).numbers (channelEpochKey channelId) =
        redis.numbers (channelEpochKey channelId) := update_of_ne (apart channelId) ..
    exact congrArg (fun epoch => epoch.getD 0) kept
  | filtering read loop | finished read returned => rfl

theorem BrokerCall.Judged.next (judged : call.Judged fromStr epochOf)
    (same : ∀ channelId, getChannelEpochCached channelId redis = epochOf channelId) :
    (call.next fromStr redis).1.Judged fromStr epochOf ∧
      ∀ channelId, getChannelEpochCached channelId (call.next fromStr redis).2 =
        epochOf channelId := by
  cases call with
  | expiry key => exact judged.elim
  | enqueue call progress =>
    refine ⟨trivial, ?_⟩
    intro channelId
    rw [← same, BrokerCall.next, getChannelEpochCached, Redis.get, numbers_next]
    rfl
  | drain call progress =>
    refine ⟨⟨judged.1, judged.2.next same⟩, ?_⟩
    intro channelId
    rw [← same]
    exact call.epochs_next progress judged.1 channelId

end Purges

/-! ## Interleavings -/

section Interleavings

variable {ι : Type} [DecidableEq ι] {fromStr : String → Option Json} {given : Redis}
variable {pool : BrokerPool ι} {i : ι}

/-- What the calls have put in and taken out balances, and a drain that is about
to delete its list is the only one and has read what it deletes. -/
structure Conserved [Fintype ι] (given : Redis) (pool : BrokerPool ι) : Prop where
  balance : ∀ queue, (given.lists queue : Multiset String) + ∑ i, (pool.calls i).pushed queue =
    pool.store.lists queue + ∑ i, (pool.calls i).taken queue
  held : ∀ i drain messages, pool.calls i = .drain drain (.clearing messages) →
    pool.store.lists drain.queue = messages
  alone : ∀ i j queue, (pool.calls i).clears queue → (pool.calls j).clears queue → i = j
  kept : ∀ i key, pool.calls i ≠ .expiry key

theorem BrokerCall.next_ne_expiry (kept : ∀ key, call ≠ .expiry key)
    (redis : Redis) (key : String) : (call.next fromStr redis).1 ≠ .expiry key := by
  cases call with
  | expiry other => exact absurd rfl (kept other)
  | enqueue call progress | drain call progress => rintro ⟨⟩

theorem Conserved.step [Fintype ι] (conserved : Conserved given pool)
    (undisturbed : Undisturbed pool i) :
    Conserved given (pool.step (BrokerCall.next fromStr) i) := by
  constructor
  · intro queue
    apply balance_step _ _ (conserved.balance queue)
    exact next_balance _ (conserved.held i) (conserved.kept i)
  · intro j drain messages clearing
    by_cases same : j = i
    · subst same
      rw [step_self] at clearing
      exact (of_next_clearing clearing).2
    · rw [Pool.step_ne same] at clearing
      have clears :
          (pool.calls j).clears drain.queue = true := by simp [clearing, BrokerCall.clears]
      rw [← conserved.held j drain messages clearing]
      apply lists_next _ (conserved.kept i)
      · intro uses
        rw [undisturbed drain.queue uses j] at clears
        cases clears
      · rw [Bool.eq_false_iff]
        exact fun both => same (conserved.alone j i drain.queue clears both)
  · intro j k queue
    refine unique_step (P := fun _ (call : BrokerCall) => call.clears queue = true)
      (fun j k => conserved.alone j k queue) ?_ j k
    -- A call that starts to clear a list uses it, and nobody else clears it then.
    intro clears j _
    obtain ⟨drain, messages, clearing, rfl⟩ := of_clears clears
    rw [undisturbed drain.queue (of_next_clearing clearing).1 j]
    exact Bool.false_ne_true
  · apply forall_step (P := fun _ (call : BrokerCall) => ∀ key, call ≠ .expiry key)
    · exact next_ne_expiry (conserved.kept i) pool.store
    · exact fun j _ => conserved.kept j

/-- The calls judge their messages by the same epochs. -/
structure Filtered (fromStr : String → Option Json) (epochOf : String → Int)
    (pool : BrokerPool ι) : Prop where
  calls : ∀ i, (pool.calls i).Judged fromStr epochOf
  epochs : ∀ channelId, getChannelEpochCached channelId pool.store = epochOf channelId

theorem Filtered.step {epochOf : String → Int} (filtered : Filtered fromStr epochOf pool) (i : ι) :
    Filtered fromStr epochOf (pool.step (BrokerCall.next fromStr) i) := by
  obtain ⟨judged, epochs⟩ := (filtered.calls i).next filtered.epochs
  exact ⟨forall_step judged fun j _ => filtered.calls j, epochs⟩

theorem append_colon (literal first second : String) :
    literal ++ first ++ ":" ++ second = literal ++ (first ++ (":" ++ second)) := by
  rw [String.append_assoc, String.append_assoc]

/-- The keys of epochs have the letter of channels in the eighth place. -/
theorem letter_of_channelEpochKey {channelId literal rest : String}
    (short : 7 < literal.toList.length) (same : channelEpochKey channelId = literal ++ rest) :
    literal.toList[7]? = some 'c' := by
  have long : 7 < "broker:channel_epoch:".toList.length := by decide +kernel
  calc literal.toList[7]?
    _ = (literal ++ rest).toList[7]? := (letter_append short rest).symm
    _ = (channelEpochKey channelId).toList[7]? := by rw [same]
    _ = "broker:channel_epoch:".toList[7]? := letter_append long channelId
    _ = some 'c' := by decide +kernel

theorem channelEpochKey_ne {literal : String} (long : 7 < literal.toList.length)
    (other : literal.toList[7]? ≠ some 'c') (channelId first second : String) :
    channelEpochKey channelId ≠ literal ++ first ++ ":" ++ second := by
  intro same
  exact other (letter_of_channelEpochKey long (same.trans (append_colon ..)))

theorem channelEpochKey_ne_queueKey (channelId userId sessionId : String) :
    channelEpochKey channelId ≠ queueKey userId sessionId :=
  channelEpochKey_ne (by decide +kernel) (by decide +kernel) channelId userId sessionId

theorem channelEpochKey_ne_syncQueueKey (channelId userId destSessionId : String) :
    channelEpochKey channelId ≠ syncQueueKey userId destSessionId :=
  channelEpochKey_ne (by decide +kernel) (by decide +kernel) channelId userId destSessionId

theorem Enqueue.begin_cases (call : Enqueue) :
    call.begin = .counting [] ∨ ∃ e, call.begin = .finished [] (.error e) := by
  rw [begin]
  split
  · exact .inr ⟨_, rfl⟩
  · exact .inl rfl

theorem BrokerCall.Issued.accounts (issued : call.Issued) (queue : String) :
    call.pushed queue = 0 ∧ call.taken queue = 0 ∧ call.clears queue = false ∧
      ∀ key, call ≠ .expiry key := by
  cases issued with
  | offline senderId recipientId sessionId messageEvent =>
    refine ⟨?_, rfl, rfl, by rintro _ ⟨⟩⟩
    obtain begun | ⟨e, refused⟩ :=
      (queueOfflineMessage senderId recipientId sessionId messageEvent).begin_cases
    · rw [begun]
      rfl
    · rw [refused]
      rfl
  | sync userId sourceSessionId destSessionId envelope =>
    refine ⟨?_, rfl, rfl, by rintro _ ⟨⟩⟩
    obtain begun | ⟨e, refused⟩ :=
      (pushSyncEnvelope userId sourceSessionId destSessionId envelope).begin_cases
    · rw [begun]
      rfl
    · rw [refused]
      rfl
  | drainOffline userId sessionId
  | drainSync userId destSessionId => exact ⟨rfl, rfl, rfl, by rintro _ ⟨⟩⟩

theorem BrokerCall.Issued.judged (issued : call.Issued)
    (epochOf : String → Int) : call.Judged fromStr epochOf := by
  cases issued with
  | offline | sync => exact trivial
  | drainOffline userId sessionId =>
    exact ⟨fun channelId => channelEpochKey_ne_queueKey channelId userId sessionId, trivial⟩
  | drainSync userId destSessionId =>
    exact ⟨fun channelId => channelEpochKey_ne_syncQueueKey channelId userId destSessionId, trivial⟩

omit [DecidableEq ι] in
theorem conserved_of_issued [Fintype ι] (issued : ∀ i, (pool.calls i).Issued) :
    Conserved pool.store pool := by
  constructor
  · intro queue
    have nothing : ∀ i, (pool.calls i).pushed queue = (pool.calls i).taken queue := by
      intro i
      obtain ⟨pushed, taken, _⟩ := (issued i).accounts queue
      rw [pushed, taken]
    rw [Finset.sum_congr rfl fun i _ => nothing i]
  · intro i drain messages clearing
    have clears : (pool.calls i).clears drain.queue = true := by simp [clearing, BrokerCall.clears]
    rw [((issued i).accounts drain.queue).2.2.1] at clears
    cases clears
  · intro i j queue clears
    rw [((issued i).accounts queue).2.2.1] at clears
    cases clears
  · intro i key
    exact ((issued i).accounts key).2.2.2 key

end Interleavings

/-- In every interleaving in which nobody uses a list between the two commands
of a drain, what was in the list and what the calls that returned `Ok` have
pushed is, message by message, still in the list or was taken by one drain, at
every point and so once all calls have finished. A drain returns what it has
taken, without the envelopes from before a purge. -/
theorem queued_messages_conserved {ι : Type} [DecidableEq ι] [Fintype ι]
    {fromStr : String → Option Json} {start pool : BrokerPool ι}
    (issued : ∀ i, (start.calls i).Issued)
    (reached : Pool.Reaches (BrokerCall.next fromStr) Undisturbed start pool) :
    (∀ queue, (start.store.lists queue : Multiset String) + ∑ i, (pool.calls i).pushed queue =
        pool.store.lists queue + ∑ i, (pool.calls i).taken queue) ∧
      ∀ i call messages returned, pool.calls i = .drain call (.finished messages returned) →
        returned = call.returned fromStr
          (fun channelId => getChannelEpochCached channelId start.store) messages := by
  have conserved : Conserved start.store pool :=
    reached.invariant (conserved_of_issued issued) fun _ _ before undisturbed =>
      before.step undisturbed
  have filtered : Filtered fromStr (fun channelId => getChannelEpochCached channelId start.store)
      pool :=
    reached.invariant ⟨fun i => (issued i).judged _, fun _ => rfl⟩ fun _ i before _ => before.step i
  refine ⟨conserved.balance, ?_⟩
  intro i call messages returned finished
  have judged := filtered.calls i
  rw [finished] at judged
  exact judged.2

/-! A device that reconnects while it is sent a message. -/

def reconnection : BrokerPool Bool where
  calls
    | true => .enqueue (queueOfflineMessage "alice" "bob" "phone" "second")
        (queueOfflineMessage "alice" "bob" "phone" "second").begin
    | false => .drain (drainOfflineQueue "bob" "phone") .begun
  store := ({} : Redis).rpush (queueKey "bob" "phone") "first"

theorem reconnection_issued (caller : Bool) : (reconnection.calls caller).Issued := by
  cases caller with
  | true => exact .offline "alice" "bob" "phone" "second"
  | false => exact .drainOffline "bob" "phone"

def delivered : BrokerPool Bool :=
  reconnection.run (BrokerCall.next fun _ => none) [true, true, true, true, false, false]

theorem queued_messages_conserved_sample :
    (reconnection.store.lists (queueKey "bob" "phone") : Multiset String) +
          ∑ caller, (delivered.calls caller).pushed (queueKey "bob" "phone") =
        delivered.store.lists (queueKey "bob" "phone") +
          ∑ caller, (delivered.calls caller).taken (queueKey "bob" "phone") ∧
      (delivered.calls true).pushed (queueKey "bob" "phone") = {"second"} ∧
      (delivered.calls false).taken (queueKey "bob" "phone") = {"first", "second"} := by
  have reached : Pool.Reaches (BrokerCall.next fun _ => none) Undisturbed reconnection delivered :=
    reaches_run (by decide +kernel)
  refine ⟨?_, by decide +kernel, by decide +kernel⟩
  exact (queued_messages_conserved reconnection_issued reached).1 (queueKey "bob" "phone")

/-- The message is queued between the two commands of the drain. -/
def crossed : BrokerPool Bool :=
  reconnection.run (BrokerCall.next fun _ => none) [true, true, true, false, true, false]

/-- The message is pushed between the two commands of a drain. The call returns
`Ok`, and its message is neither in the list nor taken. -/
theorem crossed_message_lost :
    (∀ caller, (reconnection.calls caller).Issued) ∧
      Pool.Reaches (BrokerCall.next fun _ => none) (fun _ _ => True) reconnection crossed ∧
      (crossed.calls true).pushed (queueKey "bob" "phone") = {"second"} ∧
      crossed.store.lists (queueKey "bob" "phone") = [] ∧
      (crossed.calls false).taken (queueKey "bob" "phone") = {"first"} := by
  refine ⟨reconnection_issued, reaches_run (admits_any _), ?_⟩
  decide +kernel

/-- The event is a new or an edited message of a channel. -/
inductive CarriesContent (event : Json) (channel content : String) : Prop
  | message (type : event.get "type" = some (.string "Message"))
      (sent : event.get "channel" = some (.string channel))
      (body : event.get "content" = some (.string content))
  | messageUpdate {data : Json} (type : event.get "type" = some (.string "MessageUpdate"))
      (sent : event.get "channel" = some (.string channel)) (update : event.get "data" = some data)
      (body : data.get "content" = some (.string content))

/-- The epoch that an envelope counts with: its own if that is an `i64`, and
zero if it has none or anything else in its place. -/
inductive Json.CountsWith (envelope : Json) : Int → Prop
  | absent (missing : envelope.get "e" = none) : CountsWith envelope 0
  | own {epoch : Int} (found : envelope.get "e" = some (.integer epoch)) (fits : isI64 epoch) :
      CountsWith envelope epoch
  | other {value : Json} (found : envelope.get "e" = some value)
      (differs : ∀ epoch, isI64 epoch → value ≠ .integer epoch) : CountsWith envelope 0

/-- The text is an event with an encrypted envelope from before the epoch of its
channel. -/
inductive StaleEnvelope (eventJson : String) : Prop
  | intro {event envelope : Json} {channel content : String} {epoch : Int}
      (parsed : fromStr eventJson = some event) (carries : CarriesContent event channel content)
      (encrypted : content.startsWith "\x7b\"_e2e\":1,") (opened : fromStr content = some envelope)
      (counts : envelope.CountsWith epoch) (stale : epoch < epochOf channel)

theorem Json.asI64_eq_some {value : Json} {number : Int} :
    value.asI64 = some number ↔ isI64 number ∧ value = .integer number := by
  cases value <;> simp [asI64]
  grind

theorem Json.countsWith_iff {envelope : Json} {epoch : Int} :
    envelope.CountsWith epoch ↔ ((envelope.get "e").bind asI64).getD 0 = epoch := by
  constructor
  · intro counts
    cases counts with
    | absent missing =>
      rw [missing]
      rfl
    | own found fits =>
      rw [found, bind_some, asI64_eq_some.mpr ⟨fits, rfl⟩]
      rfl
    | @other value found differs =>
      have unread : value.asI64 = none := by
        refine eq_none_iff_forall_ne_some.mpr fun number read => ?_
        obtain ⟨fits, same⟩ := asI64_eq_some.mp read
        exact differs number fits same
      rw [found, bind_some, unread]
      rfl
  · rintro rfl
    cases found : envelope.get "e" with
    | none => exact .absent found
    | some value =>
      cases read : value.asI64 with
      | none =>
        rw [bind_some, read]
        refine .other found fun epoch fits same => ?_
        rw [asI64_eq_some.mpr ⟨fits, same⟩] at read
        cases read
      | some epoch =>
        obtain ⟨fits, rfl⟩ := asI64_eq_some.mp read
        rw [bind_some, read]
        exact .own found fits

theorem Json.asStr_eq_some {value : Json} {text : String} :
    value.asStr = some text ↔ value = .string text := by
  cases value <;> simp [asStr]

theorem messageContent_eq_some {event : Json} {channel content : String} :
    messageContent event = some (channel, content) ↔ CarriesContent event channel content := by
  constructor
  · intro found
    simp only [messageContent, bind_eq_bind, bind_eq_some_iff, Json.asStr_eq_some] at found
    obtain ⟨_, type, _, rfl, found⟩ := found
    split at found
    · simp only [bind_eq_some_iff, Json.asStr_eq_some] at found
      obtain ⟨_, sent, _, rfl, _, body, _, rfl, ⟨⟩⟩ := found
      exact .message type sent body
    · simp only [bind_eq_some_iff, Json.asStr_eq_some] at found
      obtain ⟨_, sent, _, rfl, _, update, _, body, _, rfl, ⟨⟩⟩ := found
      exact .messageUpdate type sent update body
    · cases found
  · intro carries
    cases carries with
    | message type sent body => simp [messageContent, type, sent, body, Json.asStr]
    | messageUpdate type sent update body =>
      simp [messageContent, type, sent, update, body, Json.asStr]

theorem prePurge_iff {fromStr : String → Option Json} {epochOf : String → Int} :
    prePurge fromStr epochOf eventJson ↔ StaleEnvelope fromStr epochOf eventJson := by
  rw [prePurge, any_eq_true]
  constructor
  · rintro ⟨⟨channel, epoch⟩, found, stale⟩
    simp only [extractEnvelopeEpoch, bind_eq_bind, bind_eq_some_iff] at found
    obtain ⟨event, parsed, ⟨_, content⟩, carries, found⟩ := found
    split at found
    · next encrypted =>
      obtain ⟨envelope, opened, ⟨⟩⟩ := bind_eq_some_iff.mp found
      exact ⟨parsed, messageContent_eq_some.mp carries, encrypted, opened,
        Json.countsWith_iff.mpr rfl, of_decide_eq_true stale⟩
    · cases found
  · rintro ⟨parsed, carries, encrypted, opened, counts, stale⟩
    refine ⟨(_, _), ?_, decide_eq_true stale⟩
    simp only [extractEnvelopeEpoch, bind_eq_bind, parsed, bind_some,
      messageContent_eq_some.mpr carries, if_pos encrypted, opened, Json.countsWith_iff.mp counts]
    rfl

/-- A drain on its own takes a step for each message at most, and two more: one
that reads the list and one that deletes it. -/
theorem drainOfflineQueue_run (fromStr : String → Option Json) {userId sessionId : String}
    {redis : Redis} {messages : List String}
    (queued : redis.lists (queueKey userId sessionId) = messages) (further : Nat) :
    ∃ after, ((drainOfflineQueue userId sessionId).step fromStr)^[messages.length + further + 2]
        (.begun, redis) = (.finished messages (messages.filter fun eventJson =>
          !prePurge fromStr (getChannelEpochCached · redis) eventJson), after) ∧
      after.lists (queueKey userId sessionId) = [] := by
  have looped := fun after same => @iterate_advance fromStr (getChannelEpochCached · redis) after
    messages ∅ [] messages (by rintro _ _ ⟨⟩) _ (Nat.le_add_right _ further) same
    (drainOfflineQueue userId sessionId)
  by_cases empty : messages.isEmpty
  · have read : (drainOfflineQueue userId sessionId).step fromStr (.begun, redis) =
        ((advance fromStr ∅ [] messages).progress messages, redis) := by
      subst queued
      exact if_pos empty
    refine ⟨redis, ?_, queued.trans (List.isEmpty_iff.mp empty)⟩
    rw [iterate_succ_apply, read, iterate_succ_apply', looped redis fun _ => rfl]
    rfl
  · have read : (drainOfflineQueue userId sessionId).step fromStr (.begun, redis) =
        (.clearing messages, redis) := by
      subst queued
      exact if_neg empty
    refine ⟨redis.del (queueKey userId sessionId), ?_, update_self ..⟩
    rw [iterate_succ_apply, read, iterate_succ_apply]
    refine looped _ ?_
    intro channelId
    exact @epochs_next fromStr redis (drainOfflineQueue userId sessionId) (.clearing [])
      (channelEpochKey_ne_queueKey · userId sessionId) channelId

/-- A drain of an offline queue that nobody else uses ends, and returns the
messages in their order without the encrypted envelopes that count with an epoch
before that of their channel. -/
theorem offline_queue_drained (fromStr : String → Option Json) (userId sessionId : String)
    (redis : Redis) (further : Nat) :
    ∃ after, ((drainOfflineQueue userId sessionId).step fromStr)^[
          (redis.lists (queueKey userId sessionId)).length + further + 2] (.begun, redis) =
        (.finished (redis.lists (queueKey userId sessionId))
          ((redis.lists (queueKey userId sessionId)).filter fun eventJson => !prePurge fromStr
            (getChannelEpochCached · redis) eventJson), after) ∧
      after.lists (queueKey userId sessionId) = [] ∧
      ∀ eventJson, prePurge fromStr (getChannelEpochCached · redis) eventJson ↔
        StaleEnvelope fromStr (getChannelEpochCached · redis) eventJson := by
  obtain ⟨after, ran, emptied⟩ :=
    @drainOfflineQueue_run fromStr userId sessionId redis _ rfl further
  exact ⟨after, ran, emptied, fun _ => prePurge_iff⟩

/-! An envelope whose epoch no `i64` can hold waits for a device, and its channel is in epoch 3. -/

def lateContent : String := "\x7b\"_e2e\":1,\"e\":18446744073709551615\x7d"

def lateEvent : String :=
  "\x7b\"type\":\"Message\",\"channel\":\"general\",\"content\":\"\x7b\\\"_e2e\\\":1," ++
    "\\\"e\\\":18446744073709551615\x7d\"\x7d"

def lateFromStr (text : String) : Option Json :=
  if text = lateEvent then
    some (.object [("type", .string "Message"), ("channel", .string "general"),
      ("content", .string lateContent)])
  else if text = lateContent then
    some (.object [("_e2e", .integer 1), ("e", .integer 18446744073709551615)])
  else none

def lateRedis : Redis where
  lists := update (fun _ => []) (queueKey "bob" "phone") [lateEvent]
  numbers := update (fun _ => none) (channelEpochKey "general") (some 3)

/-- The epoch of the envelope is the larger one, and the message is dropped. -/
theorem late_envelope_dropped :
    (lateFromStr lateContent).bind (Json.get "e") = some (.integer 18446744073709551615) ∧
      getChannelEpochCached "general" lateRedis = 3 ∧
      ∃ after, ((drainOfflineQueue "bob" "phone").step lateFromStr)^[3] (.begun, lateRedis) =
        (.finished [lateEvent] [], after) := by
  have queued : lateRedis.lists (queueKey "bob" "phone") = [lateEvent] := by simp [lateRedis]
  have dropped : prePurge lateFromStr (getChannelEpochCached · lateRedis) lateEvent := by
    decide +kernel
  obtain ⟨after, ran, _⟩ := drainOfflineQueue_run lateFromStr queued 0
  rw [List.filter_cons_of_neg (by simp [dropped])] at ran
  exact ⟨rfl, by decide +kernel, after, ran⟩

end Company
