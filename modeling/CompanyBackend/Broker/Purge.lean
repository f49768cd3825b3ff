import CompanyBackend.Broker.Queue
import CompanyBackend.Library.Tickets

/-!
# Purges and the epoch of a channel

A purge of a channel increments its epoch in Mongo and writes the new epoch to Redis, where
the broker looks it up. The increment is atomic and returns the new epoch. The write is
unconditional: of two purges, the one that incremented first may write last, and the cached
epoch falls back. When the increment fails, the purge goes on with epoch one.

If the increments succeed and the writes come in the order of the increments, the epochs are
tickets from a counter that the cached epoch follows.
-/

namespace Company

open Pool

/-- What a request learns of its increment: Mongo has applied it and says so,
refuses it, or has applied it and the answer is lost. -/
inductive UpdateOutcome where
  | applied
  | refused
  | lost
  deriving DecidableEq, Repr

/-- A request to purge a channel that has passed the permission check. Before it
comes to the epoch it has deleted `count` messages. The token is minted with the
key of the server. -/
structure Purge where
  channelId : String
  count : Nat := 0
  update : UpdateOutcome := .applied
  mirrorFails : Bool := false
  mintEpochBumpToken : Nat → Option String := fun _ => none

structure PurgeResponse where
  count : Nat
  newEpoch : Nat
  epochBumpToken : Option String
  deriving DecidableEq, Repr

/-- Where a request is: before it increments the epoch, before it writes it to
Redis. -/
inductive PurgeProgress where
  | updating
  | mirroring (newEpoch : Nat)
  | finished (response : PurgeResponse)
  deriving DecidableEq, Repr

structure EpochStore where
  channelEpochs : String → Option Int := fun _ => none
  redis : Redis := {}

namespace EpochStore

variable (channelId : String) (store : EpochStore)

/-- The epoch of a channel in Mongo. A channel that was never purged has
none. -/
def epoch : Int := (store.channelEpochs channelId).getD 0

def cached : Int := getChannelEpochCached channelId store.redis

def record (epoch : Int) : EpochStore :=
  { store with channelEpochs := Function.update store.channelEpochs channelId (some epoch) }

/-- Increment the epoch, or insert it, and return the new one. Mongo refuses an
increment that leaves the range of the number. -/
def increment : Option (Int × EpochStore) :=
  let epoch := store.epoch channelId + 1
  if epoch < 2 ^ 63 then some (epoch, store.record channelId epoch) else none

end EpochStore

open EpochStore

variable (channelId : String)

def setChannelEpochCached (epoch : Int) (redis : Redis) : Redis :=
  redis.set (channelEpochKey channelId) epoch

namespace Purge

variable (purge : Purge)

def respond (newEpoch : Nat) : PurgeResponse where
  count := purge.count
  newEpoch := newEpoch
  epochBumpToken := purge.mintEpochBumpToken newEpoch

def bump (store : EpochStore) : Nat × EpochStore :=
  match purge.update, store.increment purge.channelId with
  | .applied, some (epoch, store) => ((max epoch 1).toNat, store)
  | .lost, some (_, store) => (1, store)
  | _, _ => (1, store)

def mirror (newEpoch : Nat) (store : EpochStore) : EpochStore :=
  if purge.mirrorFails then store
  else { store with redis := setChannelEpochCached purge.channelId newEpoch store.redis }

def next : PurgeProgress → EpochStore → PurgeProgress × EpochStore
  | .updating, store => (.mirroring (purge.bump store).1, (purge.bump store).2)
  | .mirroring newEpoch, store => (.finished (purge.respond newEpoch), purge.mirror newEpoch store)
  | .finished response, store => (.finished response, store)

end Purge

structure PurgeCall where
  purge : Purge
  progress : PurgeProgress := .updating

def PurgeCall.next (call : PurgeCall) (store : EpochStore) : PurgeCall × EpochStore :=
  ({ call with progress := (call.purge.next call.progress store).1 },
    (call.purge.next call.progress store).2)

abbrev PurgePool (ι : Type) := Pool ι PurgeCall EpochStore

structure EpochView where
  epoch : Int
  cached : Int

/-- What a request has left to do for a channel: to increment the epoch, and
then to write it if the write is going to succeed. -/
inductive EpochDuty where
  | none
  | bumping (mirrors : Bool)
  | mirroring (epoch : Int)
  deriving DecidableEq, Repr

def EpochDuty.writes : EpochDuty → Option Int
  | mirroring epoch => some epoch
  | _ => Option.none

/-- A request does its duty. -/
inductive EpochMoves : EpochDuty → EpochView → EpochDuty → EpochView → Prop
  | rests {duty view} : EpochMoves duty view duty view
  | bumps {epoch cached} :
      EpochMoves (.bumping true) ⟨epoch, cached⟩ (.mirroring (epoch + 1)) ⟨epoch + 1, cached⟩
  | bumpsOnly {epoch cached} :
      EpochMoves (.bumping false) ⟨epoch, cached⟩ .none ⟨epoch + 1, cached⟩
  | mirrors {newEpoch epoch cached} :
      EpochMoves (.mirroring newEpoch) ⟨epoch, cached⟩ .none ⟨epoch, newEpoch⟩

/-- The cached epoch follows the epoch. -/
structure Follows {ι : Type} (duties : ι → EpochDuty) (view : EpochView) : Prop where
  behind : view.cached ≤ view.epoch
  /-- What is still to be written is not older than what was written. -/
  waiting : ∀ i newEpoch, duties i = .mirroring newEpoch →
    view.cached ≤ newEpoch ∧ newEpoch ≤ view.epoch
  /-- Somebody is going to write the last epoch, or a later one. -/
  latest : view.cached = view.epoch ∨ (∃ i, duties i = .mirroring view.epoch) ∨
    ∃ i, duties i = .bumping true

/-- Epochs are written in the order of the increments, and an increment that
will not be written is followed by one that will. -/
structure InOrder {ι : Type} (duties : ι → EpochDuty) (i : ι) : Prop where
  mirroring : ∀ newEpoch ∈ (duties i).writes, ∀ j, ∀ other ∈ (duties j).writes, newEpoch ≤ other
  bumping : duties i = .bumping false → ∃ j, duties j = .bumping true

instance decidableInOrder {ι : Type} [Fintype ι] (duties : ι → EpochDuty) (i : ι) :
    Decidable (InOrder duties i) :=
  decidable_of_iff
    ((∀ newEpoch ∈ (duties i).writes, ∀ j, ∀ other ∈ (duties j).writes, newEpoch ≤ other) ∧
      (duties i = .bumping false → ∃ j, duties j = .bumping true))
    ⟨fun ⟨mirroring, bumping⟩ => ⟨mirroring, bumping⟩,
      fun inOrder => ⟨inOrder.mirroring, inOrder.bumping⟩⟩

section Duties

variable {ι : Type} {duties : ι → EpochDuty} {i : ι} {duty : EpochDuty}
variable {view after : EpochView}

theorem Follows.cached_le (follows : Follows duties view)
    (moves : EpochMoves (duties i) view duty after) : view.cached ≤ after.cached := by
  generalize before : duties i = start at moves
  cases moves with
  | rests | bumps | bumpsOnly => exact le_refl _
  | mirrors => exact (follows.waiting i _ before).1

theorem EpochMoves.epoch_le {start : EpochDuty} (moves : EpochMoves start view duty after) :
    view.epoch ≤ after.epoch := by
  cases moves with
  | rests | mirrors => exact le_refl _
  | bumps | bumpsOnly => exact Int.le_add_one (le_refl _)

variable [DecidableEq ι]

theorem Follows.update (follows : Follows duties view) (inOrder : InOrder duties i)
    (moves : EpochMoves (duties i) view duty after) :
    Follows (Function.update duties i duty) after := by
  generalize before : duties i = start at moves
  cases moves with
  | rests =>
    rw [← before, Function.update_eq_self]
    exact follows
  | @bumps epoch cached =>
    have behind : cached ≤ epoch := follows.behind
    refine ⟨by show cached ≤ epoch + 1; omega, ?_, .inr (.inl ⟨i, Function.update_self ..⟩)⟩
    refine forall_update (fun duty : EpochDuty => ∀ newEpoch, duty = .mirroring newEpoch →
      cached ≤ newEpoch ∧ newEpoch ≤ epoch + 1) ?_ ?_
    · rintro newEpoch ⟨⟩
      show cached ≤ epoch + 1 ∧ epoch + 1 ≤ epoch + 1
      omega
    · intro j newEpoch held
      have bounds : cached ≤ newEpoch ∧ newEpoch ≤ epoch := follows.waiting j newEpoch held
      show cached ≤ newEpoch ∧ newEpoch ≤ epoch + 1
      omega
  | @bumpsOnly epoch cached =>
    have behind : cached ≤ epoch := follows.behind
    refine ⟨by show cached ≤ epoch + 1; omega, ?_,
      .inr (.inr (exists_update (· = _) (inOrder.bumping before) (by simp [before])))⟩
    refine forall_update (fun duty : EpochDuty => ∀ newEpoch, duty = .mirroring newEpoch →
      cached ≤ newEpoch ∧ newEpoch ≤ epoch + 1) nofun ?_
    intro j newEpoch held
    have bounds : cached ≤ newEpoch ∧ newEpoch ≤ epoch := follows.waiting j newEpoch held
    show cached ≤ newEpoch ∧ newEpoch ≤ epoch + 1
    omega
  | @mirrors newEpoch epoch cached =>
    obtain ⟨above, below⟩ : cached ≤ newEpoch ∧ newEpoch ≤ epoch :=
      follows.waiting i newEpoch before
    refine ⟨below, ?_, ?_⟩
    · refine forall_update (fun duty : EpochDuty => ∀ other, duty = .mirroring other →
        newEpoch ≤ other ∧ other ≤ epoch) nofun ?_
      intro j other held
      refine ⟨inOrder.mirroring newEpoch ?_ j other ?_, (follows.waiting j other held).2⟩
      · rw [before]
        rfl
      · rw [held]
        rfl
    · show newEpoch = epoch ∨ _
      by_cases last : newEpoch = epoch
      · exact .inl last
      · refine .inr ?_
        obtain same | found | found := follows.latest
        · have caughtUp : cached = epoch := same
          omega
        · exact .inl (exists_update (· = _) found (by simpa [before] using last))
        · exact .inr (exists_update (· = _) found (by simp [before]))

end Duties

def EpochStore.view (store : EpochStore) : EpochView where
  epoch := store.epoch channelId
  cached := store.cached channelId

def PurgeCall.duty (call : PurgeCall) : EpochDuty :=
  if call.purge.channelId = channelId then
    match call.progress with
    | .updating => .bumping (!call.purge.mirrorFails)
    | .mirroring newEpoch => if call.purge.mirrorFails then .none else .mirroring newEpoch
    | .finished _ => .none
  else .none

/-- If the request is about to increment the epoch of the channel, Mongo applies
it. -/
def PurgeCall.Applies (call : PurgeCall) (store : EpochStore) : Prop :=
  call.purge.channelId = channelId → call.progress = .updating →
    call.purge.update = .applied ∧ store.epoch channelId + 1 < 2 ^ 63

instance decidableApplies (channelId : String) (call : PurgeCall) (store : EpochStore) :
    Decidable (call.Applies channelId store) :=
  inferInstanceAs (Decidable (_ → _ → _))

variable {store : EpochStore}

section Refinement

variable {channelId : String}

theorem channelEpochKey_inj {other : String} :
    channelEpochKey other = channelEpochKey channelId ↔ other = channelId :=
  String.append_right_inj _

open EpochStore

namespace EpochStore

theorem view_record (other : String) (epoch : Int) : (store.record other epoch).view channelId =
    if other = channelId then ⟨epoch, store.cached channelId⟩ else store.view channelId := by
  by_cases same : other = channelId
  · subst same
    simp [view, record, EpochStore.epoch, cached]
  · simp [view, record, EpochStore.epoch, cached, same, Function.update_of_ne (Ne.symm same)]

theorem epoch_record (epoch : Int) : (store.record channelId epoch).epoch channelId = epoch := by
  simp [record, EpochStore.epoch]

theorem of_increment {answer : Int × EpochStore}
    (incremented : store.increment channelId = some answer) :
    answer = (store.epoch channelId + 1, store.record channelId (store.epoch channelId + 1)) := by
  rw [increment] at incremented
  split at incremented
  · exact (Option.some.inj incremented).symm
  · contradiction

end EpochStore

theorem getChannelEpochCached_set (other : String) (epoch : Int) (redis : Redis) :
    getChannelEpochCached channelId (setChannelEpochCached other epoch redis) =
      if other = channelId then epoch else getChannelEpochCached channelId redis := by
  by_cases same : other = channelId
  · subst same
    simp [getChannelEpochCached, setChannelEpochCached, Redis.get, Redis.set]
  · have apart : channelEpochKey channelId ≠ channelEpochKey other := by
      intro equal
      exact same (channelEpochKey_inj.mp equal.symm)
    simp [getChannelEpochCached, setChannelEpochCached, Redis.get, Redis.set, same,
      Function.update_of_ne apart]

namespace Purge

variable (purge : Purge)

/-- Nothing but the epoch of the channel of the request is written. -/
theorem bump_cases (store : EpochStore) : (purge.bump store).2 = store ∨
    ∃ epoch, (purge.bump store).2 = store.record purge.channelId epoch := by
  rw [bump]
  split
  case h_1 incremented | h_2 incremented =>
    have answer := of_increment incremented
    exact .inr ⟨_, congrArg Prod.snd answer⟩
  case h_3 => exact .inl rfl

theorem view_bump_ne (other : purge.channelId ≠ channelId) :
    (purge.bump store).2.view channelId = store.view channelId := by
  obtain same | ⟨epoch, written⟩ := purge.bump_cases store
  · rw [same]
  · rw [written, view_record, if_neg other]

theorem bump_of_applied (applied : purge.update = .applied)
    (fits : store.epoch purge.channelId + 1 < 2 ^ 63) :
    purge.bump store = ((max (store.epoch purge.channelId + 1) 1).toNat,
      store.record purge.channelId (store.epoch purge.channelId + 1)) := by
  rw [bump, increment, if_pos fits, applied]

theorem view_mirror (newEpoch : Nat) : (purge.mirror newEpoch store).view channelId =
    if purge.mirrorFails = false ∧ purge.channelId = channelId then
      ⟨store.epoch channelId, newEpoch⟩
    else store.view channelId := by
  rw [mirror]
  cases fails : purge.mirrorFails with
  | true => simp
  | false =>
    by_cases same : purge.channelId = channelId
    all_goals simp [view, cached, epoch, getChannelEpochCached_set, same]

end Purge

/-- The new epoch is not negative, so that its conversions keep it. -/
theorem toNat_max_epoch {epoch : Int} (counted : 0 ≤ epoch) :
    (((max (epoch + 1) 1).toNat : Nat) : Int) = epoch + 1 := by
  omega

variable (call : PurgeCall)

theorem PurgeCall.duty_of_ne (other : call.purge.channelId ≠ channelId) :
    call.duty channelId = .none :=
  if_neg other

theorem PurgeCall.view_next_ne (other : call.purge.channelId ≠ channelId) :
    (call.next store).2.view channelId = store.view channelId := by
  obtain ⟨purge, progress⟩ := call
  cases progress with
  | updating => exact purge.view_bump_ne other
  | mirroring newEpoch => exact (purge.view_mirror newEpoch).trans (if_neg fun both => other both.2)
  | finished => rfl

theorem PurgeCall.moves (counted : 0 ≤ store.epoch channelId)
    (applies : call.Applies channelId store) :
    EpochMoves (call.duty channelId) (store.view channelId) ((call.next store).1.duty channelId)
      ((call.next store).2.view channelId) := by
  by_cases same : call.purge.channelId = channelId
  · subst same
    obtain ⟨purge, progress⟩ := call
    cases progress with
    | updating =>
      obtain ⟨applied, fits⟩ := applies rfl rfl
      simp only [next, Purge.next, duty, if_true, purge.bump_of_applied applied fits,
        view_record, toNat_max_epoch counted]
      cases purge.mirrorFails with
      | true => exact .bumpsOnly
      | false => exact .bumps
    | mirroring newEpoch =>
      simp only [next, Purge.next, duty, if_true, purge.view_mirror]
      cases purge.mirrorFails with
      | true => exact .rests
      | false => exact .mirrors
    | finished => exact .rests
  · rw [call.view_next_ne same, call.duty_of_ne same, (call.next store).1.duty_of_ne same]
    exact .rests

end Refinement

def PurgeProgress.newEpoch : PurgeProgress → Option Nat
  | .updating => none
  | .mirroring newEpoch => some newEpoch
  | .finished response => some response.newEpoch

/-- The epochs that Mongo has given to the requests for a channel. -/
def epochsOf : Dispenser PurgeCall EpochStore Nat where
  counter store := (store.epoch channelId).toNat
  ticket call := if call.purge.channelId = channelId then call.progress.newEpoch else none

theorem PurgeCall.draws {channelId : String} (call : PurgeCall)
    (counted : 0 ≤ store.epoch channelId) (applies : call.Applies channelId store) :
    (epochsOf channelId).Moves call store (call.next store) := by
  have rises := Int.toNat_le_toNat (call.moves counted applies).epoch_le
  by_cases same : call.purge.channelId = channelId
  · subst same
    obtain ⟨purge, progress⟩ := call
    cases progress with
    | updating =>
      replace counted : 0 ≤ store.epoch purge.channelId := counted
      obtain ⟨applied, fits⟩ := applies rfl rfl
      have bumped := purge.bump_of_applied applied fits
      have epoch : (purge.bump store).2.epoch purge.channelId =
          store.epoch purge.channelId + 1 := by
        rw [bumped, epoch_record]
      have newEpoch : ((purge.bump store).1 : Int) = store.epoch purge.channelId + 1 := by
        rw [bumped, toNat_max_epoch counted]
      refine .draws (if_pos rfl) ((if_pos rfl).trans (congrArg some ?_)) ?_
      · show (purge.bump store).1 = ((purge.bump store).2.epoch purge.channelId).toNat
        omega
      · show (store.epoch purge.channelId).toNat <
          ((purge.bump store).2.epoch purge.channelId).toNat
        omega
    | mirroring | finished => exact .keeps rfl rises
  · refine .keeps ?_ rises
    exact (if_neg same).trans (if_neg same).symm

/-! ## All requests together -/

def PurgePool.duties {ι : Type} (pool : PurgePool ι) : ι → EpochDuty :=
  fun i => (pool.calls i).duty channelId

/-- Mongo applies the increments of a channel, epochs are written in the order
of the increments, and an increment that will not be written is followed by one
that will. -/
structure Orderly {ι : Type} (pool : PurgePool ι) (i : ι) : Prop where
  applies : (pool.calls i).Applies channelId pool.store
  inOrder : InOrder (PurgePool.duties channelId pool) i

instance decidableOrderly (channelId : String) {ι : Type} [Fintype ι] (pool : PurgePool ι) (i : ι) :
    Decidable (Orderly channelId pool i) :=
  decidable_of_iff
    ((pool.calls i).Applies channelId pool.store ∧ InOrder (PurgePool.duties channelId pool) i)
    ⟨fun ⟨applies, inOrder⟩ => ⟨applies, inOrder⟩, fun orderly =>
      ⟨orderly.applies, orderly.inOrder⟩⟩

namespace PurgeCall

def response (channelId : String) (call : PurgeCall) : Option PurgeResponse :=
  match call.progress with
  | .finished response => if call.purge.channelId = channelId then some response else none
  | _ => none

def isFinished (call : PurgeCall) : Bool :=
  match call.progress with
  | .finished _ => true
  | _ => false

end PurgeCall

open PurgeCall

/-- A write that will succeed is still to come. -/
def EpochDuty.isDue : EpochDuty → Bool
  | .none | .bumping false => false
  | .bumping true | .mirroring _ => true

open PurgeCall

namespace PurgeCall

variable {channelId : String} {call : PurgeCall}

theorem of_isDue (due : (call.duty channelId).isDue) : call.purge.channelId = channelId ∧
    call.purge.mirrorFails = false ∧ call.isFinished = false := by
  rw [duty] at due
  split at due
  case isTrue same =>
    refine ⟨same, ?_⟩
    rw [isFinished]
    cases progress : call.progress with
    | updating | mirroring newEpoch =>
      rw [progress] at due
      exact ⟨Bool.eq_false_of_not_eq_true fun fails => by simp [fails, EpochDuty.isDue] at due, rfl⟩
    | finished response =>
      rw [progress] at due
      contradiction
  case isFalse => contradiction

theorem ticket_of_response {response : PurgeResponse}
    (answered : call.response channelId = some response) :
    (epochsOf channelId).ticket call = some response.newEpoch := by
  rw [PurgeCall.response] at answered
  split at answered
  case h_1 finished =>
    split at answered
    case isTrue same =>
      cases answered
      simp [epochsOf, same, finished, PurgeProgress.newEpoch]
    case isFalse => contradiction
  case h_2 => contradiction

theorem ticket_of_updating (updating : call.progress = .updating) :
    (epochsOf channelId).ticket call = none := by
  simp [epochsOf, updating, PurgeProgress.newEpoch]

end PurgeCall

section Runs

variable {ι : Type} {channelId : String} {start middle pool : PurgePool ι}

/-- The epoch counts purges, and the cached epoch follows it. -/
structure PurgePool.Counts (channelId : String) (pool : PurgePool ι) : Prop where
  counted : 0 ≤ pool.store.epoch channelId
  follows : Follows (PurgePool.duties channelId pool) (pool.store.view channelId)

open PurgePool

theorem PurgePool.counts_of_updating (updating : ∀ i, (pool.calls i).progress = .updating)
    (counted : 0 ≤ pool.store.epoch channelId)
    (mirrored : pool.store.cached channelId = pool.store.epoch channelId) :
    Counts channelId pool where
  counted := counted
  follows := by
    refine ⟨mirrored.le, ?_, .inl mirrored⟩
    intro i newEpoch held
    rw [duties, duty, updating i] at held
    split at held <;> cases held

variable [DecidableEq ι]

theorem PurgePool.Counts.step {i : ι} (counts : Counts channelId pool)
    (orderly : Orderly channelId pool i) : Counts channelId (pool.step next i) := by
  have moves := (pool.calls i).moves counts.counted orderly.applies
  refine ⟨counts.counted.trans moves.epoch_le, ?_⟩
  show Follows (fun j => ((pool.step next i).calls j).duty channelId) _
  rw [map_calls_step]
  exact counts.follows.update orderly.inOrder moves

section

variable (counts : Counts channelId start)

include counts

section

variable (reached : Pool.Reaches PurgeCall.next (Orderly channelId) start pool)

include reached

theorem PurgePool.Counts.reaches : Counts channelId pool :=
  reached.invariant counts fun _ _ => .step

theorem PurgePool.Counts.cached_le :
    start.store.cached channelId ≤ pool.store.cached channelId := by
  induction reached with
  | refl => exact le_refl _
  | tail earlier taken ih =>
    obtain ⟨i, orderly, rfl⟩ := taken
    have reached := counts.reaches earlier
    exact ih.trans (reached.follows.cached_le (moves _ reached.counted orderly.applies))

theorem PurgePool.Counts.drawn : (epochsOf channelId).Drawn start pool :=
  Dispenser.drawn_of_reaches
    (fun pool i admitted => (pool.calls i).draws admitted.1.counted admitted.2.applies)
    (reached.restrict counts fun _ _ => .step)

end

end

omit [DecidableEq ι] in
/-- If no write is left that will succeed, the last epoch has been written. -/
theorem PurgePool.Counts.cached_eq (counts : Counts channelId pool)
    (finished : ∀ i, (pool.calls i).purge.channelId = channelId →
      (pool.calls i).purge.mirrorFails = false → (pool.calls i).isFinished) :
    pool.store.cached channelId = pool.store.epoch channelId := by
  have idle (i) (duty) (held : duties channelId pool i = duty) (due : duty.isDue) :
      False := by
    obtain ⟨same, succeeds, unfinished⟩ := of_isDue (held ▸ due)
    rw [finished i same succeeds] at unfinished
    contradiction
  obtain same | ⟨i, held⟩ | ⟨i, held⟩ := counts.follows.latest
  · exact same
  · exact (idle i _ held rfl).elim
  · exact (idle i _ held rfl).elim

/-- Suppose that the cached epoch of a channel is the epoch, and requests purge
the channel in any order that is orderly. Then no two requests are answered with
the same epoch, the cached epoch never falls, and it is the epoch again as soon
as all requests are finished whose writes succeed. -/
theorem epochs_rise (updating : ∀ i, (start.calls i).progress = .updating)
    (counted : 0 ≤ start.store.epoch channelId)
    (mirrored : start.store.cached channelId = start.store.epoch channelId)
    (earlier : Pool.Reaches PurgeCall.next (Orderly channelId) start middle)
    (later : Pool.Reaches PurgeCall.next (Orderly channelId) middle pool) :
    (∀ i j first second, (pool.calls i).response channelId = some first →
      (pool.calls j).response channelId = some second → first.newEpoch = second.newEpoch → i = j) ∧
    middle.store.cached channelId ≤ pool.store.cached channelId ∧
    ((∀ i, (pool.calls i).purge.channelId = channelId → (pool.calls i).purge.mirrorFails = false →
        (pool.calls i).isFinished) →
      pool.store.cached channelId = pool.store.epoch channelId) := by
  have counts := counts_of_updating updating counted mirrored
  have drawn := counts.drawn (earlier.trans later)
  have fresh (i) : (epochsOf channelId).ticket (start.calls i) = none :=
    ticket_of_updating (updating i)
  refine ⟨?_, (counts.reaches earlier).cached_le later, ?_⟩
  · intro i j first second answered answered' same
    refine drawn.distinct i j first.newEpoch (fresh i) (fresh j) (ticket_of_response answered) ?_
    rw [same]
    exact ticket_of_response answered'
  · exact (counts.reaches (earlier.trans later)).cached_eq

end Runs

def purging {ι : Type} (purges : ι → Purge) : PurgePool ι where
  calls i := { purge := purges i }
  store := {}

def threePurges : PurgePool (Fin 3) :=
  purging fun i => { channelId := "lobby", mirrorFails := i == 1 }

def firstMirrored : PurgePool (Fin 3) := threePurges.run next [0, 1, 2, 0]

theorem epochs_rise_sample :
    firstMirrored.store.cached "lobby" = 1 ∧
      firstMirrored.store.cached "lobby" ≤
        (firstMirrored.run PurgeCall.next [2, 1]).store.cached "lobby" ∧
      (firstMirrored.run PurgeCall.next [2, 1]).store.cached "lobby" =
        (firstMirrored.run PurgeCall.next [2, 1]).store.epoch "lobby" := by
  have earlier : Pool.Reaches next (Orderly "lobby") threePurges firstMirrored :=
    reaches_run (by decide +kernel)
  have later : Pool.Reaches next (Orderly "lobby") firstMirrored
      (firstMirrored.run next [2, 1]) := reaches_run (by decide +kernel)
  have held := epochs_rise (fun _ => rfl) (by decide +kernel) (by decide +kernel) earlier later
  exact ⟨by decide +kernel, held.2.1, held.2.2 (by decide +kernel)⟩

def twoPurges : PurgePool Bool := purging fun _ => { channelId := "lobby" }

def refusedPurge : PurgePool Bool :=
  purging fun refuses => { channelId := "lobby", update := if refuses then .refused else .applied }

/-- The second purge writes its epoch before the first one does. In another run
the increment of the second purge is refused. -/
theorem overtaken_purge_lowers_epoch :
    (∃ middle pool, Pool.Reaches PurgeCall.next (fun _ _ => True) twoPurges middle ∧
      Pool.Reaches PurgeCall.next (fun _ _ => True) middle pool ∧
      (∀ i, (pool.calls i).isFinished ∧ (pool.calls i).purge.mirrorFails = false) ∧
      pool.store.cached "lobby" < middle.store.cached "lobby" ∧
      pool.store.cached "lobby" ≠ pool.store.epoch "lobby") ∧
    ∃ pool, Pool.Reaches PurgeCall.next (fun _ _ => True) refusedPurge pool ∧
      ((pool.calls false).response "lobby").map PurgeResponse.newEpoch = some 1 ∧
      ((pool.calls true).response "lobby").map PurgeResponse.newEpoch = some 1 := by
  refine ⟨⟨twoPurges.run next [false, true, true],
    (twoPurges.run next [false, true, true]).run next [false],
    reaches_run (admits_any _), reaches_run (admits_any _), ?_⟩,
    refusedPurge.run next [false, false, true, true], reaches_run (admits_any _), ?_⟩ <;>
  decide +kernel

end Company
