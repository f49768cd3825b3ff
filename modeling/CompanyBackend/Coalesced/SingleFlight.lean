import Mathlib.Data.Fintype.Basic
import CompanyBackend.Coalesced.Service

/-!
# One execution at a time

A call decides to run its function when it finds neither a watcher nor, if it has come that
far, a queue entry for its id. It enters its own watcher, or queue entry, under a lock that it
takes later, and in between other calls look and find nothing either. The queue has another
gap: it has one slot for an id, and the first of two calls that leaves it takes the slot of the
other with it.

Both properties hold in the interleavings in which a call that looks is not too early to find
what is already on its way.
-/

namespace Company

open ExecuteProgress ExecuteCall Pool

namespace ExecuteProgress

variable {ι V : Type}

/-- The call has decided to run its function, and its watcher has not been
removed. -/
def owns : ExecuteProgress ι V → Bool
  | enqueueing _ | inQueue _ | checkingFirst _ | leavingQueue | inserting _ | running _
  | removing _ _ => true
  | _ => false

variable {progress : ExecuteProgress ι V}

theorem owns_of_loops (looped : progress.loops) : progress.owns :=
  of_loops looped (fun _ => rfl) (fun _ => rfl) rfl

def isLookingInQueue : ExecuteProgress ι V → Bool
  | lookingInQueue _ => true
  | _ => false

def isEnqueueing : ExecuteProgress ι V → Bool
  | enqueueing _ => true
  | _ => false

/-- The call has decided to enter the queue, and has not left it. -/
def queues (progress : ExecuteProgress ι V) : Bool := progress.isEnqueueing || progress.loops

theorem queues_of_loops (looped : progress.loops) : progress.queues := by
  rw [queues, looped, Bool.or_true]

theorem queues_of_isEnqueueing (entering : progress.isEnqueueing) : progress.queues := by
  rw [queues, entering, Bool.true_or]

end ExecuteProgress

section

variable {ι Id Ty V : Type} [DecidableEq ι] [DecidableEq Id] [DecidableEq Ty]
variable {config : CoalescionConfig} {start pool : CoalescionPool ι Id Ty V} {i : ι}

namespace ExecuteCall

variable {call : ExecuteCall ι Id Ty V} {service : CoalescionService ι Id Ty V}

/-- A call that looks into one of the maps does not go on to run its function:
it finds an entry, or it is turned away for lack of room. -/
def holdsBack (config : CoalescionConfig) (call : ExecuteCall ι Id Ty V)
    (service : CoalescionService ι Id Ty V) : Bool :=
  match call.progress with
  | .looking => (service.watchers.lookup call.id).isSome || config.full service
  | .lookingInQueue _ => (service.queue.lookup call.id).isSome
  | _ => true

/-- A call decides to run its function only when it is not held back. -/
theorem Steps.owns_of_holdsBack {progress : ExecuteProgress ι V}
    {service' : CoalescionService ι Id Ty V} (steps : call.Steps config service progress service')
    (owner : progress.owns) (heldBack : call.holdsBack config service) : call.progress.owns := by
  unfold holdsBack at heldBack
  cases steps with
  | rests => exact owner
  | decides current missing room =>
    rw [current, missing, room] at heldBack
    cases heldBack
  | decidesToQueue current missing =>
    rw [current, missing] at heldBack
    cases heldBack
  | enters current | leaves current | inserts current | sends current => rw [current]; rfl
  | loops before => exact owns_of_loops before
  | _ => cases owner

end ExecuteCall

/-- While a call for its id is on its way, a call is held back. -/
def LooksInTime (config : CoalescionConfig) (pool : CoalescionPool ι Id Ty V) (i : ι) : Prop :=
  ∀ j, j ≠ i → (pool.calls j).progress.owns → (pool.calls j).id = (pool.calls i).id →
    (pool.calls i).holdsBack config pool.store

instance decidableLooksInTime [Fintype ι] (config : CoalescionConfig)
    (pool : CoalescionPool ι Id Ty V) (i : ι) : Decidable (LooksInTime config pool i) :=
  inferInstanceAs (Decidable (∀ j, j ≠ i → _ → _ → _))

/-- For an id, at most one call has decided to run its function. -/
def OneOwner (pool : CoalescionPool ι Id Ty V) : Prop :=
  ∀ id j k, (pool.calls j).progress.owns ∧ (pool.calls j).id = id →
    (pool.calls k).progress.owns ∧ (pool.calls k).id = id → j = k

theorem OneOwner.step (oneOwner : OneOwner pool) (inTime : LooksInTime config pool i) :
    OneOwner (pool.step (next config) i) := by
  intro id
  refine unique_step (P := fun _ (call : ExecuteCall ι Id Ty V) =>
    call.progress.owns ∧ call.id = id) (oneOwner id) ?_
  rintro ⟨owner, same⟩ j other ⟨owner', same'⟩
  rw [sameCall_next.id] at same
  -- If the call has just decided, it was not held back by the other one.
  have heldBack := inTime j other owner' (same'.trans same.symm)
  have before := (next_steps _ _ _).owns_of_holdsBack owner heldBack
  exact other (oneOwner id j i ⟨owner', same'⟩ ⟨before, same⟩)

/-- In every interleaving in which a call that looks into a map is held back
while another call for its id is on its way, at no time two functions are
running for one id. -/
theorem single_flight (begun : start.Begun)
    (reached : Pool.Reaches (ExecuteCall.next config) (LooksInTime config) start pool) :
    ∀ i j queued queued', (pool.calls i).progress = .running queued →
      (pool.calls j).progress = .running queued' → (pool.calls i).id = (pool.calls j).id →
        i = j := by
  have first : OneOwner start := by
    rintro id j k ⟨owner, _⟩
    rw [begun.looking j] at owner
    cases owner
  have oneOwner : OneOwner pool := reached.invariant first fun _ _ before => before.step
  intro i j queued queued' running running' same
  refine oneOwner _ i j ⟨?_, rfl⟩ ⟨?_, same.symm⟩
  · rw [running]
    rfl
  · rw [running']
    rfl

end

/-- Calls for one id, each of which produces its own number. -/
def sameId (n : Nat) : CoalescionPool (Fin n) String Unit Nat where
  calls i :=
    { caller := i, id := "id", type := (), func := some i.val, patience := none
      progress := .looking }
  store := {}

theorem sameId_begun (n : Nat) : (sameId n).Begun := ⟨fun _ => rfl, fun _ => rfl, rfl⟩

/-- The second call looks when the first one has entered its watcher. -/
theorem single_flight_second_watches :
    ∃ pool, Pool.Reaches (ExecuteCall.next {}) (LooksInTime {}) (sameId 2) pool ∧
      (pool.calls 0).progress = .running false ∧
      ∀ i j queued queued', (pool.calls i).progress = .running queued →
        (pool.calls j).progress = .running queued' →
          (pool.calls i).id = (pool.calls j).id → i = j := by
  have reached : Pool.Reaches (next {}) (LooksInTime {}) (sameId 2)
      ((sameId 2).run (next {}) [0, 0, 1]) := reaches_run (by decide +kernel)
  exact ⟨_, reached, rfl, single_flight (sameId_begun 2) reached⟩

/-- Two calls for one id look into the map before either of them has entered its
watcher, and both run their function. -/
theorem two_functions_running :
    ∃ pool, (sameId 2).Begun ∧ (∀ i, ((sameId 2).calls i).patience = none) ∧
      Pool.Reaches (ExecuteCall.next {}) (fun _ _ => True) (sameId 2) pool ∧
      (pool.calls 0).id = (pool.calls 1).id ∧
      (pool.calls 0).progress = .running false ∧ (pool.calls 1).progress = .running false := by
  refine ⟨(sameId 2).run (next {}) [0, 1, 0, 1], sameId_begun 2, fun _ => rfl,
    reaches_run (admits_any _), rfl, rfl, rfl⟩

section

variable {ι Id Ty V : Type} [DecidableEq ι] [DecidableEq Id] [DecidableEq Ty]
variable {config : CoalescionConfig} {start pool : CoalescionPool ι Id Ty V} {i : ι}

/-- What a step does with the queue: nothing, or the call finds no entry and
decides to enter one, or it enters it, or it removes the entry of its id. -/
inductive QueueMoves (call : ExecuteCall ι Id Ty V) (queue : HashMap Id (Receiver ι)) :
    ExecuteProgress ι V → HashMap Id (Receiver ι) → Prop
  | stays {progress : ExecuteProgress ι V} (queues : progress.queues → call.progress.queues)
      (loops : progress.loops → call.progress.loops) : QueueMoves call queue progress queue
  | looks {maxConcurrent : Nat} (looking : call.progress.isLookingInQueue)
      (absent : queue.lookup call.id = none) :
      QueueMoves call queue (.enqueueing maxConcurrent) queue
  | enters {progress : ExecuteProgress ι V} {receiver : Receiver ι}
      (entering : call.progress.isEnqueueing) :
      QueueMoves call queue progress (queue.put call.id receiver)
  | leaves {progress : ExecuteProgress ι V} (looped : call.progress.loops)
      (left : progress.queues = false) : QueueMoves call queue progress (queue.erase call.id)

theorem ExecuteCall.Steps.queueMoves {call : ExecuteCall ι Id Ty V}
    {service service' : CoalescionService ι Id Ty V} {progress : ExecuteProgress ι V}
    (steps : call.Steps config service progress service') :
    QueueMoves call service.queue progress service'.queue := by
  cases steps with
  | rests => exact .stays (fun before => before) fun before => before
  | decidesToQueue current missing => exact .looks (by rw [current]; rfl) missing
  | enters current => exact .enters (by rw [current]; rfl)
  | loops before =>
    exact .stays (fun _ => queues_of_loops before) fun _ => before
  | leaves current => exact .leaves (by rw [current]; rfl) rfl
  | removes =>
    rw [CoalescionService.queue_conclude]
    exact .stays nofun nofun
  | _ => exact .stays nofun nofun

theorem ExecuteCall.next_queueMoves (config : CoalescionConfig) (call : ExecuteCall ι Id Ty V)
    (service : CoalescionService ι Id Ty V) :
    QueueMoves call service.queue (call.next config service).1.progress
      (call.next config service).2.queue :=
  (next_steps config call service).queueMoves

/-- When a call finds no queue entry for its id, no other call for the id is
about to enter one. -/
def QueuesInTime (pool : CoalescionPool ι Id Ty V) (i : ι) : Prop :=
  (pool.calls i).progress.isLookingInQueue → pool.store.queue.lookup (pool.calls i).id = none →
    ∀ j, (pool.calls j).progress.isEnqueueing → (pool.calls j).id ≠ (pool.calls i).id

instance decidableQueuesInTime [Fintype ι] (pool : CoalescionPool ι Id Ty V) (i : ι) :
    Decidable (QueuesInTime pool i) :=
  inferInstanceAs (Decidable (_ → _ → ∀ _ : ι, _ → _))

/-- The calls in the loop have a slot in the queue, and do not share it. -/
structure Slotted (pool : CoalescionPool ι Id Ty V) : Prop where
  listed : ∀ j, (pool.calls j).progress.loops → (pool.store.queue.lookup (pool.calls j).id).isSome
  alone : ∀ id j k, (pool.calls j).progress.queues ∧ (pool.calls j).id = id →
    (pool.calls k).progress.queues ∧ (pool.calls k).id = id → j = k

theorem Slotted.alone_step (slotted : Slotted pool) (inTime : QueuesInTime pool i) (id : Id) :
    ∀ j k, ((pool.step (next config) i).calls j).progress.queues ∧
        ((pool.step (next config) i).calls j).id = id →
      ((pool.step (next config) i).calls k).progress.queues ∧
        ((pool.step (next config) i).calls k).id = id → j = k := by
  refine unique_step (P := fun _ (call : ExecuteCall ι Id Ty V) =>
    call.progress.queues ∧ call.id = id) (slotted.alone id) ?_
  rintro ⟨queues, same⟩ j other ⟨queues', same'⟩
  rw [sameCall_next.id] at same
  have alone : (pool.calls i).progress.queues → False := fun before =>
    other (slotted.alone id j i ⟨queues', same'⟩ ⟨before, same⟩)
  have moved := next_queueMoves config (pool.calls i) pool.store
  generalize ((pool.calls i).next config pool.store).1.progress = progress at moved queues
  generalize ((pool.calls i).next config pool.store).2.queue = queue at moved
  cases moved with
  | stays before _ => exact alone (before queues)
  | looks looking absent =>
    -- Another call that is about to enter is excluded, and one that has entered is found.
    obtain entering | looped := Bool.or_eq_true_iff.mp queues'
    · exact inTime looking absent j entering (same'.trans same.symm)
    · have found := slotted.listed j looped
      rw [same', ← same, absent] at found
      cases found
  | enters entering => exact alone (queues_of_isEnqueueing entering)
  | leaves looped _ => exact alone (queues_of_loops looped)

theorem Slotted.listed_step (slotted : Slotted pool) (j : ι)
    (looped : ((pool.step (next config) i).calls j).progress.loops) :
    ((pool.step (next config) i).store.queue.lookup
      ((pool.step (next config) i).calls j).id).isSome := by
  have moved := next_queueMoves config (pool.calls i) pool.store
  change (((pool.calls i).next config pool.store).2.queue.lookup _).isSome
  by_cases own : j = i
  · subst own
    rw [step_self] at looped ⊢
    rw [sameCall_next.id]
    generalize ((pool.calls j).next config pool.store).1.progress = progress at moved looped
    generalize ((pool.calls j).next config pool.store).2.queue = queue at moved ⊢
    cases moved with
    | stays _ before => exact slotted.listed j (before looped)
    | looks => cases looped
    | enters => rw [HashMap.lookup_put, Option.isSome_some]
    | leaves _ left =>
      rw [queues_of_loops looped] at left
      cases left
  · rw [Pool.step_ne own] at looped ⊢
    have found := slotted.listed j looped
    generalize ((pool.calls i).next config pool.store).1.progress = progress at moved
    generalize ((pool.calls i).next config pool.store).2.queue = queue at moved ⊢
    cases moved with
    | stays | looks => exact found
    | enters =>
      by_cases same : (pool.calls j).id = (pool.calls i).id
      · rw [same, HashMap.lookup_put, Option.isSome_some]
      · rwa [HashMap.lookup_put_ne _ same]
    | leaves left _ =>
      -- The slot that is removed is not that of another call in the loop.
      have other : (pool.calls j).id ≠ (pool.calls i).id := fun same =>
        own (slotted.alone _ j i ⟨queues_of_loops looped, same⟩ ⟨queues_of_loops left, rfl⟩)
      rwa [AList.lookup_erase_ne other]

theorem Slotted.step (slotted : Slotted pool) (inTime : QueuesInTime pool i) :
    Slotted (pool.step (next config) i) :=
  ⟨slotted.listed_step, slotted.alone_step inTime⟩

/-- A call in the loop whose id is first leaves the loop by itself when there is
room. -/
theorem leaves_loop {maxConcurrent : Nat} (patient : (pool.calls i).patience = none)
    (waits : (pool.calls i).progress = .inQueue maxConcurrent)
    (room : pool.store.watchers.size < maxConcurrent)
    (first : pool.store.queue.oldest = some (pool.calls i).id) :
    ((pool.run (next config) [i, i, i]).calls i).progress = .inserting true := by
  simp [Pool.run, Pool.step, next, advance, ExecuteProgress.ended, patient, waits, room, first]

/-- In every interleaving in which no two calls for one id enter the queue
together, a call in the waiting loop has its id in the queue, and it leaves the
loop once its id is first and there is room. -/
theorem queued_calls_listed (begun : start.Begun)
    (reached : Pool.Reaches (ExecuteCall.next config) QueuesInTime start pool) :
    ∀ i, (pool.calls i).progress.loops →
      (pool.store.queue.lookup (pool.calls i).id).isSome ∧
      ∀ maxConcurrent, (pool.calls i).patience = none →
        (pool.calls i).progress = .inQueue maxConcurrent →
        pool.store.watchers.size < maxConcurrent →
        pool.store.queue.oldest = some (pool.calls i).id →
          ((pool.run (ExecuteCall.next config) [i, i, i]).calls i).progress = .inserting true := by
  have first : Slotted start := by
    refine ⟨?_, ?_⟩
    · intro j looped
      rw [begun.looking j] at looped
      cases looped
    · rintro id j k ⟨queues, _⟩
      rw [begun.looking j] at queues
      cases queues
  have slotted : Slotted pool := reached.invariant first fun _ _ before => before.step
  intro i looped
  refine ⟨slotted.listed i looped, ?_⟩
  intro maxConcurrent patient waits room front
  exact leaves_loop patient waits room front

end

def oneAtATime : CoalescionConfig where
  maxConcurrent := some 1
  maxQueue := none

def twoIds (n : Nat) : CoalescionPool (Fin n) String Unit Nat where
  calls i :=
    { caller := i, id := if i.val = 0 then "other" else "id", type := (), func := some i.val
      patience := none, progress := .looking }
  store := {}

theorem twoIds_begun (n : Nat) : (twoIds n).Begun := ⟨fun _ => rfl, fun _ => rfl, rfl⟩

theorem queued_calls_listed_one_queued :
    ∃ pool, Pool.Reaches (ExecuteCall.next oneAtATime) QueuesInTime (twoIds 2) pool ∧
      (pool.calls 1).progress = .inQueue 1 ∧
      (pool.store.queue.lookup (pool.calls 1).id).isSome := by
  have reached : Pool.Reaches (next oneAtATime) QueuesInTime (twoIds 2)
      ((twoIds 2).run (next oneAtATime) [0, 0, 1, 1, 1]) :=
    reaches_run (by decide +kernel)
  exact ⟨_, reached, rfl, (queued_calls_listed (twoIds_begun 2) reached 1 rfl).1⟩

/-- Two calls for one id find no entry and both enter the queue; the first one
that leaves it takes the only slot away. -/
theorem queued_call_stranded :
    ∃ pool, (twoIds 3).Begun ∧ (∀ i, ((twoIds 3).calls i).patience = none) ∧
      Pool.Reaches (ExecuteCall.next oneAtATime) (fun _ _ => True) (twoIds 3) pool ∧
      (pool.calls 2).progress = .inQueue 1 ∧
      pool.store.queue.lookup (pool.calls 2).id = none := by
  refine ⟨(twoIds 3).run (next oneAtATime) [0, 0, 1, 2, 1, 2, 1, 2, 0, 0, 1, 1, 1],
    twoIds_begun 3, fun _ => rfl, reaches_run (admits_any _), rfl, ?_⟩
  decide +kernel

end Company
