import CompanyBackend.Library.HashMap
import CompanyBackend.Library.Interleaving

/-!
# The coalescing service

Calls for one id that overlap in time are meant to share one execution. The first call enters
a receiver into the watcher map and runs its function, and those that find the receiver wait
for the value that is sent. When too many functions are running, a call enters a receiver into
the queue instead, and waits there until its id comes first.

`execute` takes one lock after the other and may be dropped whenever it waits for one, for a
value or for its function. A step of a call is what it does between two such points. A channel
is named by the call that has created it and by what it is for, since a call creates at most
one channel of each kind. The function of a call is known by the value that it produces, if it
does not panic; a function that never ends belongs to a call that takes no more steps. How long
the caller has patience is part of the call.

There is no result cache here: the service can be built with one only if the crate is compiled
with a feature under which it refers to a type that is not in scope.
-/

namespace Company

structure CoalescionConfig where
  maxConcurrent : Option Nat := some 100
  queueRequests : Bool := true
  maxQueue : Option Nat := some 100
deriving DecidableEq

inductive CoalescionError where
  | recvError
  | maxConcurrent
  | maxQueue
  | downcastError
deriving DecidableEq

/-- A value together with its type, which is checked when the value is taken
out. -/
structure AnyValue (Ty V : Type) where
  type : Ty
  value : V

def AnyValue.downcast {Ty V : Type} [DecidableEq Ty] (type : Ty) (any : AnyValue Ty V) :
    Except CoalescionError V :=
  if any.type = type then .ok any.value else .error .downcastError

theorem AnyValue.downcast_eq_ok_iff {Ty V : Type} [DecidableEq Ty] {type : Ty} {any : AnyValue Ty V}
    {value : V} : any.downcast type = .ok value ↔ any.type = type ∧ any.value = value := by
  unfold downcast
  split
  · rename_i same
    rw [Except.ok.injEq, and_iff_right same]
  · rename_i other
    exact ⟨nofun, fun both => absurd both.1 other⟩

inductive ChannelUse where
  | watcher
  | queue
deriving DecidableEq

/-- The receiving end of a channel that a call has created. -/
structure Receiver (ι : Type) where
  caller : ι
  use : ChannelUse
deriving DecidableEq

/-- What the calls share: the two maps, and for each channel the value that was
sent and whether the sender is gone. In the queue a new entry is put in
front. -/
structure CoalescionService (ι Id Ty V : Type) where
  watchers : HashMap Id (Receiver ι) := ∅
  queue : HashMap Id (Receiver ι) := ∅
  sent : Receiver ι → Option (Except CoalescionError (AnyValue Ty V)) := fun _ => none
  dropped : Receiver ι → Bool := fun _ => false

/-- Where a call is. From the queue on, `queued` tells whether it has come
through the queue. -/
inductive ExecuteProgress (ι V : Type) where
  | looking
  | lookingInQueue (maxConcurrent : Nat)
  | waiting (receiver : Receiver ι)
  | enqueueing (maxConcurrent : Nat)
  | inQueue (maxConcurrent : Nat)
  | checkingFirst (maxConcurrent : Nat)
  | leavingQueue
  | inserting (queued : Bool)
  | running (queued : Bool)
  | removing (queued : Bool) (value : V)
  | finished (result : Except CoalescionError V)
  | panicked
  | cancelled

structure ExecuteCall (ι Id Ty V : Type) where
  caller : ι
  id : Id
  type : Ty
  func : Option V
  patience : Option Nat
  progress : ExecuteProgress ι V

namespace CoalescionService

variable {ι Id Ty V : Type} [DecidableEq ι]

def send (receiver : Receiver ι) (any : AnyValue Ty V) (service : CoalescionService ι Id Ty V) :
    CoalescionService ι Id Ty V :=
  { service with sent := Function.update service.sent receiver (some (.ok any)) }

def dropSenders (caller : ι) (service : CoalescionService ι Id Ty V) :
    CoalescionService ι Id Ty V :=
  { service with dropped := fun receiver => receiver.caller = caller || service.dropped receiver }

/-- The end of an execution: the watcher is removed, and a call that has come
through the queue sends its value there too. -/
def conclude [DecidableEq Id] (caller : ι) (id : Id) (queued : Bool) (any : AnyValue Ty V)
    (service : CoalescionService ι Id Ty V) : CoalescionService ι Id Ty V :=
  let removed := { service with watchers := service.watchers.erase id }
  let answered := if queued then removed.send ⟨caller, .queue⟩ any else removed
  answered.dropSenders caller

variable {service : CoalescionService ι Id Ty V} {receiver : Receiver ι} (any : AnyValue Ty V)

theorem sent_send : (service.send receiver any).sent =
      Function.update service.sent receiver (some (.ok any)) :=
  rfl

theorem isSome_sent_send : ((service.send receiver any).sent receiver).isSome := by
  rw [sent_send, Function.update_self, Option.isSome_some]

theorem isSome_sent_send_of_sent {other : Receiver ι}
    (sent : (service.sent receiver).isSome) : ((service.send other any).sent receiver).isSome := by
  by_cases same : receiver = other
  · rw [same]
    exact isSome_sent_send any
  · rwa [sent_send, Function.update_of_ne same]

section Conclude

variable [DecidableEq Id] {caller : ι} {id : Id} {queued : Bool} {any : AnyValue Ty V}

theorem watchers_conclude :
    (service.conclude caller id queued any).watchers = service.watchers.erase id := by
  cases queued <;> rfl

theorem queue_conclude : (service.conclude caller id queued any).queue = service.queue := by
  cases queued <;> rfl

theorem sent_conclude : (service.conclude caller id queued any).sent =
    if queued then (service.send ⟨caller, .queue⟩ any).sent else service.sent := by
  cases queued <;> rfl

theorem dropped_conclude : (service.conclude caller id queued any).dropped receiver =
    (receiver.caller = caller || service.dropped receiver) := by
  cases queued <;> rfl

end Conclude

end CoalescionService

/-- So many functions are running that no other one may start. -/
def CoalescionConfig.full {ι Id Ty V : Type} (config : CoalescionConfig)
    (service : CoalescionService ι Id Ty V) : Bool :=
  config.maxConcurrent.any fun maxConcurrent => maxConcurrent ≤ service.watchers.size

namespace ExecuteProgress

variable {ι V : Type}

def ended : ExecuteProgress ι V → Bool
  | finished _ | panicked | cancelled => true
  | _ => false

def inProgress : ExecuteProgress ι V → Bool
  | looking | finished _ | panicked | cancelled => false
  | _ => true

def loops : ExecuteProgress ι V → Bool
  | inQueue _ | checkingFirst _ | leavingQueue => true
  | _ => false

/-- What holds in each place of the loop holds of a call in the loop. -/
@[elab_as_elim]
theorem of_loops {P : ExecuteProgress ι V → Prop} {progress : ExecuteProgress ι V}
    (looped : progress.loops) (inQueue : ∀ maxConcurrent, P (.inQueue maxConcurrent))
    (checkingFirst : ∀ maxConcurrent, P (.checkingFirst maxConcurrent))
    (leavingQueue : P .leavingQueue) : P progress := by
  cases progress with
  | inQueue maxConcurrent => exact inQueue maxConcurrent
  | checkingFirst maxConcurrent => exact checkingFirst maxConcurrent
  | leavingQueue => exact leavingQueue
  | _ => cases looped

/-- The watcher of the call has been entered and not been removed. -/
def watched : ExecuteProgress ι V → Bool
  | running _ | removing _ _ => true
  | _ => false

/-- The execution has been entered into one of the maps, and its watcher not
been removed. -/
def executing : ExecuteProgress ι V → Bool
  | inQueue _ | checkingFirst _ | leavingQueue | running _ | removing _ _ => true
  | inserting queued => queued
  | _ => false

end ExecuteProgress

namespace ExecuteCall

variable {ι Id Ty V : Type} [DecidableEq ι] [DecidableEq Id] [DecidableEq Ty]

variable (config : CoalescionConfig) (call : ExecuteCall ι Id Ty V)
variable (service : CoalescionService ι Id Ty V)

def advance : ExecuteProgress ι V × CoalescionService ι Id Ty V :=
  match call.progress with
  | .looking =>
    match service.watchers.lookup call.id with
    | some receiver => (.waiting receiver, service)
    | none =>
      match config.maxConcurrent with
      | some maxConcurrent =>
        if maxConcurrent ≤ service.watchers.size then
          if config.queueRequests then (.lookingInQueue maxConcurrent, service)
          else (.finished (.error .maxConcurrent), service)
        else (.inserting false, service)
      | none => (.inserting false, service)
  | .lookingInQueue maxConcurrent =>
    match service.queue.lookup call.id with
    | some receiver => (.waiting receiver, service)
    | none =>
      if config.maxQueue.any fun maxQueue => service.queue.size ≤ maxQueue then
        (.finished (.error .maxQueue), service)
      else (.enqueueing maxConcurrent, service)
  | .waiting receiver =>
    match service.sent receiver with
    | some (.ok any) => (.finished (any.downcast call.type), service)
    | some (.error error) => (.finished (.error error), service)
    | none =>
      if service.dropped receiver then (.finished (.error .recvError), service)
      else (.waiting receiver, service)
  | .enqueueing maxConcurrent =>
    (.inQueue maxConcurrent,
      { service with queue := service.queue.put call.id ⟨call.caller, .queue⟩ })
  | .inQueue maxConcurrent =>
    if service.watchers.size < maxConcurrent then (.checkingFirst maxConcurrent, service)
    else (.inQueue maxConcurrent, service)
  | .checkingFirst maxConcurrent =>
    if service.queue.oldest = some call.id then (.leavingQueue, service)
    else (.inQueue maxConcurrent, service)
  | .leavingQueue => (.inserting true, { service with queue := service.queue.erase call.id })
  | .inserting queued =>
    (.running queued,
      { service with watchers := service.watchers.put call.id ⟨call.caller, .watcher⟩ })
  | .running queued =>
    match call.func with
    | some value =>
      (.removing queued value, service.send ⟨call.caller, .watcher⟩ ⟨call.type, value⟩)
    | none => (.panicked, service.dropSenders call.caller)
  | .removing queued value =>
    (.finished (.ok value), service.conclude call.caller call.id queued ⟨call.type, value⟩)
  | .finished result => (.finished result, service)
  | .panicked => (.panicked, service)
  | .cancelled => (.cancelled, service)

/-- The next step of a call: a call without patience is dropped, wherever it
waits. -/
def next : ExecuteCall ι Id Ty V × CoalescionService ι Id Ty V :=
  if call.progress.ended then (call, service)
  else
    match call.patience with
    | some 0 => ({ call with progress := .cancelled }, service.dropSenders call.caller)
    | patience =>
      let after := call.advance config service
      ({ call with patience := patience.map (· - 1), progress := after.1 }, after.2)

variable {config : CoalescionConfig} {call : ExecuteCall ι Id Ty V}
variable {service : CoalescionService ι Id Ty V}

structure SameCall (call call' : ExecuteCall ι Id Ty V) : Prop where
  caller : call'.caller = call.caller
  id : call'.id = call.id
  type : call'.type = call.type
  func : call'.func = call.func

omit [DecidableEq ι] [DecidableEq Id] [DecidableEq Ty] in
theorem SameCall.trans {call' call'' : ExecuteCall ι Id Ty V} (first : call.SameCall call')
    (second : call'.SameCall call'') : call.SameCall call'' where
  caller := second.caller.trans first.caller
  id := second.id.trans first.id
  type := second.type.trans first.type
  func := second.func.trans first.func

theorem sameCall_next : call.SameCall (call.next config service).1 := by
  unfold next
  split
  · exact ⟨rfl, rfl, rfl, rfl⟩
  · split
    · exact ⟨rfl, rfl, rfl, rfl⟩
    · exact ⟨rfl, rfl, rfl, rfl⟩

/-- What a step of a call can do. -/
inductive Steps (config : CoalescionConfig) (call : ExecuteCall ι Id Ty V)
    (service : CoalescionService ι Id Ty V) :
    ExecuteProgress ι V → CoalescionService ι Id Ty V → Prop
  | rests (ended : call.progress.ended) : Steps config call service call.progress service
  | cancels (live : call.progress.ended = false) (impatient : call.patience = some 0) :
      Steps config call service .cancelled (service.dropSenders call.caller)
  | finds {receiver : Receiver ι} (current : call.progress = .looking)
      (found : service.watchers.lookup call.id = some receiver) :
      Steps config call service (.waiting receiver) service
  | turnsToQueue {maxConcurrent : Nat} (current : call.progress = .looking)
      (missing : service.watchers.lookup call.id = none) (full : config.full service)
      (limit : config.maxConcurrent = some maxConcurrent) (queues : config.queueRequests) :
      Steps config call service (.lookingInQueue maxConcurrent) service
  | refused (current : call.progress = .looking)
      (missing : service.watchers.lookup call.id = none) (full : config.full service)
      (direct : config.queueRequests = false) :
      Steps config call service (.finished (.error .maxConcurrent)) service
  | decides (current : call.progress = .looking)
      (missing : service.watchers.lookup call.id = none) (room : config.full service = false) :
      Steps config call service (.inserting false) service
  | findsQueued {maxConcurrent : Nat} {receiver : Receiver ι}
      (current : call.progress = .lookingInQueue maxConcurrent)
      (found : service.queue.lookup call.id = some receiver) :
      Steps config call service (.waiting receiver) service
  | refusedQueue {maxConcurrent : Nat} (current : call.progress = .lookingInQueue maxConcurrent)
      (missing : service.queue.lookup call.id = none)
      (short : config.maxQueue.any fun maxQueue => service.queue.size ≤ maxQueue) :
      Steps config call service (.finished (.error .maxQueue)) service
  | decidesToQueue {maxConcurrent : Nat}
      (current : call.progress = .lookingInQueue maxConcurrent)
      (missing : service.queue.lookup call.id = none) :
      Steps config call service (.enqueueing maxConcurrent) service
  | receives {receiver : Receiver ι} {content : Except CoalescionError (AnyValue Ty V)}
      (current : call.progress = .waiting receiver) (sent : service.sent receiver = some content) :
      Steps config call service (.finished (content.bind (AnyValue.downcast call.type))) service
  | loses {receiver : Receiver ι} (current : call.progress = .waiting receiver)
      (empty : service.sent receiver = none) (dropped : service.dropped receiver) :
      Steps config call service (.finished (.error .recvError)) service
  | waits {receiver : Receiver ι} (current : call.progress = .waiting receiver) :
      Steps config call service (.waiting receiver) service
  | enters {maxConcurrent : Nat} (current : call.progress = .enqueueing maxConcurrent) :
      Steps config call service (.inQueue maxConcurrent)
        { service with queue := service.queue.put call.id ⟨call.caller, .queue⟩ }
  | loops {progress : ExecuteProgress ι V} (before : call.progress.loops)
      (after : progress.loops) : Steps config call service progress service
  | leaves (current : call.progress = .leavingQueue) :
      Steps config call service (.inserting true)
        { service with queue := service.queue.erase call.id }
  | inserts {queued : Bool} (current : call.progress = .inserting queued) :
      Steps config call service (.running queued)
        { service with watchers := service.watchers.put call.id ⟨call.caller, .watcher⟩ }
  | sends {queued : Bool} {value : V} (current : call.progress = .running queued)
      (produced : call.func = some value) :
      Steps config call service (.removing queued value)
        (service.send ⟨call.caller, .watcher⟩ ⟨call.type, value⟩)
  | panics {queued : Bool} (current : call.progress = .running queued)
      (panicked : call.func = none) :
      Steps config call service .panicked (service.dropSenders call.caller)
  | removes {queued : Bool} {value : V} (current : call.progress = .removing queued value) :
      Steps config call service (.finished (.ok value))
        (service.conclude call.caller call.id queued ⟨call.type, value⟩)

theorem advance_looking (current : call.progress = .looking) :
    call.Steps config service (call.advance config service).1 (call.advance config service).2 := by
  unfold advance
  rw [current]
  dsimp only
  split
  · rename_i receiver found
    exact .finds current found
  · rename_i missing
    split
    · rename_i maxConcurrent limit
      split
      · rename_i reached
        have full : config.full service := by
          rw [CoalescionConfig.full, limit, Option.any_some, decide_eq_true reached]
        split
        · rename_i queues
          exact .turnsToQueue current missing full limit queues
        · rename_i direct
          exact .refused current missing full (Bool.eq_false_iff.mpr direct)
      · rename_i below
        refine .decides current missing ?_
        rw [CoalescionConfig.full, limit, Option.any_some, decide_eq_false below]
    · rename_i unlimited
      refine .decides current missing ?_
      rw [CoalescionConfig.full, unlimited, Option.any_none]

theorem advance_steps (live : call.progress.ended = false) :
    call.Steps config service (call.advance config service).1 (call.advance config service).2 := by
  cases current : call.progress with
  | looking => exact advance_looking current
  | lookingInQueue maxConcurrent =>
    unfold advance
    rw [current]
    dsimp only
    split
    · rename_i receiver found
      exact .findsQueued current found
    · rename_i missing
      split
      · rename_i short
        exact .refusedQueue current missing short
      · exact .decidesToQueue current missing
  | waiting receiver =>
    unfold advance
    rw [current]
    dsimp only
    split
    · rename_i any sent
      exact .receives current sent
    · rename_i error sent
      exact .receives current sent
    · rename_i empty
      split
      · rename_i dropped
        exact .loses current empty dropped
      · exact .waits current
  | enqueueing maxConcurrent =>
    unfold advance
    rw [current]
    exact .enters current
  | inQueue maxConcurrent | checkingFirst maxConcurrent =>
    unfold advance
    have before : call.progress.loops := by rw [current]; rfl
    rw [current]
    dsimp only
    split
    · exact .loops before rfl
    · exact .loops before rfl
  | leavingQueue =>
    unfold advance
    rw [current]
    exact .leaves current
  | inserting queued =>
    unfold advance
    rw [current]
    exact .inserts current
  | running queued =>
    unfold advance
    rw [current]
    dsimp only
    split
    · rename_i value produced
      exact .sends current produced
    · rename_i panicked
      exact .panics current panicked
  | removing queued value =>
    unfold advance
    rw [current]
    exact .removes current
  | finished result | panicked | cancelled =>
    rw [current] at live
    cases live

theorem next_steps (config : CoalescionConfig) (call : ExecuteCall ι Id Ty V)
    (service : CoalescionService ι Id Ty V) :
    call.Steps config service (call.next config service).1.progress
      (call.next config service).2 := by
  unfold next
  split
  · rename_i ended
    exact .rests ended
  · rename_i live
    have live := Bool.eq_false_iff.mpr live
    split
    · rename_i impatient
      exact .cancels live impatient
    · exact advance_steps live

end ExecuteCall

abbrev CoalescionPool (ι Id Ty V : Type) :=
  Pool ι (ExecuteCall ι Id Ty V) (CoalescionService ι Id Ty V)

/-- Calls that have not started, at a new service. -/
structure CoalescionPool.Begun {ι Id Ty V : Type} (start : CoalescionPool ι Id Ty V) : Prop where
  named : ∀ i, (start.calls i).caller = i
  looking : ∀ i, (start.calls i).progress = .looking
  empty : start.store = {}

end Company
