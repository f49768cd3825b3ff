import CompanyBackend.Coalesced.Service

/-!
# Receivers and executions

A receiver that is found in one of the maps belongs to an execution that is under way: the call
that has entered it removes the entry of its id, whoever has entered that, before its own
execution is over. So nobody waits in vain, even where several executions for one id overwrite
and remove each other's entries.

This rests on every execution coming to its end. A call that is dropped in the middle of its
execution, or whose function panics, leaves its entry behind. The invariants below are those of
the interleavings in which this does not happen; calls may be dropped at all other points.
-/

namespace Company

open ExecuteProgress CoalescionService

variable {use : ChannelUse}

namespace ExecuteProgress

variable {ι V : Type}

def isRunning : ExecuteProgress ι V → Bool
  | running _ => true
  | _ => false

/-- The call has entered the receiver of a channel, or is about to, and has not
yet sent the value. -/
def owes : ExecuteProgress ι V → ChannelUse → Bool
  | running _, .watcher => true
  | inQueue _, .queue => true
  | checkingFirst _, .queue => true
  | leavingQueue, .queue => true
  | inserting queued, .queue => queued
  | running queued, .queue => queued
  | removing queued _, .queue => queued
  | _, _ => false

variable {progress : ExecuteProgress ι V}

theorem not_executing_of_ended (ended : progress.ended) : progress.executing = false := by
  cases progress with
  | finished _ | panicked | cancelled => rfl
  | _ => cases ended

theorem isRunning_eq_owes (progress : ExecuteProgress ι V) :
    progress.isRunning = progress.owes .watcher := by
  cases progress <;> rfl

theorem executing_of_owes (owes : progress.owes use) : progress.executing := by
  cases progress with
  | inserting queued =>
    cases use with
    | watcher => cases owes
    | queue => exact owes
  | inQueue _ | checkingFirst _ | leavingQueue | running _ | removing _ _ => rfl
  | _ => cases use <;> cases owes

theorem executing_of_watched (watched : progress.watched) : progress.executing := by
  cases progress with
  | running _ | removing _ _ => rfl
  | _ => cases watched

theorem executing_of_loops (loops : progress.loops) : progress.executing :=
  of_loops loops (fun _ => rfl) (fun _ => rfl) rfl

theorem not_watched_of_not_executing (idle : progress.executing = false) :
    progress.watched = false := by
  rw [Bool.eq_false_iff] at idle ⊢
  exact mt executing_of_watched idle

theorem not_loops_of_not_executing (idle : progress.executing = false) :
    progress.loops = false := by
  rw [Bool.eq_false_iff] at idle ⊢
  exact mt executing_of_loops idle

theorem owes_of_loops (loops : progress.loops) : progress.owes .queue :=
  of_loops loops (fun _ => rfl) (fun _ => rfl) rfl

theorem not_ended_of_executing (executing : progress.executing) : progress.ended = false := by
  rw [Bool.eq_false_iff]
  intro ended
  rw [not_executing_of_ended ended] at executing
  cases executing

theorem not_owes_of_loops (loops : progress.loops) : progress.owes .watcher = false :=
  of_loops loops (fun _ => rfl) (fun _ => rfl) rfl

theorem not_watched_of_loops (loops : progress.loops) : progress.watched = false :=
  of_loops loops (fun _ => rfl) (fun _ => rfl) rfl

end ExecuteProgress

section Moves

variable {ι Id Ty V : Type} [DecidableEq ι] [DecidableEq Id]

/-- What a step of a call can do, if no execution is abandoned. -/
inductive ExecuteMoves (call : ExecuteCall ι Id Ty V) (service : CoalescionService ι Id Ty V) :
    ExecuteProgress ι V → CoalescionService ι Id Ty V → Prop
  | idles {progress : ExecuteProgress ι V} {service' : CoalescionService ι Id Ty V}
      (before : call.progress.executing = false) (after : progress.executing = false)
      (waiting : ∀ receiver, progress = .waiting receiver → call.progress = .waiting receiver)
      (ended : call.progress.ended → progress.ended)
      (watchers : service'.watchers = service.watchers) (queue : service'.queue = service.queue)
      (sent : service'.sent = service.sent)
      (dropped : ∀ receiver, service'.dropped receiver →
        service.dropped receiver ∨ receiver.caller = call.caller ∧ progress.ended) :
      ExecuteMoves call service progress service'
  | waits {receiver : Receiver ι} (before : call.progress.executing = false)
      (live : call.progress.ended = false)
      (found : service.watchers.lookup call.id = some receiver ∨
        service.queue.lookup call.id = some receiver) :
      ExecuteMoves call service (.waiting receiver) service
  | enters {maxConcurrent : Nat} (current : call.progress = .enqueueing maxConcurrent) :
      ExecuteMoves call service (.inQueue maxConcurrent)
        { service with queue := service.queue.put call.id ⟨call.caller, .queue⟩ }
  | loops {progress : ExecuteProgress ι V} (before : call.progress.loops)
      (after : progress.loops) : ExecuteMoves call service progress service
  | leaves (current : call.progress = .leavingQueue) :
      ExecuteMoves call service (.inserting true)
        { service with queue := service.queue.erase call.id }
  | inserts {queued : Bool} (current : call.progress = .inserting queued) :
      ExecuteMoves call service (.running queued)
        { service with watchers := service.watchers.put call.id ⟨call.caller, .watcher⟩ }
  | sends {queued : Bool} {value : V} (current : call.progress = .running queued)
      (produced : call.func = some value) :
      ExecuteMoves call service (.removing queued value)
        (service.send ⟨call.caller, .watcher⟩ ⟨call.type, value⟩)
  | removes {queued : Bool} {value : V} (current : call.progress = .removing queued value) :
      ExecuteMoves call service (.finished (.ok value))
        (service.conclude call.caller call.id queued ⟨call.type, value⟩)

variable {call : ExecuteCall ι Id Ty V} {service : CoalescionService ι Id Ty V}

/-- A call that is neither executing nor over goes on, without waiting for
another one. -/
theorem ExecuteMoves.passes {before progress : ExecuteProgress ι V}
    (current : call.progress = before) (idle : before.executing = false)
    (live : before.ended = false) (after : progress.executing = false)
    (waiting : ∀ receiver, progress ≠ .waiting receiver) :
    ExecuteMoves call service progress service := by
  subst current
  refine .idles idle after ?_ ?_ rfl rfl rfl fun _ dropped => .inl dropped
  · intro receiver same
    exact absurd same (waiting receiver)
  · intro ended
    rw [live] at ended
    cases ended

variable {progress : ExecuteProgress ι V}

theorem ExecuteMoves.rests (current : call.progress = progress)
    (before : progress.executing = false) : ExecuteMoves call service progress service := by
  subst current
  exact .idles before before (fun _ same => same) (fun ended => ended) rfl rfl rfl
    fun _ dropped => .inl dropped

variable {service' : CoalescionService ι Id Ty V}

/-- A call that waits was waiting before, or has found the receiver. -/
theorem ExecuteMoves.waiting_cases {receiver : Receiver ι}
    (moved : ExecuteMoves call service progress service') (waits : progress = .waiting receiver) :
    call.progress = .waiting receiver ∨
      call.progress.executing = false ∧ (service.watchers.lookup call.id = some receiver ∨
        service.queue.lookup call.id = some receiver) := by
  cases moved with
  | idles _ _ waiting => exact .inl (waiting receiver waits)
  | waits before _ found =>
    cases waits
    exact .inr ⟨before, found⟩
  | loops _ after =>
    rw [waits] at after
    cases after
  | _ => cases waits

/-- No execution is abandoned: a call is not dropped during its execution, and
its function does not panic. -/
def ExecuteCall.Completes (call : ExecuteCall ι Id Ty V) : Prop :=
  (call.progress.executing → call.patience ≠ some 0) ∧ (call.progress.isRunning → call.func.isSome)

variable [DecidableEq Ty] {config : CoalescionConfig}

theorem ExecuteCall.Steps.moves (steps : call.Steps config service progress service')
    (completes : call.Completes) : ExecuteMoves call service progress service' := by
  cases steps with
  | rests ended => exact .rests rfl (not_executing_of_ended ended)
  | cancels live impatient =>
    -- A call without patience is not in the middle of its execution.
    have before : call.progress.executing = false := by
      rw [Bool.eq_false_iff]
      intro executing
      exact completes.1 executing impatient
    refine .idles before rfl nofun (fun _ => rfl) rfl rfl rfl ?_
    intro receiver gone
    obtain own | earlier := Bool.or_eq_true_iff.mp gone
    · exact .inr ⟨of_decide_eq_true own, rfl⟩
    · exact .inl earlier
  | finds current found =>
    exact .waits (by rw [current]; rfl) (by rw [current]; rfl) (.inl found)
  | findsQueued current found =>
    exact .waits (by rw [current]; rfl) (by rw [current]; rfl) (.inr found)
  | turnsToQueue current | refused current | decides current | refusedQueue current
  | decidesToQueue current | receives current
  | loses current => exact .passes current rfl rfl rfl nofun
  | waits current => exact .rests current rfl
  | enters current => exact .enters current
  | loops before after => exact .loops before after
  | leaves current => exact .leaves current
  | inserts current => exact .inserts current
  | sends current produced => exact .sends current produced
  | panics current panicked =>
    have produces := completes.2 (by rw [current]; rfl)
    rw [panicked] at produces
    cases produces
  | removes current => exact .removes current

theorem ExecuteCall.next_moves (config : CoalescionConfig) (service : CoalescionService ι Id Ty V)
    (completes : call.Completes) :
    ExecuteMoves call service (call.next config service).1.progress (call.next config service).2 :=
  (next_steps config call service).moves completes

end Moves

/-! ## The invariants of the maps and the channels -/

section Coherence

variable {ι Id Ty V : Type} [DecidableEq ι] [DecidableEq Id]
variable {start pool pool' : CoalescionPool ι Id Ty V} {i : ι}

/-- The receivers in a map were entered under their id, and the calls that have
created them are in a certain part of their execution. -/
def Filed (map : HashMap Id (Receiver ι)) (use : ChannelUse)
    (phase : ExecuteProgress ι V → Bool) (pool : CoalescionPool ι Id Ty V) : Prop :=
  ∀ id receiver, map.lookup id = some receiver →
    (pool.calls receiver.caller).id = id ∧ receiver.use = use ∧
      phase (pool.calls receiver.caller).progress

section

variable (pool : CoalescionPool ι Id Ty V)

/-- A value is in the channel, or the call that has created the channel will
send it. -/
def Delivers (receiver : Receiver ι) : Prop :=
  (pool.store.sent receiver).isSome ∨ (pool.calls receiver.caller).progress.owes receiver.use

/-- The receivers in the maps belong to executions for their id that are under
way, what was sent was produced by the function of the sender, and nobody waits
in vain. -/
structure Coherent : Prop where
  named : ∀ i, (pool.calls i).caller = i
  watchers : Filed pool.store.watchers .watcher watched pool
  queue : Filed pool.store.queue .queue loops pool
  sent : ∀ receiver content, pool.store.sent receiver = some content →
    ∃ value, (pool.calls receiver.caller).func = some value ∧
      content = .ok ⟨(pool.calls receiver.caller).type, value⟩
  removing : ∀ i queued value, (pool.calls i).progress = .removing queued value →
    (pool.calls i).func = some value ∧ (pool.store.sent ⟨i, .watcher⟩).isSome
  waiting : ∀ i receiver, (pool.calls i).progress = .waiting receiver →
    (pool.calls receiver.caller).id = (pool.calls i).id ∧ Delivers pool receiver
  dropped : ∀ receiver, pool.store.dropped receiver → (pool.calls receiver.caller).progress.ended

structure CoalescionStep (i : ι) (pool' : CoalescionPool ι Id Ty V) (progress : ExecuteProgress ι V)
    (service : CoalescionService ι Id Ty V) : Prop where
  moved : ExecuteMoves (pool.calls i) pool.store progress service
  current : (pool'.calls i).progress = progress
  store : pool'.store = service
  same : ∀ j, (pool.calls j).SameCall (pool'.calls j)
  others : ∀ j, j ≠ i → pool'.calls j = pool.calls j

end

variable {progress : ExecuteProgress ι V} {service : CoalescionService ι Id Ty V}
variable {map : HashMap Id (Receiver ι)} {phase : ExecuteProgress ι V → Bool}

section

variable (filed : Filed map use phase pool) (taken : CoalescionStep pool i pool' progress service)

include filed taken

/-- A map stays good if the call that has moved stays in the phase. -/
theorem Filed.keep
    (still : phase (pool.calls i).progress → phase progress) : Filed map use phase pool' := by
  intro id receiver found
  obtain ⟨own, used, inPhase⟩ := filed id receiver found
  refine ⟨(taken.same _).id.trans own, used, ?_⟩
  by_cases acts : receiver.caller = i
  · rw [acts, taken.current]
    rw [acts] at inPhase
    exact still inPhase
  · rwa [taken.others _ acts]

theorem Filed.keep_of_not
    (out : phase (pool.calls i).progress = false) : Filed map use phase pool' := by
  refine filed.keep taken fun inPhase => ?_
  rw [out] at inPhase
  cases inPhase

theorem Filed.put (named : (pool.calls i).caller = i)
    (still : phase (pool.calls i).progress → phase progress) (inPhase : phase progress) :
    Filed (map.put (pool.calls i).id ⟨(pool.calls i).caller, use⟩) use phase pool' := by
  refine HashMap.forall_put (P := fun id (receiver : Receiver ι) =>
    (pool'.calls receiver.caller).id = id ∧ receiver.use = use ∧
      phase (pool'.calls receiver.caller).progress) (filed.keep taken still) ?_
  rw [named]
  refine ⟨(taken.same i).id, rfl, ?_⟩
  rwa [taken.current]

/-- The call that has moved has removed the entry of its id, and with it its own
receiver. -/
theorem Filed.erase : Filed (map.erase (pool.calls i).id) use phase pool' := by
  intro id receiver found
  by_cases same : id = (pool.calls i).id
  · rw [same, AList.lookup_erase] at found
    cases found
  · rw [AList.lookup_erase_ne same] at found
    obtain ⟨own, used, inPhase⟩ := filed id receiver found
    have other : receiver.caller ≠ i := by
      intro acts
      rw [acts] at own
      exact same own.symm
    rw [taken.others _ other]
    exact ⟨own, used, inPhase⟩

end

section

variable (coherent : Coherent pool) (taken : CoalescionStep pool i pool' progress service)

include coherent taken

theorem Coherent.watchers_step :
    Filed pool'.store.watchers .watcher watched pool' := by
  have filed := coherent.watchers
  rw [taken.store]
  cases taken.moved with
  | idles before _ _ _ watchers =>
    rw [watchers]
    exact filed.keep_of_not taken (not_watched_of_not_executing before)
  | waits before =>
    exact filed.keep_of_not taken (not_watched_of_not_executing before)
  | enters current | leaves current => exact filed.keep_of_not taken (by rw [current]; rfl)
  | loops before => exact filed.keep_of_not taken (not_watched_of_loops before)
  | inserts => exact filed.put taken (coherent.named i) (fun _ => rfl) rfl
  | sends => exact filed.keep taken fun _ => rfl
  | removes =>
    rw [watchers_conclude]
    exact filed.erase taken

theorem Coherent.queue_step : Filed pool'.store.queue .queue loops pool' := by
  have filed := coherent.queue
  rw [taken.store]
  cases taken.moved with
  | idles before _ _ _ _ queue =>
    rw [queue]
    exact filed.keep_of_not taken (not_loops_of_not_executing before)
  | waits before =>
    exact filed.keep_of_not taken (not_loops_of_not_executing before)
  | enters => exact filed.put taken (coherent.named i) (fun _ => rfl) rfl
  | loops _ after => exact filed.keep taken fun _ => after
  | leaves => exact filed.erase taken
  | inserts current | sends current => exact filed.keep_of_not taken (by rw [current]; rfl)
  | removes current =>
    rw [queue_conclude]
    exact filed.keep_of_not taken (by rw [current]; rfl)

variable {receiver : Receiver ι}

omit coherent in
theorem CoalescionStep.sent_kept (present : (pool.store.sent receiver).isSome) :
    (pool'.store.sent receiver).isSome := by
  rw [taken.store]
  cases taken.moved with
  | idles _ _ _ _ _ _ sent => rwa [sent]
  | waits | enters | loops | leaves | inserts => exact present
  | sends => exact isSome_sent_send_of_sent _ present
  | removes =>
    rw [sent_conclude]
    split
    · exact isSome_sent_send_of_sent _ present
    · exact present

theorem Coherent.sent_step (receiver : Receiver ι)
    (content : Except CoalescionError (AnyValue Ty V))
    (sent : pool'.store.sent receiver = some content) :
    ∃ value, (pool'.calls receiver.caller).func = some value ∧
      content = .ok ⟨(pool'.calls receiver.caller).type, value⟩ := by
  rw [(taken.same _).func, (taken.same _).type]
  have update : ∀ (use : ChannelUse) (value : V), (pool.calls i).func = some value →
      Function.update pool.store.sent ⟨(pool.calls i).caller, use⟩
        (some (.ok ⟨(pool.calls i).type, value⟩)) receiver = some content →
      ∃ value, (pool.calls receiver.caller).func = some value ∧
        content = .ok ⟨(pool.calls receiver.caller).type, value⟩ := by
    intro use value produced written
    by_cases same : receiver = ⟨(pool.calls i).caller, use⟩
    · rw [same, Function.update_self] at written
      rw [same, coherent.named i]
      exact ⟨value, produced, (Option.some.inj written).symm⟩
    · rw [Function.update_of_ne same] at written
      exact coherent.sent receiver content written
  rw [taken.store] at sent
  cases taken.moved with
  | idles _ _ _ _ _ _ kept =>
    rw [kept] at sent
    exact coherent.sent receiver content sent
  | waits | enters | loops | leaves | inserts => exact coherent.sent receiver content sent
  | sends _ produced => exact update .watcher _ produced sent
  | removes current =>
    rw [sent_conclude] at sent
    split at sent
    · exact update .queue _ (coherent.removing i _ _ current).1 sent
    · exact coherent.sent receiver content sent

theorem Coherent.removing_step (j : ι) (queued : Bool) (value : V)
    (removes : (pool'.calls j).progress = .removing queued value) :
    (pool'.calls j).func = some value ∧ (pool'.store.sent ⟨j, .watcher⟩).isSome := by
  rw [(taken.same j).func]
  by_cases acts : j = i
  · subst acts
    rw [taken.current] at removes
    cases taken.moved with
    | idles _ after | loops _ after =>
      rw [removes] at after
      cases after
    | waits | enters | leaves | inserts | removes => cases removes
    | sends _ produced =>
      cases removes
      refine ⟨produced, ?_⟩
      rw [taken.store, coherent.named j]
      exact isSome_sent_send _
  · rw [taken.others j acts] at removes
    obtain ⟨produced, sent⟩ := coherent.removing j queued value removes
    exact ⟨produced, taken.sent_kept sent⟩

/-- A channel that delivers goes on to do so. -/
theorem Coherent.delivers_step (delivers : Delivers pool receiver) : Delivers pool' receiver := by
  obtain sent | owes := delivers
  · exact .inl (taken.sent_kept sent)
  by_cases acts : receiver.caller = i
  · obtain ⟨caller, use⟩ := receiver
    subst acts
    rw [Delivers, taken.current, taken.store]
    cases taken.moved with
    | idles before | waits before =>
      rw [executing_of_owes owes] at before
      cases before
    | enters current =>
      rw [current] at owes
      cases use with
      | watcher | queue => cases owes
    | loops before after =>
      cases use with
      | watcher =>
        rw [not_owes_of_loops before] at owes
        cases owes
      | queue => exact .inr (owes_of_loops after)
    | leaves current =>
      rw [current] at owes
      cases use with
      | watcher => cases owes
      | queue => exact .inr rfl
    | inserts current =>
      rw [current] at owes
      cases use with
      | watcher => exact .inr rfl
      | queue => exact .inr owes
    | sends current =>
      rw [current] at owes
      cases use with
      | watcher =>
        left
        rw [coherent.named caller]
        exact isSome_sent_send _
      | queue => exact .inr owes
    | @removes queued value current =>
      rw [current] at owes
      cases use with
      | watcher => cases owes
      | queue =>
        left
        obtain rfl : queued = true := owes
        rw [coherent.named caller, sent_conclude, if_pos rfl]
        exact isSome_sent_send _
  · right
    rwa [taken.others _ acts]

omit taken in
omit [DecidableEq ι] in
theorem Coherent.delivers_found {id : Id} (found : pool.store.watchers.lookup id = some receiver ∨
      pool.store.queue.lookup id = some receiver) :
    (pool.calls receiver.caller).id = id ∧
      (pool.calls receiver.caller).progress.executing ∧ Delivers pool receiver := by
  obtain found | found := found
  · obtain ⟨own, used, watched⟩ := coherent.watchers id receiver found
    refine ⟨own, executing_of_watched watched, ?_⟩
    obtain ⟨caller, use⟩ := receiver
    subst used
    cases current : (pool.calls caller).progress with
    | running queued =>
      right
      rw [current]
      rfl
    | removing queued value => exact .inl (coherent.removing caller queued value current).2
    | _ =>
      rw [current] at watched
      cases watched
  · obtain ⟨own, used, looped⟩ := coherent.queue id receiver found
    refine ⟨own, executing_of_loops looped, .inr ?_⟩
    rw [used]
    exact owes_of_loops looped

omit taken in
omit [DecidableEq ι] in
/-- Where nothing has been sent, the sender is not gone. -/
theorem Coherent.not_dropped (delivers : Delivers pool receiver)
    (empty : pool.store.sent receiver = none) : pool.store.dropped receiver = false := by
  rw [Bool.eq_false_iff]
  intro gone
  have ended := coherent.dropped receiver gone
  obtain sent | owes := delivers
  · rw [empty] at sent
    cases sent
  · have executing := executing_of_owes owes
    rw [not_ended_of_executing executing] at ended
    cases ended

theorem Coherent.waiting_step (j : ι) (receiver : Receiver ι)
    (waits : (pool'.calls j).progress = .waiting receiver) :
    (pool'.calls receiver.caller).id = (pool'.calls j).id ∧ Delivers pool' receiver := by
  rw [(taken.same _).id, (taken.same j).id]
  have keep : (pool.calls j).progress = .waiting receiver →
      (pool.calls receiver.caller).id = (pool.calls j).id ∧ Delivers pool' receiver := by
    intro before
    obtain ⟨own, delivers⟩ := coherent.waiting j receiver before
    exact ⟨own, coherent.delivers_step taken delivers⟩
  by_cases acts : j = i
  · subst acts
    rw [taken.current] at waits
    obtain before | ⟨_, found⟩ := taken.moved.waiting_cases waits
    · exact keep before
    · obtain ⟨own, _, delivers⟩ := coherent.delivers_found found
      exact ⟨own, coherent.delivers_step taken delivers⟩
  · rw [taken.others j acts] at waits
    exact keep waits

theorem Coherent.dropped_step (receiver : Receiver ι) (gone : pool'.store.dropped receiver) :
    (pool'.calls receiver.caller).progress.ended := by
  have keep : ((pool.calls i).progress.ended → progress.ended) → pool.store.dropped receiver →
      (pool'.calls receiver.caller).progress.ended := by
    intro still before
    have ended := coherent.dropped receiver before
    by_cases acts : receiver.caller = i
    · rw [acts, taken.current]
      rw [acts] at ended
      exact still ended
    · rwa [taken.others _ acts]
  have other : (pool.calls i).progress.ended = false → pool.store.dropped receiver →
      (pool'.calls receiver.caller).progress.ended := by
    intro live
    refine keep ?_
    rw [live]
    nofun
  rw [taken.store] at gone
  cases taken.moved with
  | idles _ _ _ still _ _ _ dropped =>
    obtain before | ⟨own, ended⟩ := dropped receiver gone
    · exact keep still before
    · rw [own, coherent.named i, taken.current]
      exact ended
  | waits _ live => exact other live gone
  | enters current | leaves current | inserts current
  | sends current => exact other (by rw [current]; rfl) gone
  | loops before =>
    exact other (not_ended_of_executing (executing_of_loops before)) gone
  | removes =>
    rw [dropped_conclude] at gone
    obtain own | before := Bool.or_eq_true_iff.mp gone
    · rw [of_decide_eq_true own, coherent.named i, taken.current]
      rfl
    · exact keep (fun _ => rfl) before

theorem Coherent.step : Coherent pool' where
  named := fun j => (taken.same j).caller.trans (coherent.named j)
  watchers := coherent.watchers_step taken
  queue := coherent.queue_step taken
  sent := coherent.sent_step taken
  removing := coherent.removing_step taken
  waiting := coherent.waiting_step taken
  dropped := coherent.dropped_step taken

end

omit [DecidableEq ι] in
theorem CoalescionPool.Begun.coherent (begun : start.Begun) : Coherent start := by
  refine ⟨begun.named, ?_, ?_, ?_, ?_, ?_, ?_⟩
  · intro id receiver found
    rw [begun.empty] at found
    cases found
  · intro id receiver found
    rw [begun.empty] at found
    cases found
  · intro receiver content sent
    rw [begun.empty] at sent
    cases sent
  · intro i queued value removes
    rw [begun.looking i] at removes
    cases removes
  · intro i receiver waits
    rw [begun.looking i] at waits
    cases waits
  · intro receiver gone
    rw [begun.empty] at gone
    cases gone

/-- The step of a call that does not abandon its execution. -/
theorem CoalescionStep.of_completes [DecidableEq Ty] (config : CoalescionConfig)
    (completes : (pool.calls i).Completes) :
    CoalescionStep pool i (pool.step (ExecuteCall.next config) i)
      ((pool.calls i).next config pool.store).1.progress
      ((pool.calls i).next config pool.store).2 where
  moved := ExecuteCall.next_moves config pool.store completes
  current := by rw [Pool.step_self]
  store := rfl
  same := Pool.forall_step ExecuteCall.sameCall_next fun _ _ => ⟨rfl, rfl, rfl, rfl⟩
  others := fun _ => Pool.step_ne

end Coherence

end Company
