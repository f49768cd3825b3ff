import Mathlib.Data.Fin.VecNotation
import Mathlib.Data.Fintype.Basic
import Mathlib.Data.List.Induction
import CompanyBackend.Coalesced.Executions

/-!
# What a call returns

A call returns the value of its own function, or one that it has received from an execution
which was under way when the call looked for it. A call that finds what an abandoned execution
has left behind fails at once, or returns a value from before its time.
-/

namespace Company

open Pool ExecuteCall ExecuteProgress

section

variable {ι Id Ty V : Type} [DecidableEq ι] [DecidableEq Id] [DecidableEq Ty]
variable {config : CoalescionConfig} {service : CoalescionService ι Id Ty V}
variable {progress : ExecuteProgress ι V} {call : ExecuteCall ι Id Ty V}

namespace ExecuteCall

def refused (config : CoalescionConfig) (call : ExecuteCall ι Id Ty V)
    (service : CoalescionService ι Id Ty V) : Bool :=
  match call.progress with
  | .looking =>
    (service.watchers.lookup call.id).isNone && config.full service && !config.queueRequests
  | .lookingInQueue _ =>
    (service.queue.lookup call.id).isNone &&
      config.maxQueue.any fun maxQueue => service.queue.size ≤ maxQueue
  | _ => false

/-- Where the result of a call comes from. -/
inductive Returns (config : CoalescionConfig) (call : ExecuteCall ι Id Ty V)
    (service : CoalescionService ι Id Ty V) : Except CoalescionError V → Prop
  | earlier {result : Except CoalescionError V} (current : call.progress = .finished result) :
      Returns config call service result
  | executed {queued : Bool} {value : V} (current : call.progress = .removing queued value) :
      Returns config call service (.ok value)
  | received {receiver : Receiver ι} {content : Except CoalescionError (AnyValue Ty V)}
      (current : call.progress = .waiting receiver) (sent : service.sent receiver = some content) :
      Returns config call service (content.bind (AnyValue.downcast call.type))
  | lost {receiver : Receiver ι} (current : call.progress = .waiting receiver)
      (empty : service.sent receiver = none) (dropped : service.dropped receiver) :
      Returns config call service (.error .recvError)
  | refuses (error : CoalescionError) (refused : call.refused config service) :
      Returns config call service (.error error)

variable {result : Except CoalescionError V}

theorem Steps.returns {service' : CoalescionService ι Id Ty V}
    (steps : call.Steps config service progress service')
    (returned : progress = .finished result) : call.Returns config service result := by
  cases steps with
  | rests => exact .earlier returned
  | refused current missing full direct =>
    cases returned
    refine .refuses _ ?_
    rw [ExecuteCall.refused, current, missing, full, direct]
    rfl
  | refusedQueue current missing short =>
    cases returned
    refine .refuses _ ?_
    rw [ExecuteCall.refused, current, missing, short]
    rfl
  | receives current sent =>
    cases returned
    exact .received current sent
  | loses current empty dropped =>
    cases returned
    exact .lost current empty dropped
  | removes current =>
    cases returned
    exact .executed current
  | loops _ after =>
    rw [returned] at after
    cases after
  | _ => cases returned

theorem returns_of_next (returned : (call.next config service).1.progress = .finished result) :
    call.Returns config service result :=
  (next_steps config call service).returns returned

end ExecuteCall

variable {start pool : CoalescionPool ι Id Ty V} {i j : ι} {schedule : List ι} {value : V}

/-- At some moment of the schedule a call was under way, and so was the
execution of another call, or its own. -/
def Overlapped (config : CoalescionConfig) (start : CoalescionPool ι Id Ty V)
    (schedule : List ι) (i j : ι) : Prop :=
  ∃ past, past <+: schedule ∧
    ((start.run (ExecuteCall.next config) past).calls i).progress.inProgress ∧
    ((start.run (ExecuteCall.next config) past).calls j).progress.executing

theorem Overlapped.concat (overlapped : Overlapped config start schedule i j) (k : ι) :
    Overlapped config start (schedule ++ [k]) i j := by
  obtain ⟨past, before, started, executing⟩ := overlapped
  exact ⟨past, before.trans (List.prefix_append _ _), started, executing⟩

/-- The value was produced by the function of a call for the same id whose
execution overlaps the call. -/
def Shared (config : CoalescionConfig) (start : CoalescionPool ι Id Ty V) (schedule : List ι)
    (i : ι) (value : V) : Prop :=
  ∃ j, (start.calls j).id = (start.calls i).id ∧ (start.calls j).func = some value ∧
    Overlapped config start schedule i j

theorem Shared.concat (shared : Shared config start schedule i value) (k : ι) :
    Shared config start (schedule ++ [k]) i value := by
  obtain ⟨j, sameId, produced, overlapped⟩ := shared
  exact ⟨j, sameId, produced, overlapped.concat k⟩

/-- The calls that wait, and those that have returned a value, share executions
that overlap them. -/
structure Fresh (config : CoalescionConfig) (start : CoalescionPool ι Id Ty V)
    (schedule : List ι) (pool : CoalescionPool ι Id Ty V) : Prop where
  coherent : Coherent pool
  same : ∀ i, (start.calls i).SameCall (pool.calls i)
  waiting : ∀ i receiver, (pool.calls i).progress = .waiting receiver →
    Overlapped config start schedule i receiver.caller
  returned : ∀ i value, (pool.calls i).progress = .finished (.ok value) →
    Shared config start schedule i value

section Step

variable {pool' : CoalescionPool ι Id Ty V}

theorem Fresh.waiting_step (fresh : Fresh config start schedule pool)
    (step : CoalescionStep pool i pool' progress service)
    (reached : start.run (ExecuteCall.next config) (schedule ++ [i]) = pool')
    (receiver : Receiver ι) (waits : (pool'.calls j).progress = .waiting receiver) :
    Overlapped config start (schedule ++ [i]) j receiver.caller := by
  by_cases acts : j = i
  · subst acts
    have now := waits
    rw [step.current] at waits
    obtain before | ⟨idle, found⟩ := step.moved.waiting_cases waits
    · exact (fresh.waiting j receiver before).concat j
    · -- The execution that is found is not the caller's own, so it is still under way.
      obtain ⟨_, executing, _⟩ := fresh.coherent.delivers_found found
      have apart : receiver.caller ≠ j := by
        intro own
        rw [own, idle] at executing
        cases executing
      refine ⟨schedule ++ [j], List.prefix_rfl, ?_, ?_⟩
      · rw [reached, now]
        rfl
      · rwa [reached, step.others _ apart]
  · rw [step.others j acts] at waits
    exact (fresh.waiting j receiver waits).concat i

end Step

theorem Fresh.returned_step (fresh : Fresh config start schedule pool)
    (reached : start.run (ExecuteCall.next config) schedule = pool)
    (returned : ((pool.step (ExecuteCall.next config) i).calls j).progress = .finished (.ok value))
    : Shared config start (schedule ++ [i]) j value := by
  by_cases acts : j = i
  · subst acts
    rw [step_self] at returned
    generalize result : Except.ok value = content at returned
    cases returns_of_next returned with
    | earlier current =>
      subst result
      exact (fresh.returned j value current).concat j
    | executed current =>
      cases result
      obtain ⟨produced, _⟩ := fresh.coherent.removing j _ _ current
      refine ⟨j, rfl, (fresh.same j).func.symm.trans produced, schedule,
        List.prefix_append _ _, ?_, ?_⟩
      · rw [reached, current]
        rfl
      · rw [reached, current]
        rfl
    | @received receiver content current sent =>
      obtain ⟨produced, func, rfl⟩ := fresh.coherent.sent receiver content sent
      obtain ⟨_, rfl⟩ := AnyValue.downcast_eq_ok_iff.mp result.symm
      obtain ⟨own, _⟩ := fresh.coherent.waiting j receiver current
      rw [(fresh.same j).id, (fresh.same receiver.caller).id] at own
      rw [(fresh.same receiver.caller).func] at func
      exact ⟨receiver.caller, own, func, (fresh.waiting j receiver current).concat j⟩
    | lost => cases result
    | refuses => cases result
  · rw [step_ne acts] at returned
    exact (fresh.returned j value returned).concat i

/-- After every schedule in which no execution is abandoned. -/
theorem fresh_run (begun : start.Begun)
    (admits : Admits (ExecuteCall.next config) (fun pool i => (pool.calls i).Completes) start
      schedule) :
    Fresh config start schedule (start.run (ExecuteCall.next config) schedule) := by
  induction schedule using List.reverseRecOn with
  | nil =>
    refine ⟨begun.coherent, fun _ => ⟨rfl, rfl, rfl, rfl⟩, ?_, ?_⟩
    · intro i receiver waits
      rw [run, List.foldl_nil, begun.looking i] at waits
      cases waits
    · intro i value returned
      rw [run, List.foldl_nil, begun.looking i] at returned
      cases returned
  | append_singleton schedule i ih =>
    obtain ⟨admits, completes⟩ := admits_concat.mp admits
    have fresh := ih admits
    have step := CoalescionStep.of_completes config completes
    rw [run_concat]
    refine ⟨fresh.coherent.step step, ?_, ?_, ?_⟩
    · intro j
      exact (fresh.same j).trans (step.same j)
    · intro j receiver waits
      exact fresh.waiting_step step (run_concat _) receiver waits
    · intro j value returned
      exact fresh.returned_step rfl returned

theorem ExecuteCall.patience_next (patient : call.patience = none) :
    (call.next config service).1.patience = none := by
  unfold next
  split
  · exact patient
  · rw [patient]
    rfl

/-- If no call is dropped and no function panics, a value that a call returns
was produced by the function of a call for the same id, whose execution overlaps
the call. -/
theorem coalescing_freshness (config : CoalescionConfig) (begun : start.Begun)
    (patient : ∀ i, (start.calls i).patience = none)
    (produces : ∀ i, (start.calls i).func.isSome) (schedule : List ι) :
    ∀ i value, ((start.run (ExecuteCall.next config) schedule).calls i).progress =
        .finished (.ok value) →
      ∃ j, (start.calls j).id = (start.calls i).id ∧ (start.calls j).func = some value ∧
        Overlapped config start schedule i j := by
  have admits : Admits (ExecuteCall.next config) (fun pool i => (pool.calls i).Completes)
      start schedule := by
    refine admits_of_invariant
      (P := fun pool => ∀ i, (pool.calls i).patience = none ∧ (pool.calls i).func.isSome)
      (fun i => ⟨patient i, produces i⟩) ?_ ?_ schedule
    · intro pool i undisturbed
      refine forall_step
        (P := fun _ (call : ExecuteCall ι Id Ty V) => call.patience = none ∧ call.func.isSome) ?_
        fun j _ => undisturbed j
      refine ⟨patience_next (undisturbed i).1, ?_⟩
      rw [sameCall_next.func]
      exact (undisturbed i).2
    · intro pool i undisturbed
      refine ⟨?_, fun _ => (undisturbed i).2⟩
      intro _
      rw [(undisturbed i).1]
      nofun
  exact (fresh_run begun admits).returned

end

/-- Three calls for one id, each of which produces its own number. -/
def threeCalls (patience : Fin 3 → Option Nat) : CoalescionPool (Fin 3) String Unit Nat where
  calls i :=
    { caller := i, id := "id", type := (), func := some i.val, patience := patience i
      progress := .looking }
  store := {}

theorem threeCalls_begun (patience : Fin 3 → Option Nat) : (threeCalls patience).Begun :=
  ⟨fun _ => rfl, fun _ => rfl, rfl⟩

theorem coalescing_freshness_second_watches :
    ∃ j, ((threeCalls fun _ => none).calls j).id = "id" ∧
      ((threeCalls fun _ => none).calls j).func = some 0 ∧
      Overlapped {} (threeCalls fun _ => none) [0, 0, 1, 0, 0, 1] 1 j :=
  coalescing_freshness {} (threeCalls_begun _) (fun _ => rfl) (fun _ => rfl) [0, 0, 1, 0, 0, 1] 1 0
    rfl

section

variable {ι Id Ty V : Type} [DecidableEq ι] [DecidableEq Id] [DecidableEq Ty]
variable {config : CoalescionConfig} {start pool : CoalescionPool ι Id Ty V} {i : ι}
variable {schedule : List ι} {value : V}

/-- The call does not abandon its execution, and is not turned away. -/
def Served (config : CoalescionConfig) (pool : CoalescionPool ι Id Ty V) (i : ι) : Prop :=
  (pool.calls i).Completes ∧ (pool.calls i).refused config pool.store = false

instance decidableServed (config : CoalescionConfig) (pool : CoalescionPool ι Id Ty V) (i : ι) :
    Decidable (Served config pool i) :=
  inferInstanceAs (Decidable (((_ → _) ∧ (_ → _)) ∧ _))

/-- Calls for one id agree about the type of the value, and no call has
failed. -/
structure NoneFailed (pool : CoalescionPool ι Id Ty V) : Prop where
  coherent : Coherent pool
  typed : ∀ i j, (pool.calls i).id = (pool.calls j).id → (pool.calls i).type = (pool.calls j).type
  returned : ∀ i error, (pool.calls i).progress ≠ .finished (.error error)

theorem NoneFailed.returned_step (noneFailed : NoneFailed pool) (served : Served config pool i)
    (error : CoalescionError) :
    ((pool.calls i).next config pool.store).1.progress ≠ .finished (.error error) := by
  intro failed
  generalize result : Except.error error = content at failed
  cases returns_of_next failed with
  | earlier current =>
    subst result
    exact noneFailed.returned i error current
  | executed => cases result
  | @received receiver content current sent =>
    obtain ⟨produced, _, rfl⟩ := noneFailed.coherent.sent receiver content sent
    obtain ⟨own, _⟩ := noneFailed.coherent.waiting i receiver current
    have taken : AnyValue.downcast (pool.calls i).type
        ⟨(pool.calls receiver.caller).type, produced⟩ = .ok produced :=
      AnyValue.downcast_eq_ok_iff.mpr ⟨noneFailed.typed _ _ own, rfl⟩
    cases result.trans taken
  | @lost receiver current empty dropped =>
    obtain ⟨_, delivers⟩ := noneFailed.coherent.waiting i receiver current
    rw [noneFailed.coherent.not_dropped delivers empty] at dropped
    cases dropped
  | refuses _ refused =>
    rw [served.2] at refused
    cases refused

theorem NoneFailed.step (noneFailed : NoneFailed pool) (served : Served config pool i) :
    NoneFailed (pool.step (ExecuteCall.next config) i) := by
  have step := CoalescionStep.of_completes config served.1
  refine ⟨noneFailed.coherent.step step, ?_, ?_⟩
  · intro j k
    rw [(step.same j).id, (step.same k).id, (step.same j).type, (step.same k).type]
    exact noneFailed.typed j k
  · exact forall_step
      (P := fun _ (call : ExecuteCall ι Id Ty V) =>
        ∀ error, call.progress ≠ .finished (.error error))
      (noneFailed.returned_step served) fun j _ => noneFailed.returned j

/-- A call that finds no watcher, and room, executes its function. -/
theorem executes_alone (looks : (pool.calls i).progress = .looking)
    (patient : (pool.calls i).patience = none) (produced : (pool.calls i).func = some value)
    (missing : pool.store.watchers.lookup (pool.calls i).id = none)
    (room : config.full pool.store = false) :
    ((pool.run (ExecuteCall.next config) [i, i, i, i]).calls i).progress =
      .finished (.ok value) := by
  unfold CoalescionConfig.full at room
  cases limit : config.maxConcurrent with
  | none =>
    simp [run, step, ExecuteCall.next, ExecuteCall.advance, ended,
      looks, patient, produced, missing, limit]
  | some maxConcurrent =>
    have free : ¬ maxConcurrent ≤ pool.store.watchers.size := by simpa [limit] using room
    simp [run, step, ExecuteCall.next, ExecuteCall.advance, ended,
      looks, patient, produced, missing, limit, free]

/-- A call that finds a watcher whose value has been sent takes the value. -/
theorem receives_alone {receiver : Receiver ι} {any : AnyValue Ty V}
    (looks : (pool.calls i).progress = .looking) (patient : (pool.calls i).patience = none)
    (found : pool.store.watchers.lookup (pool.calls i).id = some receiver)
    (sent : pool.store.sent receiver = some (.ok any)) (typed : any.type = (pool.calls i).type) :
    ((pool.run (ExecuteCall.next config) [i, i, i, i]).calls i).progress =
      .finished (.ok any.value) := by
  have taken : any.downcast (pool.calls i).type = .ok any.value :=
    AnyValue.downcast_eq_ok_iff.mpr ⟨typed, rfl⟩
  simp [run, step, ExecuteCall.next, ExecuteCall.advance, ended, looks, patient, found, sent, taken]

/-- A call that runs alone while no function for its id is running returns the
value of its own function, or that of an execution which is about to end. -/
theorem NoneFailed.returns_alone (noneFailed : NoneFailed pool)
    (looks : (pool.calls i).progress = .looking) (patient : (pool.calls i).patience = none)
    (produces : (pool.calls i).func.isSome)
    (idle : ∀ j, (pool.calls j).id = (pool.calls i).id → (pool.calls j).progress.isRunning = false)
    (room : config.full pool.store = false) :
    ∃ j value, (pool.calls j).id = (pool.calls i).id ∧ (pool.calls j).func = some value ∧
      (j = i ∨ (pool.calls j).progress.executing) ∧
      ((pool.run (ExecuteCall.next config) [i, i, i, i]).calls i).progress =
        .finished (.ok value) := by
  cases found : pool.store.watchers.lookup (pool.calls i).id with
  | none =>
    obtain ⟨value, produced⟩ := Option.isSome_iff_exists.mp produces
    exact ⟨i, value, rfl, produced, .inl rfl, executes_alone looks patient produced found room⟩
  | some receiver =>
    obtain ⟨own, executing, delivers⟩ := noneFailed.coherent.delivers_found (.inl found)
    obtain ⟨_, used, _⟩ := noneFailed.coherent.watchers _ _ found
    have sent : (pool.store.sent receiver).isSome := by
      obtain sent | owes := delivers
      · exact sent
      · rw [used] at owes
        rw [← isRunning_eq_owes, idle _ own] at owes
        cases owes
    obtain ⟨content, holds⟩ := Option.isSome_iff_exists.mp sent
    obtain ⟨value, produced, rfl⟩ := noneFailed.coherent.sent receiver content holds
    exact ⟨receiver.caller, value, own, produced, .inr executing,
      receives_alone looks patient found holds (noneFailed.typed _ _ own)⟩

/-- In every interleaving in which no call abandons its execution, no call is
turned away, and calls for one id agree about the type of the value: a call
returns no error, and the value that it returns comes from an execution that
overlaps it; a call that waits has a live execution to wait for; and a call that
starts while no function for its id is running, and is left alone, returns. -/
theorem coalesced_survives_cancellation (begun : start.Begun)
    (typed : ∀ i j, (start.calls i).id = (start.calls j).id →
      (start.calls i).type = (start.calls j).type)
    (admits : Pool.Admits (ExecuteCall.next config) (Served config) start schedule)
    (reached : start.run (ExecuteCall.next config) schedule = pool) :
    (∀ i result, (pool.calls i).progress = .finished result →
      ∃ j value, result = .ok value ∧ (start.calls j).id = (start.calls i).id ∧
        (start.calls j).func = some value ∧ Overlapped config start schedule i j) ∧
    (∀ i receiver, (pool.calls i).progress = .waiting receiver →
      (pool.calls receiver.caller).id = (pool.calls i).id ∧
        ((pool.store.sent receiver).isSome ∨ (pool.calls receiver.caller).progress.executing)) ∧
    ∀ i, (pool.calls i).progress = .looking → (pool.calls i).patience = none →
      (pool.calls i).func.isSome →
      (∀ j, (pool.calls j).id = (pool.calls i).id → (pool.calls j).progress.isRunning = false) →
      config.full pool.store = false →
        ∃ j value, (pool.calls j).id = (pool.calls i).id ∧ (pool.calls j).func = some value ∧
          (j = i ∨ (pool.calls j).progress.executing) ∧
          ((pool.run (ExecuteCall.next config) [i, i, i, i]).calls i).progress =
            .finished (.ok value) := by
  have fresh : Fresh config start schedule pool := by
    rw [← reached]
    exact fresh_run begun (admits.weaken fun _ _ served => served.1)
  have first : NoneFailed start := by
    refine ⟨begun.coherent, typed, ?_⟩
    intro i error failed
    rw [begun.looking i] at failed
    cases failed
  have noneFailed : NoneFailed pool := by
    rw [← reached]
    exact (reaches_run admits).invariant first fun _ _ before => before.step
  refine ⟨?_, ?_, ?_⟩
  · intro i result returned
    cases result with
    | error error => exact absurd returned (noneFailed.returned i error)
    | ok value =>
      obtain ⟨j, sameId, produced, overlapped⟩ := fresh.returned i value returned
      exact ⟨j, value, rfl, sameId, produced, overlapped⟩
  · intro i receiver waits
    obtain ⟨sameId, delivers⟩ := fresh.coherent.waiting i receiver waits
    exact ⟨sameId, delivers.imp_right executing_of_owes⟩
  · intro i looks patient produces idle room
    exact noneFailed.returns_alone looks patient produces idle room

end

/-- The second call waits and is dropped, and the third one returns what the
first one produces. -/
theorem coalesced_survives_cancellation_waiter_dropped :
    ∃ schedule pool,
      (threeCalls ![none, some 1, none]).run (ExecuteCall.next {}) schedule = pool ∧
      (pool.calls 1).progress = .cancelled ∧ (pool.calls 2).progress = .finished (.ok 0) ∧
      ∃ j, ((threeCalls ![none, some 1, none]).calls j).id = "id" ∧
        ((threeCalls ![none, some 1, none]).calls j).func = some 0 ∧
        Overlapped {} (threeCalls ![none, some 1, none]) schedule 2 j := by
  have served : Admits (ExecuteCall.next {}) (Served {}) (threeCalls ![none, some 1, none])
      [0, 0, 1, 1, 2, 0, 0, 2] := by decide +kernel
  obtain ⟨returns, _, _⟩ :=
    coalesced_survives_cancellation (threeCalls_begun _) (fun _ _ _ => rfl) served rfl
  obtain ⟨j, value, ⟨⟩, sameId, produced, overlapped⟩ := returns 2 (.ok 0) rfl
  exact ⟨_, _, rfl, rfl, rfl, j, sameId, produced, overlapped⟩

/-- The first call is dropped while its function runs. Its watcher remains, and
the second call, which starts when nothing is running or queued, fails. -/
theorem abandoned_watcher_found :
    ∃ pool later, (threeCalls ![some 2, none, none]).Begun ∧
      Pool.Reaches (ExecuteCall.next {}) (fun _ _ => True) (threeCalls ![some 2, none, none]) pool ∧
      (∀ i, (pool.calls i).progress.executing = false) ∧
      (pool.calls 1).progress = .looking ∧ (pool.calls 1).patience = none ∧
      Pool.Reaches (ExecuteCall.next {}) (fun _ _ => True) pool later ∧
      (later.calls 1).progress = .finished (.error .recvError) := by
  refine ⟨(threeCalls ![some 2, none, none]).run (ExecuteCall.next {}) [0, 0, 0],
    (threeCalls ![some 2, none, none]).run (ExecuteCall.next {}) [0, 0, 0, 1, 1],
    threeCalls_begun _, reaches_run (admits_any _), ?_, rfl, rfl, ?_, rfl⟩
  · decide +kernel
  · exact reaches_run (admits_any [1, 1])

end Company
