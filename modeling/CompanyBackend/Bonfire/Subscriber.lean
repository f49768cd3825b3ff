import CompanyBackend.Bonfire.State

/-!
# Subscriptions at the broker

The listener turns the pending changes into commands for the broker: it gives up the topics
to be removed, then subscribes to those to be added. The set that the connection keeps is
updated from the same two lists in the other order, first the additions, then the removals.
The two agree as long as no topic is pending in both lists, that is as long as no topic
changes twice between two turns of the listener.
-/

namespace Company

open Request Finset

/-- A connection and the topics that it is subscribed to at the broker. -/
structure Subscriber where
  state : State
  broker : Finset String

/-- The commands of the listener for a change that was handed over. -/
def SubscriptionStateChange.replay (subscribed broker : Finset String) :
    SubscriptionStateChange → Finset String
  | .reset => ∅ ∪ subscribed
  | .change add remove =>
    let unsubscribed := remove.foldl Finset.erase broker
    add.foldl (fun topics topic => Insert.insert topic topics) unsubscribed
  | .none => broker

def Subscriber.act {α : Type} (action : Connection α) : Request Subscriber Failure α :=
  fun subscriber =>
    let ran := action subscriber.state
    (ran.1, { subscriber with state := ran.2 })

inductive SubscriberStep where
  | insert (topic : String)
  | remove (topic : String)
  | listen (servers : List ActiveServer)
  deriving DecidableEq, Repr

open Subscriber

def SubscriberStep.run : SubscriberStep → Request Subscriber Failure Unit
  | .insert topic => act (insertSubscription topic)
  | .remove topic => act (removeSubscription topic)
  | .listen servers => do
    let change ← act (applyState servers)
    write fun subscriber => .ok
      { subscriber with broker := change.replay subscriber.state.subscribed subscriber.broker }

namespace SubscriptionStateChange

def added : SubscriptionStateChange → List String
  | .change add _ => add
  | _ => []

def removed : SubscriptionStateChange → List String
  | .change _ remove => remove
  | _ => []

end SubscriptionStateChange

namespace State

/-- The topic is not added in the same turn in which it was removed. -/
def MayInsert (topic : String) (state : State) : Prop :=
  topic ∉ state.subscribed → topic ∉ state.state.removed

/-- The topic is not removed in the same turn in which it was added. -/
def MayRemove (topic : String) (state : State) : Prop :=
  topic ∈ state.subscribed → topic ∉ state.state.added

/-- The pending changes lead from the topics of the broker to those of the
connection. A reset starts from the connection alone. -/
structure Tracks (broker : Finset String) (state : State) : Prop where
  added : ∀ topic ∈ state.state.added, topic ∈ state.subscribed
  removed : ∀ topic ∈ state.state.removed, topic ∉ state.subscribed
  others : state.state ≠ .reset → ∀ topic, topic ∉ state.state.added →
    topic ∉ state.state.removed → (topic ∈ state.subscribed ↔ topic ∈ broker)

end State

def ActiveServer.MayApply (state : State) : ActiveServer → Prop
  | .valid serverId => state.MayInsert (updateTopic serverId)
  | .expired serverId => state.MayRemove (updateTopic serverId)

/-- No topic changes twice between two turns of the listener. -/
def SubscriberStep.Single (subscriber : Subscriber) : SubscriberStep → Prop
  | .insert topic => subscriber.state.MayInsert topic
  | .remove topic => subscriber.state.MayRemove topic
  | .listen servers => subscriber.state.cache.isBot = false →
      Guarded applyActiveServer ActiveServer.MayApply subscriber.state servers

instance decidableMayApply (state : State) (server : ActiveServer) :
    Decidable (server.MayApply state) := by
  cases server <;> exact inferInstanceAs (Decidable (_ → _))

instance decidableSingle (subscriber : Subscriber) (step : SubscriberStep) :
    Decidable (step.Single subscriber) := by
  cases step <;> exact inferInstanceAs (Decidable (_ → _))

open State

variable {servers : List ActiveServer}

section Steps

variable {broker : Finset String} {state state' : State} {topic : String}

theorem State.tracks_of_reset (pending : state.state = .reset) : state.Tracks broker := by
  constructor
  · rw [pending]
    rintro _ ⟨⟩
  · rw [pending]
    rintro _ ⟨⟩
  · intro live
    exact absurd pending live

/-- An absent topic is recorded as an addition, unless a reset is pending. -/
theorem State.insert_of_notMem (absent : topic ∉ state.subscribed) :
    (state.insert topic).subscribed = Insert.insert topic state.subscribed ∧
      (state.insert topic).state = if state.state = .reset then .reset
        else .change (state.state.added ++ [topic]) state.state.removed := by
  rw [insert, if_neg absent]
  cases state.state <;> exact ⟨rfl, rfl⟩

/-- A present topic is recorded as a removal. -/
theorem State.of_remove_of_mem (present : topic ∈ state.subscribed)
    (removal : state.remove topic = .ok state') :
    state'.subscribed = state.subscribed.erase topic ∧ state.state ≠ .reset ∧
      state'.state = .change state.state.added (state.state.removed ++ [topic]) := by
  rw [remove, if_pos present] at removal
  cases pending : state.state with
  | reset => simp [pending] at removal
  | none | change add remove =>
    rw [pending] at removal
    cases removal
    exact ⟨rfl, by rintro ⟨⟩, rfl⟩

theorem State.Tracks.insert (tracks : state.Tracks broker) (may : state.MayInsert topic) :
    (state.insert topic).Tracks broker := by
  by_cases present : topic ∈ state.subscribed
  · rw [State.insert, if_pos present]
    exact tracks
  obtain ⟨subscribed, pending⟩ := insert_of_notMem present
  split at pending
  · exact tracks_of_reset pending
  next live =>
  constructor
  · rw [pending, subscribed]
    intro other listed
    rcases List.mem_append.mp listed with earlier | now
    · exact mem_insert_of_mem (tracks.added other earlier)
    · rw [List.mem_singleton.mp now]
      exact mem_insert_self _ _
  · rw [pending, subscribed]
    intro other listed
    rw [mem_insert, not_or]
    refine ⟨?_, tracks.removed other listed⟩
    rintro rfl
    exact may present listed
  · rw [pending, subscribed]
    intro _ other kept unlisted
    obtain ⟨unadded, distinct⟩ := not_or.mp fun either => kept (List.mem_append.mpr either)
    rw [List.mem_singleton] at distinct
    rw [mem_insert, or_iff_right distinct]
    exact tracks.others live other unadded unlisted

theorem State.Tracks.remove (tracks : state.Tracks broker) (may : state.MayRemove topic)
    (removal : state.remove topic = .ok state') : state'.Tracks broker := by
  by_cases present : topic ∈ state.subscribed
  swap
  · rw [State.remove, if_neg present] at removal
    cases removal
    exact tracks
  obtain ⟨subscribed, live, pending⟩ := of_remove_of_mem present removal
  constructor
  · rw [pending, subscribed]
    intro other listed
    rw [mem_erase]
    refine ⟨?_, tracks.added other listed⟩
    rintro rfl
    exact may present listed
  · rw [pending, subscribed]
    intro other listed
    rcases List.mem_append.mp listed with earlier | now
    · exact fun remains => tracks.removed other earlier (mem_of_mem_erase remains)
    · rw [List.mem_singleton.mp now]
      exact notMem_erase _ _
  · rw [pending, subscribed]
    intro _ other unlisted kept
    obtain ⟨unremoved, distinct⟩ := not_or.mp fun either => kept (List.mem_append.mpr either)
    rw [List.mem_singleton] at distinct
    rw [mem_erase, and_iff_right distinct]
    exact tracks.others live other unlisted unremoved

variable {topics : List String}

theorem mem_foldl_erase :
    topic ∈ topics.foldl Finset.erase broker ↔ topic ∈ broker ∧ topic ∉ topics := by
  induction topics generalizing broker with
  | nil => simp
  | cons first topics ih =>
    rw [List.foldl_cons, ih, mem_erase, List.mem_cons, not_or]
    tauto

theorem mem_foldl_insert :
    topic ∈ topics.foldl (fun topics topic => Insert.insert topic topics) broker ↔
      topic ∈ broker ∨ topic ∈ topics := by
  induction topics generalizing broker with
  | nil => simp
  | cons first topics ih =>
    rw [List.foldl_cons, ih, mem_insert, List.mem_cons]
    tauto

/-- The commands for pending changes that lead to the set of the connection
leave the broker with that set. -/
theorem State.Tracks.replay (tracks : state.Tracks broker) :
    state.state.replay (flushed state).subscribed broker = (flushed state).subscribed := by
  cases pending : state.state with
  | reset => exact empty_union _
  | none =>
    rw [flushed, pending]
    ext topic
    exact (tracks.others (by simp [pending]) topic
      (by simp [pending, SubscriptionStateChange.added])
      (by simp [pending, SubscriptionStateChange.removed])).symm
  | change add remove =>
    obtain ⟨added, removed, others⟩ := tracks
    rw [pending] at added removed others
    ext topic
    rw [SubscriptionStateChange.replay, mem_foldl_insert, mem_foldl_erase, flushed, pending]
    simp only [mem_sdiff, mem_union, List.mem_toFinset]
    by_cases enters : topic ∈ add
    · have stays : topic ∉ remove := fun leaves => removed topic leaves (added topic enters)
      simp [enters, stays]
    · by_cases leaves : topic ∈ remove
      · simp [enters, leaves]
      · rw [others (by rintro ⟨⟩) topic enters leaves]
        simp [enters, leaves]

theorem State.tracks_flushed : (flushed state).Tracks (flushed state).subscribed :=
  ⟨by rintro _ ⟨⟩, by rintro _ ⟨⟩, fun _ _ _ _ => Iff.rfl⟩

theorem insertSubscription_tracks (tracks : state.Tracks broker) (may : state.MayInsert topic)
    (ran : insertSubscription topic state = (.ok (), state')) : state'.Tracks broker := by
  cases ran
  exact tracks.insert may

theorem removeSubscription_tracks (tracks : state.Tracks broker) (may : state.MayRemove topic)
    (ran : removeSubscription topic state = (.ok (), state')) : state'.Tracks broker := by
  rw [removeSubscription, write] at ran
  cases removal : state.remove topic with
  | error e => simp [removal] at ran
  | ok next =>
    rw [removal] at ran
    cases ran
    exact tracks.remove may removal

theorem ActiveServer.tracks {server : ActiveServer} (tracks : state.Tracks broker)
    (may : server.MayApply state) (applied : applyActiveServer server state = (.ok (), state')) :
    state'.Tracks broker := by
  cases server with
  | valid serverId => exact insertSubscription_tracks tracks may applied
  | expired serverId => exact removeSubscription_tracks tracks may applied

/-- The entries of active servers are insertions and removals like any
others. -/
theorem applyActiveServers_tracks (tracks : state.Tracks broker)
    (single : state.cache.isBot = false →
      Guarded applyActiveServer ActiveServer.MayApply state servers)
    (applied : applyActiveServers servers state = (.ok (), state')) : state'.Tracks broker := by
  obtain ⟨isBot, _, ⟨⟩, applied⟩ := of_bind_eq_ok applied
  cases bot : state.cache.isBot with
  | true =>
    rw [bot] at applied
    cases applied
    exact tracks
  | false =>
    rw [bot] at applied
    exact (invariant_of_run (fun _ _ _ before may ran => ActiveServer.tracks before may ran)
      tracks (single bot)).elim applied rfl

/-- What is handed over is what is pending after the active servers. -/
theorem of_applyState {change : SubscriptionStateChange}
    (collected : applyState servers state = (.ok change, state')) :
    ∃ applied, applyActiveServers servers state = (.ok (), applied) ∧ change = applied.state ∧
      state' = flushed applied := by
  obtain ⟨_, applied, entries, flush⟩ := of_bind_eq_ok collected
  refine ⟨applied, entries, ?_⟩
  cases flush
  exact ⟨rfl, rfl⟩

end Steps

open SubscriberStep

section Runs

variable {subscriber subscriber' : Subscriber}

theorem Subscriber.of_act {α : Type} {action : Connection α} {a : α}
    (ran : act action subscriber = (.ok a, subscriber')) :
    action subscriber.state = (.ok a, subscriber'.state) ∧
      subscriber'.broker = subscriber.broker := by
  obtain ⟨returned, rfl⟩ := Prod.mk.inj ran
  exact ⟨Prod.ext returned rfl, rfl⟩

variable (tracks : subscriber.state.Tracks subscriber.broker)

include tracks

/-- A turn of the listener brings the broker and the connection into line. -/
theorem SubscriberStep.listen_inSync (single : (listen servers).Single subscriber)
    (ran : (listen servers).run subscriber = (.ok (), subscriber')) :
    subscriber'.broker = subscriber'.state.subscribed ∧
      subscriber'.state.Tracks subscriber'.broker := by
  obtain ⟨change, middle, collected, ran⟩ := of_bind_eq_ok ran
  obtain ⟨collected, sameBroker⟩ := of_act collected
  obtain ⟨applied, entries, rfl, flush⟩ := of_applyState collected
  have followed := applyActiveServers_tracks tracks single entries
  rw [← sameBroker] at followed
  cases ran
  have inSync : applied.state.replay middle.state.subscribed middle.broker =
      middle.state.subscribed := by
    rw [flush]
    exact followed.replay
  refine ⟨inSync, ?_⟩
  show middle.state.Tracks (applied.state.replay middle.state.subscribed middle.broker)
  rw [inSync, flush]
  exact tracks_flushed

theorem SubscriberStep.run_tracks {step : SubscriberStep} (single : step.Single subscriber)
    (ran : step.run subscriber = (.ok (), subscriber')) :
    subscriber'.state.Tracks subscriber'.broker := by
  cases step with
  | insert topic =>
    obtain ⟨inserted, sameBroker⟩ := of_act ran
    rw [sameBroker]
    exact insertSubscription_tracks tracks single inserted
  | remove topic =>
    obtain ⟨removed, sameBroker⟩ := of_act ran
    rw [sameBroker]
    exact removeSubscription_tracks tracks single removed
  | listen servers => exact (listen_inSync tracks single ran).2

end Runs

/-- In a run in which no topic changes twice between two turns of the listener,
the broker has the topics of the connection after each turn. -/
theorem broker_follows_connection {start subscriber : Subscriber} {steps done : List SubscriberStep}
    {servers : List ActiveServer} (fresh : start.state.state = .reset)
    (guarded : Guarded SubscriberStep.run SubscriberStep.Single start steps)
    (reached : done ++ [.listen servers] <+: steps)
    (ran : forEach SubscriberStep.run (done ++ [.listen servers]) start = (.ok (), subscriber)) :
    subscriber.broker = subscriber.state.subscribed := by
  obtain ⟨rest, rfl⟩ := reached
  obtain ⟨middle, earlier, turn⟩ := of_forEach_append ran
  have single := guarded.of_append.after earlier
  have tracks := (invariant_of_run (fun _ _ _ before single ran =>
    run_tracks before single ran) (tracks_of_reset fresh)
    guarded.of_append.of_append).elim earlier rfl
  obtain ⟨_, _, turn, ⟨⟩⟩ := of_bind_eq_ok turn
  exact (listen_inSync tracks single.1 turn).1

/-! A connection that follows another user for a while. -/

def newSubscriber : Subscriber where
  state := State.fromUser { id := "alice" } "session"
  broker := ∅

def followed : List SubscriberStep :=
  [.listen [], .insert "bob", .listen [.valid "server"], .remove "bob"] ++ [.listen []]

def unfollowed : Subscriber := (forEach SubscriberStep.run followed newSubscriber).2

theorem broker_follows_connection_sample :
    unfollowed.broker = unfollowed.state.subscribed ∧ updateTopic "server" ∈ unfollowed.broker ∧
      "bob" ∉ unfollowed.broker := by
  obtain ⟨_, ran⟩ : ∃ a, forEach run followed newSubscriber = (.ok a, unfollowed) :=
    exists_of_isOk (by decide +kernel)
  have guarded : Guarded run Single newSubscriber followed := by
    decide +kernel
  refine ⟨?_, by decide +kernel, by decide +kernel⟩
  exact broker_follows_connection rfl guarded (List.prefix_refl _) ran

/-- The user is left again in the turn in which they were followed. -/
def hasty : List SubscriberStep := [.listen [], .insert "bob", .remove "bob", .listen []]

def hastened : Subscriber := (forEach SubscriberStep.run hasty newSubscriber).2

/-- A topic is added and removed again before the listener takes a turn. Both
changes are pending then, and the broker is left with the topic. -/
theorem hasty_removal_stays_subscribed :
    newSubscriber.state.state = .reset ∧
      forEach SubscriberStep.run hasty newSubscriber = (.ok (), hastened) ∧
      "bob" ∈ hastened.broker ∧ "bob" ∉ hastened.state.subscribed ∧
      hastened.broker ≠ hastened.state.subscribed := by
  obtain ⟨_, ran⟩ : ∃ a, forEach run hasty newSubscriber = (.ok a, hastened) :=
    exists_of_isOk (by decide +kernel)
  exact ⟨rfl, ran, by decide +kernel, by decide +kernel, by decide +kernel⟩

end Company
