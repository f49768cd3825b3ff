import CompanyBackend.Database.Mongo
import CompanyBackend.Library.Trace
import Mathlib.Data.Finset.Basic
import Mathlib.Data.Finset.Lattice.Lemmas

/-!
# The state of a WebSocket connection

A connection caches the documents that its user may see and keeps a set of topics to
which it is subscribed. Changes to the set are recorded as pending, and the listener
passes them on to the broker before it waits for the next event.

The active servers of a client live in a cache that drops entries after some time. Only
what it reports when the pending changes are collected enters here.
-/

namespace Company

open Request Finset

/-- A pending change of the subscriptions. -/
inductive SubscriptionStateChange where
  | none
  | reset
  | change (add remove : List String)
  deriving DecidableEq, Repr

structure Cache where
  userId : String
  isBot : Bool := false
  users : HashMap String User := ∅
  channels : HashMap String Channel := ∅
  members : HashMap String Member := ∅
  servers : HashMap String Server := ∅
  /-- The most recent event ids, at most twenty. -/
  seenEvents : List String := []

structure State where
  cache : Cache
  sessionId : String
  privateTopic : String
  state : SubscriptionStateChange
  subscribed : Finset String

/-- An action of a connection. It may end with an error or a panic. -/
abbrev Connection (α : Type) := Request State Failure α

def privateTopic (userId : String) : String := userId ++ "!"

def updateTopic (serverId : String) : String := serverId ++ "u"

namespace State

def fromUser (user : User) (sessionId : String) : State where
  cache :=
    { userId := user.id
      users := HashMap.ofPairs [(user.id, user)] }
  sessionId
  privateTopic := Company.privateTopic user.id
  state := .reset
  subscribed := {Company.privateTopic user.id, user.id}

def insert (topic : String) (state : State) : State :=
  if topic ∈ state.subscribed then state
  else
    { state with
      state :=
        match state.state with
        | .none => .change [topic] []
        | .change add remove => .change (add ++ [topic]) remove
        | .reset => .reset
      subscribed := Insert.insert topic state.subscribed }

def remove (topic : String) (state : State) : Except Failure State :=
  if topic ∈ state.subscribed then
    match state.state with
    | .none =>
      .ok { state with
        state := .change [] [topic]
        subscribed := state.subscribed.erase topic }
    | .change add remove =>
      .ok { state with
        state := .change add (remove ++ [topic])
        subscribed := state.subscribed.erase topic }
    | .reset => .error (.panic "Should not remove during a reset!")
  else .ok state

end State

def modifyCache (f : Cache → Cache) : Connection Unit :=
  write fun state => .ok { state with cache := f state.cache }

/-- Read from the cache. A panic of the read ends the action. -/
def readCache {α : Type} (f : Cache → Except Panic α) : Connection α :=
  attempt fun state => (f state.cache).mapError fun panic => .panic panic.message

def insertSubscription (topic : String) : Connection Unit :=
  write fun state => .ok (state.insert topic)

def removeSubscription (topic : String) : Connection Unit := write fun state => state.remove topic

def resetState : Connection Unit :=
  write fun state => .ok { state with state := .reset, subscribed := ∅ }

/-- What the cache of active servers reports about an entry. -/
inductive ActiveServer where
  | valid (serverId : String)
  | expired (serverId : String)
  deriving DecidableEq, Repr

/-- Subscriptions to the updates of the active servers. Bots are subscribed
anyway. -/
def applyActiveServer : ActiveServer → Connection Unit
  | .valid serverId => insertSubscription (updateTopic serverId)
  | .expired serverId => removeSubscription (updateTopic serverId)

def applyActiveServers (entries : List ActiveServer) : Connection Unit := do
  let isBot ← readCache fun cache => .ok cache.isBot
  onlyIf (!isBot) (forEach applyActiveServer entries)

/-- The pending changes are handed over and written to the set once more. -/
def flushed (state : State) : State :=
  { state with
    state := .none
    subscribed :=
      match state.state with
      | .change add remove => (state.subscribed ∪ add.toFinset) \ remove.toFinset
      | _ => state.subscribed }

/-- Collect the pending changes, those of the active servers included. -/
def applyState (entries : List ActiveServer) : Connection SubscriptionStateChange := do
  applyActiveServers entries
  let pending ← attempt fun state => .ok state.state
  write fun state => .ok (flushed state)
  return pending

/-- Every pending addition is in the set, unless it is to be removed as well. -/
def State.Accounted (state : State) : Prop :=
  ∀ add remove, state.state = .change add remove →
    ∀ topic ∈ add, topic ∈ state.subscribed ∨ topic ∈ remove

/-- The connection handles events: the first pending changes have been
collected. -/
structure State.Live (state : State) : Prop where
  notReset : state.state ≠ .reset
  accounted : state.Accounted

/-- Only the set of topics was changed. -/
structure State.Resubscribes (state state' : State) (topics : Finset String) : Prop where
  cache : state'.cache = state.cache
  subscribed : state'.subscribed = topics
  accounted : state.Accounted → state'.Accounted
  notReset : state.state ≠ .reset → state'.state ≠ .reset

section Bookkeeping

variable {state state' state'' : State} {topics : Finset String} {topic : String}

theorem State.Live.recache (live : state.Live) (cache : Cache) : State.Live { state with cache } :=
  ⟨live.notReset, live.accounted⟩

theorem State.Resubscribes.live (changed : state.Resubscribes state' topics) (live : state.Live) :
    state'.Live :=
  ⟨changed.notReset live.notReset, changed.accounted live.accounted⟩

theorem State.insert_resubscribes (topic : String) (state : State) :
    state.Resubscribes (state.insert topic) (Insert.insert topic state.subscribed) := by
  rw [insert]
  split
  · next present =>
    exact ⟨rfl, (insert_eq_of_mem present).symm, id, id⟩
  · refine ⟨rfl, rfl, ?_, ?_⟩
    · intro accounted add remove pending other listed
      cases before : state.state with
      | none =>
        rw [before] at pending
        cases pending
        exact .inl (by simpa using .inl (List.mem_singleton.mp listed))
      | reset =>
        rw [before] at pending
        cases pending
      | change add' remove' =>
        rw [before] at pending
        cases pending
        rcases List.mem_append.mp listed with earlier | now
        · exact (accounted add' remove before other earlier).imp_left mem_insert_of_mem
        · rw [List.mem_singleton.mp now]
          exact .inl (mem_insert_self _ _)
    · intro notReset
      cases before : state.state <;> simp_all

theorem State.remove_resubscribes (notReset : state.state ≠ .reset) (topic : String) :
    ∃ state', state.remove topic = .ok state' ∧
      state.Resubscribes state' (state.subscribed.erase topic) := by
  rw [remove]
  split
  · cases before : state.state with
    | reset => exact absurd before notReset
    | none =>
      refine ⟨_, rfl, rfl, rfl, ?_, by simp⟩
      rintro _ _ _ ⟨⟩ _ ⟨⟩
    | change add remove =>
      refine ⟨_, rfl, rfl, rfl, ?_, by simp⟩
      rintro accounted _ _ ⟨⟩ other listed
      by_cases same : other = topic
      · exact .inr (by simp [same])
      · refine (accounted add remove before other listed).imp ?_ ?_
        · exact fun present => mem_erase.mpr ⟨same, present⟩
        · exact fun removed => List.mem_append_left _ removed
  · next absent =>
    exact ⟨state, rfl, rfl, (erase_eq_of_notMem absent).symm, id, id⟩

theorem Outcome.readCache_bind {α β : Type} {f : Cache → Except Panic α} {a : α}
    {next : α → Connection β} {Q : Except Failure β → State → Prop} (read : f state.cache = .ok a)
    (rest : Outcome (next a) state Q) : Outcome (readCache f >>= next) state Q := by
  refine Outcome.attempt_ok_bind ?_ rest
  rw [read]
  rfl

theorem Outcome.askCache_bind {α β : Type} {f : Cache → α} {next : α → Connection β}
    {Q : Except Failure β → State → Prop} (rest : Outcome (next (f state.cache)) state Q) :
    Outcome ((readCache fun cache => .ok (f cache)) >>= next) state Q :=
  rest

theorem Outcome.modifyCache_bind {β : Type} {f : Cache → Cache} {next : Unit → Connection β}
    {Q : Except Failure β → State → Prop}
    (rest : Outcome (next ()) { state with cache := f state.cache } Q) :
    Outcome (modifyCache f >>= next) state Q :=
  rest

theorem insertSubscription_outcome (topic : String) (state : State) :
    Outcome (insertSubscription topic) state
      (Succeeds fun _ state' =>
        state.Resubscribes state' (Insert.insert topic state.subscribed)) :=
  ⟨(), rfl, state.insert_resubscribes topic⟩

theorem removeSubscription_outcome (notReset : state.state ≠ .reset) (topic : String) :
    Outcome (removeSubscription topic) state
      (Succeeds fun _ state' => state.Resubscribes state' (state.subscribed.erase topic)) := by
  obtain ⟨state', removed, changed⟩ := State.remove_resubscribes notReset topic
  rw [Outcome, removeSubscription, write, removed]
  exact ⟨(), rfl, changed⟩

theorem State.resubscribes_of_remove (removed : state.remove topic = .ok state') :
    state.Resubscribes state' (state.subscribed.erase topic) := by
  by_cases reset : state.state = .reset
  · rw [remove, reset] at removed
    split at removed
    · cases removed
    · next absent =>
      cases removed
      exact ⟨rfl, (erase_eq_of_notMem absent).symm, id, id⟩
  · obtain ⟨_, removed', changed⟩ := remove_resubscribes reset topic
    obtain rfl := Except.ok.inj (removed.symm.trans removed')
    exact changed

/-- Handing over the pending changes adds no topic to the set. -/
theorem mem_of_mem_flushed (accounted : state.Accounted)
    (flushed : topic ∈ (flushed state).subscribed) : topic ∈ state.subscribed := by
  rw [Company.flushed] at flushed
  cases pending : state.state with
  | none | reset => simpa [pending] using flushed
  | change add remove =>
    simp only [pending, mem_sdiff, mem_union, List.mem_toFinset] at flushed
    obtain ⟨present | added, kept⟩ := flushed
    · exact present
    · exact (accounted add remove pending topic added).resolve_right kept

/-- The state after some active servers: nothing but update topics has been
added. -/
structure State.FollowsServers (tracked : String → Prop) (state state' : State) : Prop where
  cache : state'.cache = state.cache
  accounted : state'.Accounted
  old : ∀ topic ∈ state'.subscribed, tracked topic → topic ∈ state.subscribed

variable {tracked : String → Prop}

theorem State.FollowsServers.step {entry : ActiveServer}
    (follows : state.FollowsServers tracked state')
    (foreign : ∀ id, entry = .valid id → ¬ tracked (updateTopic id))
    (ran : applyActiveServer entry state' = (.ok (), state'')) :
    state.FollowsServers tracked state'' := by
  cases entry with
  | valid id =>
    cases ran
    have changed := state'.insert_resubscribes (updateTopic id)
    refine ⟨changed.cache.trans follows.cache, changed.accounted follows.accounted, ?_⟩
    intro topic present follow
    rw [changed.subscribed, mem_insert] at present
    rcases present with rfl | present
    · exact absurd follow (foreign id rfl)
    · exact follows.old topic present follow
  | expired id =>
    rw [applyActiveServer, removeSubscription, write] at ran
    cases removed : state'.remove (updateTopic id) with
    | error e => simp [removed] at ran
    | ok next =>
      rw [removed] at ran
      cases ran
      have changed := State.resubscribes_of_remove removed
      refine ⟨changed.cache.trans follows.cache, changed.accounted follows.accounted, ?_⟩
      intro topic present follow
      rw [changed.subscribed] at present
      exact follows.old topic (mem_of_mem_erase present) follow

/-- Collecting the pending changes leaves a live connection, and no tracked
topic that was not there before. -/
theorem applyState_outcome {entries : List ActiveServer} (accounted : state.Accounted)
    (foreign : ∀ id, .valid id ∈ entries → ¬ tracked (updateTopic id)) :
    Outcome (applyState entries) state fun r state' => ∀ pending, r = .ok pending →
      state'.Live ∧ state.FollowsServers tracked state' := by
  have start : state.FollowsServers tracked state := ⟨rfl, accounted, fun _ present _ => present⟩
  have followed : Outcome (applyActiveServers entries) state fun r state' =>
      r = .ok () → state.FollowsServers tracked state' := by
    apply Outcome.attempt_bind
    · intro isBot _
      cases isBot with
      | true => exact fun _ => start
      | false =>
        have guarded : Guarded applyActiveServer (fun _ entry => ∀ id, entry = .valid id →
            ¬ tracked (updateTopic id)) state entries := by
          refine guarded_of_forall ?_ state
          rintro _ listed _ id rfl
          exact foreign id listed
        refine invariant_of_run ?_ start guarded
        intro state' entry state'' follows condition ran
        exact follows.step condition ran
    · rintro e _ ⟨⟩
  rw [applyState]
  apply Outcome.bind followed
  · intro _ state' follows
    have follows := follows rfl
    rintro pending ⟨⟩
    refine ⟨⟨by rintro ⟨⟩, by rintro _ _ ⟨⟩⟩, follows.cache, by rintro _ _ ⟨⟩, ?_⟩
    intro topic present follow
    exact follows.old topic (mem_of_mem_flushed follows.accounted present) follow
  · rintro e state' _ _ ⟨⟩

end Bookkeeping

end Company
