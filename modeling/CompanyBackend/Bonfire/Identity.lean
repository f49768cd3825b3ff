import CompanyBackend.Bonfire.Listener

/-!
# Whose documents a connection has cached

A connection finds its own user under its own id, and the memberships of its user under the
ids of their servers. Both maps are filled from documents that come with ids of their own,
so the keys and the documents may come apart.

Most of what a connection does leaves both maps alone. `EventV1.identify` says what an event
does to them, as a function on the maps; every handled event follows it, and what the maps
hold after a run is a matter of this function alone.
-/

namespace Company

open Request Outcome

/-- The part of the cache that says whose documents it holds. -/
structure Identity where
  userId : String
  users : HashMap String User
  members : HashMap String Member

def Cache.identity (cache : Cache) : Identity where
  userId := cache.userId
  users := cache.users
  members := cache.members

/-- Every cached member is the membership of the connected user in the
server. -/
def Identity.OwnMembers (identity : Identity) : Prop :=
  ∀ id member, identity.members.lookup id = some member →
    member.id = { server := id, user := identity.userId }

/-- Every cached user is stored under its own id. -/
def Identity.KeyedUsers (identity : Identity) : Prop :=
  ∀ id user, identity.users.lookup id = some user → user.id = id

/-- What an event does to the two maps. -/
def EventV1.identify (now : Timestamp) (identity : Identity) : EventV1 → Identity
  | .serverCreate id server _ =>
    { identity with
      members := identity.members.put id
        { id := { server := server.id, user := identity.userId }, joinedAt := now } }
  | .serverMemberLeave id user =>
    if user == identity.userId then { identity with members := identity.members.erase id }
    else identity
  | .serverDelete id => { identity with members := identity.members.erase id }
  | .serverMemberUpdate id data clear =>
    if id.user == identity.userId then
      { identity with
        members := identity.members.modify id.server fun member =>
          (clear.foldl Member.removeField member).applyOptions data }
    else identity
  | .userRelationship id user => { identity with users := identity.users.put id user.toUser }
  | _ => identity

open Keeps

variable {α : Type}

section Frames

variable {β : Type} {view : Cache → β} {seen : β} {state state' : State}

/-- The state shows the same part of its cache. -/
def State.Shows (view : Cache → β) (seen : β) (state : State) : Prop := view state.cache = seen

theorem insertSubscription_shows (topic : String) :
    Keeps (State.Shows view seen) (insertSubscription topic) := by
  refine keeps_write ?_
  rintro state _ held ⟨⟩
  rwa [State.Shows, (state.insert_resubscribes topic).cache]

theorem removeSubscription_shows (topic : String) :
    Keeps (State.Shows view seen) (removeSubscription topic) := by
  refine keeps_write ?_
  intro state state' held removed
  rwa [State.Shows, (State.resubscribes_of_remove removed).cache]

theorem modifyCache_shows {f : Cache → Cache} (same : ∀ cache, view (f cache) = view cache) :
    Keeps (State.Shows view seen) (modifyCache f) := by
  refine keeps_write ?_
  rintro state _ held ⟨⟩
  exact (same state.cache).trans held

theorem readCache_shows (f : Cache → Except Panic α) :
    Keeps (State.Shows view seen) (readCache f) :=
  (readOnly_attempt _).keeps

theorem fetchViewable_shows (db : EventDatabase) (now : Timestamp) (ids : List String) :
    Keeps (State.Shows view seen) (fetchViewable db now ids) := by
  rw [fetchViewable]
  split
  · exact keeps_pure _
  · split
    · exact readCache_shows _
    · exact keeps_pure _

theorem onQueued_shows {action : String → Connection Unit}
    (kept : ∀ id, Keeps (State.Shows view seen) (action id)) (value : Option String) :
    Keeps (State.Shows view seen) (onQueued action value) := by
  cases value with
  | none => exact (readOnly_pure ()).keeps
  | some id => exact kept id

section Channels

-- Channels are not part of the view.
variable (apart : ∀ cache channels, view { cache with channels } = view cache)
include apart

theorem dropChannel_shows (id : String) : Keeps (State.Shows view seen) (dropChannel id) :=
  (removeSubscription_shows id).bind fun _ => modifyCache_shows fun cache => apart cache _

theorem learnChannel_shows (channel : Channel) :
    Keeps (State.Shows view seen) (learnChannel channel) :=
  (modifyCache_shows fun cache => apart cache _).bind fun _ => insertSubscription_shows channel.id

theorem recalculateServer_shows (db : EventDatabase) (now : Timestamp) (id : String)
    (event : EventV1) : Keeps (State.Shows view seen) (recalculateServer db now id event) := by
  refine (readCache_shows _).bind ?_
  intro found
  cases found with
  | none => exact keeps_pure _
  | some server =>
    refine (readCache_shows _).bind fun _ => ?_
    refine (forEach insertSubscription_shows _).bind fun _ => ?_
    refine (forEach (dropChannel_shows apart) _).bind fun _ => ?_
    refine (fetchViewable_shows db now _).bind fun _ => ?_
    exact (forEach (learnChannel_shows apart) _).bind fun _ => keeps_pure _

theorem handleQueued_shows (db : EventDatabase) (now : Timestamp) (handled : EventV1 × Queue) :
    Keeps (State.Shows view seen) (do
      let event ← recalculateQueued db now handled.1 handled.2.server
      onQueued insertSubscription handled.2.add
      onQueued removeSubscription handled.2.remove
      return (true, event)) := by
  refine bind ?_ fun event => ?_
  · cases handled.2.server with
    | none => exact keeps_pure _
    | some id => exact recalculateServer_shows apart db now id _
  · refine (onQueued_shows insertSubscription_shows _).bind fun _ => ?_
    exact (onQueued_shows removeSubscription_shows _).bind fun _ => keeps_pure _

end Channels

end Frames

variable {identity : Identity}

section Holds

variable {state state' : State}

def State.Holds (identity : Identity) (state : State) : Prop := state.cache.identity = identity

theorem leaveGroup_holds (id user : String) :
    Keeps (State.Holds identity) (leaveGroup id user) := by
  refine (readCache_shows _).bind ?_
  intro cache
  split
  · exact removeSubscription_shows id
  · exact (removeSubscription_shows user).onlyIf

theorem Cache.updateChannel_identity (db : EventDatabase) (id : String) (data : PartialChannel)
    (clear : List FieldsChannel) (cache : Cache) :
    (cache.updateChannel db id data clear).identity = cache.identity := by
  rw [updateChannel]
  split
  · rfl
  · split <;> rfl

theorem Cache.see_identity (eventId : Option String) (cache : Cache) :
    (cache.see eventId).identity = cache.identity := by
  cases eventId <;> rfl

theorem applyState_holds (servers : List ActiveServer) :
    Keeps (State.Holds identity) (applyState servers) := by
  have entry : ∀ server, Keeps (State.Holds identity) (applyActiveServer server) := by
    intro server
    cases server with
    | valid id => exact insertSubscription_shows (updateTopic id)
    | expired id => exact removeSubscription_shows (updateTopic id)
  have flush : Keeps (State.Holds identity)
      (write fun state => .ok (flushed state) : Connection Unit) := by
    refine keeps_write ?_
    rintro state _ held ⟨⟩
    exact held
  refine bind ?_ fun _ => ?_
  · exact (readCache_shows _).bind fun _ => (forEach entry servers).onlyIf
  · exact (readOnly_attempt _).keeps.bind fun _ => flush.bind fun _ => keeps_pure _

theorem handleChannelUpdate_holds (db : EventDatabase) (now : Timestamp) (id : String)
    (data : PartialChannel) (clear : List FieldsChannel) :
    Keeps (State.Holds identity) (handleChannelUpdate db now id data clear) := by
  refine (readCache_shows _).bind fun _ => ?_
  refine (modifyCache_shows (Cache.updateChannel_identity db id data clear)).bind fun _ => ?_
  refine (readCache_shows _).bind fun _ => ?_
  exact (readCache_shows _).bind fun _ => keeps_pure _

end Holds

section Events

variable {db : EventDatabase} {now : Timestamp} {state state' : State}

/-- The action, if it succeeds, leaves these two maps. -/
def Leaves {α : Type} (identity : Identity) (r : Except Failure α) (state : State) : Prop :=
  ∀ a, r = .ok a → state.Holds identity

theorem Keeps.leaves {x : Connection α} (kept : Keeps (State.Holds identity) x)
    (held : state.Holds identity) : Outcome x state (Leaves identity) :=
  fun _ _ => kept state held

theorem leaves_error (e : Failure) (state : State) :
    Leaves identity (.error e : Except Failure α) state := by
  rintro _ ⟨⟩

theorem leaves_bind {β : Type} {x : Connection β} {f : β → Connection α} {P : State → Prop}
    (first : Keeps P x) (held : P state)
    (next : ∀ b state, P state → Outcome (f b) state (Leaves identity)) :
    Outcome (x >>= f) state (Leaves identity) :=
  keeps_bind first held next fun e s _ => leaves_error e s

open Keeps

section

variable (held : state.Holds identity)

include held

theorem forgetServer_leaves (id : String) : Outcome (forgetServer id) state
      (Leaves { identity with members := identity.members.erase id }) := by
  rw [forgetServer]
  refine leaves_bind (removeSubscription_shows id) held fun _ s₁ held₁ => ?_
  refine leaves_bind (readCache_shows _) held₁ fun _ s₂ held₂ => ?_
  refine leaves_bind (modifyCache_shows fun _ => rfl) held₂ fun _ s₃ held₃ => ?_
  refine leaves_bind (forEach (dropChannel_shows fun _ _ => rfl) _) held₃ fun _ s₄ held₄ => ?_
  subst held₄
  exact fun _ _ => rfl

theorem joinServer_leaves (id : String) (server : Server) (channels : List Channel) :
    Outcome (joinServer now id server channels) state
      (Leaves (EventV1.identify now identity (.serverCreate id server channels))) := by
  rw [joinServer]
  refine leaves_bind (insertSubscription_shows id) held fun _ s₁ held₁ => ?_
  refine leaves_bind (readCache_shows _) held₁ fun _ s₂ held₂ => ?_
  refine leaves_bind (insertSubscription_shows _).onlyIf held₂ fun _ s₃ held₃ => ?_
  subst held₃
  exact fun _ _ => rfl

theorem changeRelationship_leaves (id : String) (user : ApiUser) :
    Outcome (changeRelationship id user) state
      (Leaves (EventV1.identify now identity (.userRelationship id user))) := by
  rw [changeRelationship]
  apply modifyCache_bind
  subst held
  refine leaves ((readCache_shows _).bind ?_) rfl
  intro subscribe
  cases subscribe with
  | true => exact insertSubscription_shows id
  | false => exact removeSubscription_shows id

variable {action : Connection Unit}

omit held in
theorem leaves_return {handled : Option (EventV1 × Queue)}
    (left : Outcome action state (Leaves identity)) :
    Outcome (action >>= fun _ => pure handled) state (Leaves identity) := by
  refine Outcome.bind left ?_ fun e s _ => leaves_error e s
  intro _ state' held
  exact fun _ _ => held () rfl

/-- What concerns only the own user leaves the maps alone for everybody else. -/
theorem onlyOwn_leaves {user : String} {after : Identity}
    (acts : Outcome action state (Leaves after)) :
    Outcome (onlyIf (user == identity.userId) action) state
      (Leaves (if user == identity.userId then after else identity)) := by
  refine Outcome.onlyIf ?_ ?_
  · intro own
    rw [if_pos own]
    exact acts
  · intro foreign
    rw [foreign]
    exact fun _ _ => held

end

theorem dispatchEvent_leaves (event : EventV1) :
    Outcome (dispatchEvent db now event) state
      (Leaves (event.identify now state.cache.identity)) := by
  have held : state.Holds state.cache.identity := rfl
  have returns : ∀ handled : Option (EventV1 × Queue),
      Keeps (State.Holds state.cache.identity) (pure handled : Connection _) := fun _ =>
    keeps_pure _
  cases event with
  | serverCreate id server channels =>
    exact leaves_return (joinServer_leaves held id server channels)
  | serverDelete id => exact leaves_return (forgetServer_leaves held id)
  | userRelationship id user => exact leaves_return (changeRelationship_leaves held id user)
  | serverMemberLeave id user =>
    rw [dispatchEvent, EventV1.identify]
    apply askCache_bind
    exact leaves_return (onlyOwn_leaves held (forgetServer_leaves held id))
  | serverMemberUpdate id data clear =>
    rw [dispatchEvent, EventV1.identify]
    apply askCache_bind
    exact leaves_return (onlyOwn_leaves held fun _ _ => rfl)
  | channelCreate channel =>
    rw [dispatchEvent]
    refine leaves (bind (insertSubscription_shows _) fun _ => ?_) held
    exact bind (modifyCache_shows fun _ => rfl) fun _ => returns _
  | channelUpdate id data clear =>
    exact leaves ((handleChannelUpdate_holds db now id data clear).bind fun _ => returns _) held
  | channelDelete id =>
    exact leaves ((dropChannel_shows (fun _ _ => rfl) id).bind fun _ => returns _) held
  | channelGroupJoin id user =>
    exact leaves ((insertSubscription_shows user).bind fun _ => returns _) held
  | channelGroupLeave id user =>
    exact leaves ((leaveGroup_holds id user).bind fun _ => returns _) held
  | serverUpdate id data clear =>
    rw [dispatchEvent]
    refine leaves ?_ held
    exact bind (modifyCache_shows fun _ => rfl) fun _ => returns _
  | serverRoleUpdate id roleId data clear =>
    rw [dispatchEvent]
    refine leaves (bind (modifyCache_shows fun _ => rfl) fun _ => ?_) held
    exact (readCache_shows _).bind fun _ => returns _
  | serverRoleDelete id roleId =>
    rw [dispatchEvent]
    refine leaves (bind (modifyCache_shows fun _ => rfl) fun _ => ?_) held
    exact (readCache_shows _).bind fun _ => returns _
  | userUpdate id data clear eventId =>
    refine leaves ((readCache_shows _).bind fun seen => ?_) held
    cases seen with
    | true => exact returns _
    | false => exact (modifyCache_shows (Cache.see_identity eventId)).bind fun _ => returns _
  | message message => exact leaves ((readCache_shows _).bind fun _ => returns _) held
  | _ => exact leaves (returns _) held

/-- An event that is handled does to the two maps what `identify` says. -/
theorem handleIncomingEventV1_leaves (event : EventV1) :
    Outcome (handleIncomingEventV1 db now event) state
      (Leaves (event.identify now state.cache.identity)) := by
  rw [handleIncomingEventV1]
  refine Outcome.bind (dispatchEvent_leaves event) ?_ fun e s _ => leaves_error e s
  intro handled state₁ left
  have held := left handled rfl
  cases handled with
  | none => exact fun _ _ => held
  | some handled =>
    exact leaves (handleQueued_shows (fun _ _ => rfl) db now handled) held

end Events

/-! ## Turns and runs -/

/-- What a turn of the listener does to the two maps. -/
def Turn.identify (identity : Identity) (turn : Turn) : Identity :=
  match turn.delivery with
  | some delivery => delivery.event.identify delivery.now identity
  | none => identity

section Runs

variable {state state' : State} {turns : List Turn}

theorem listen_leaves (turn : Turn) :
    Outcome (listen turn) state (Leaves (turn.identify state.cache.identity)) := by
  have held : state.Holds state.cache.identity := rfl
  rw [listen]
  refine leaves_bind (applyState_holds _) held fun _ s₁ held₁ => ?_
  cases delivered : turn.delivery with
  | none =>
    rw [Turn.identify, delivered]
    exact fun _ _ => held₁
  | some delivery =>
    rw [Turn.identify, delivered, ← held₁]
    refine Outcome.bind (handleIncomingEventV1_leaves delivery.event) ?_
      fun e s _ => leaves_error e s
    intro handled s₂ left
    exact fun _ _ => left handled rfl

/-- A run does to the two maps what its turns do to them, one after the
other. -/
theorem identity_of_run (ran : forEach listen turns state = (.ok (), state')) :
    state'.cache.identity = turns.foldl Turn.identify state.cache.identity := by
  induction turns generalizing state with
  | nil =>
    cases ran
    rfl
  | cons turn turns ih =>
    obtain ⟨_, state₁, first, rest⟩ := of_bind_eq_ok ran
    have left : state₁.cache.identity = turn.identify state.cache.identity :=
      (listen_leaves turn).elim first () rfl
    rw [List.foldl_cons, ← left]
    exact ih rest

end Runs

end Company
