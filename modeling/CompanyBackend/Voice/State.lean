import CompanyBackend.Database.Models
import Mathlib.Logic.Function.Basic
import Mathlib.Logic.Relation
import Mathlib.Tactic.MkIffOfInductiveProp

/-!
# Voice state

What Redis knows about calls: for each channel the set of its members, for each user the set
of channels, and under a key made of the user and the parent of the channel the channel itself
and the flags of the connection. The parent of a channel is its server, or the channel itself
where there is none, so all channels of one server share the key of a user.

A command that the source sends as one pipeline is one step here. The keys of different kinds
are kept apart by their types.
-/

namespace Company

open Function

namespace RedisSet

/-- `SADD` -/
def add (value : String) (set : List String) : List String :=
  if value ∈ set then set else value :: set

/-- `SREM` -/
def remove (value : String) (set : List String) : List String := set.filter (· ≠ value)

variable {value other : String} {set : List String}

@[simp] theorem mem_add : other ∈ add value set ↔ other = value ∨ other ∈ set := by
  rw [add]
  split
  · next present =>
    constructor
    · exact .inr
    · rintro (rfl | present') <;> assumption
  · rw [List.mem_cons]

@[simp] theorem mem_remove : other ∈ remove value set ↔ other ∈ set ∧ other ≠ value := by
  simp [remove]

end RedisSet

/-- The key that the channels of one server share:
`<user>:<server or channel>`. -/
structure VoiceKey where
  user : String
  parent : String
  deriving DecidableEq, Repr

inductive ConnectionType where
  | participant | viewer
  deriving DecidableEq, Repr

structure UserVoiceState where
  id : String
  joinedAt : Timestamp
  isReceiving : Bool := true
  isPublishing : Bool := false
  screensharing : Bool := false
  camera : Bool := false
  deriving DecidableEq, Repr

structure PartialUserVoiceState where
  id : Option String := none
  isReceiving : Option Bool := none
  isPublishing : Option Bool := none
  screensharing : Option Bool := none
  camera : Option Bool := none
  deriving DecidableEq, Repr

structure VoiceRedis where
  /-- `vc_members:<channel>` -/
  members : String → List String := fun _ => []
  /-- `vc:<user>` -/
  channels : String → List String := fun _ => []
  /-- The unique key itself holds a channel. -/
  current : VoiceKey → Option String := fun _ => none
  joinedAt : VoiceKey → Option Timestamp := fun _ => none
  isPublishing : VoiceKey → Option Bool := fun _ => none
  isReceiving : VoiceKey → Option Bool := fun _ => none
  screensharing : VoiceKey → Option Bool := fun _ => none
  camera : VoiceKey → Option Bool := fun _ => none
  /-- `node:<channel>` -/
  nodes : String → Option String := fun _ => none
  activeVoiceChannels : List String := []
  /-- `vc_connection_type:<user>:<channel>` -/
  connectionTypes : (user channel : String) → Option ConnectionType := fun _ _ => none
  /-- `vc_viewers:<channel>` -/
  viewers : String → List String := fun _ => []
  /-- `moved_from:<user>:<old channel>` -/
  movedFrom : (user channel : String) → Option String := fun _ _ => none
  /-- `moved_to:<user>:<new channel>` -/
  movedTo : (user channel : String) → Option String := fun _ _ => none
  /-- `call_notification_recipients:<channel>-<user>` -/
  callRecipients : (channel user : String) → Option (List String) := fun _ _ => none

def uniqueKey (channelId : String) (serverId : Option String) (userId : String) : VoiceKey :=
  { user := userId, parent := serverId.getD channelId }

namespace VoiceRedis

variable (redis : VoiceRedis)

variable (channelId : String) (serverId : Option String) (userId : String)

/-- An empty set does not exist. -/
def getVoiceChannelMembers : Option (List String) :=
  if (redis.members channelId).isEmpty then none else some (redis.members channelId)

def getUserVoiceChannels (userId : String) : List String := redis.channels userId

def isInVoiceChannel (userId channelId : String) : Bool :=
  (redis.channels userId).contains channelId

def getUserVoiceChannelInServer (userId serverId : String) : Option String :=
  redis.current { user := userId, parent := serverId }

def getChannelNode : Option String := redis.nodes channelId

def getVoiceConnectionType (channelId userId : String) : Option ConnectionType :=
  redis.connectionTypes userId channelId

/-- The state of a connection, if none of its keys is missing. -/
def getVoiceState : Option UserVoiceState := do
  let key := uniqueKey channelId serverId userId
  let joinedAt ← redis.joinedAt key
  let isPublishing ← redis.isPublishing key
  let isReceiving ← redis.isReceiving key
  let screensharing ← redis.screensharing key
  let camera ← redis.camera key
  return { id := userId, joinedAt, isReceiving, isPublishing, screensharing, camera }

def setChannelNode (channelId node : String) : VoiceRedis :=
  { redis with nodes := update redis.nodes channelId (some node) }

open RedisSet

section

variable (channelId userId : String)

def setVoiceConnectionType (connectionType : ConnectionType) : VoiceRedis :=
  { redis with
    connectionTypes := update redis.connectionTypes userId
      (update (redis.connectionTypes userId) channelId (some connectionType)) }

def deleteVoiceConnectionType : VoiceRedis :=
  { redis with
    connectionTypes := update redis.connectionTypes userId
      (update (redis.connectionTypes userId) channelId none) }

def setUserMovedFromVoice (oldChannel newChannel userId : String) : VoiceRedis :=
  { redis with
    movedFrom := update redis.movedFrom userId
      (update (redis.movedFrom userId) oldChannel (some newChannel)) }

def setUserMovedToVoice (newChannel oldChannel userId : String) : VoiceRedis :=
  { redis with
    movedTo := update redis.movedTo userId
      (update (redis.movedTo userId) newChannel (some oldChannel)) }

/-- `GETDEL`, of which the event needs only the removal here. -/
def takeUserMovedFromVoice : VoiceRedis :=
  { redis with
    movedFrom := update redis.movedFrom userId (update (redis.movedFrom userId) channelId none) }

def takeUserMovedToVoice : VoiceRedis :=
  { redis with
    movedTo := update redis.movedTo userId (update (redis.movedTo userId) channelId none) }

def setCallNotificationRecipients (recipients : List String) : VoiceRedis :=
  { redis with
    callRecipients := update redis.callRecipients channelId
      (update (redis.callRecipients channelId) userId (some recipients)) }

def createViewerState : VoiceRedis :=
  { redis with
    viewers := update redis.viewers channelId (add userId (redis.viewers channelId)) }

def deleteViewerState : VoiceRedis :=
  { redis with
    viewers := update redis.viewers channelId (remove userId (redis.viewers channelId)) }

end

def deleteChannelViewerState : VoiceRedis :=
  { redis with viewers := update redis.viewers channelId [] }

def putState (key : VoiceKey) (channelId : String) (state : UserVoiceState) : VoiceRedis :=
  { redis with
    current := update redis.current key (some channelId)
    joinedAt := update redis.joinedAt key (some state.joinedAt)
    isPublishing := update redis.isPublishing key (some state.isPublishing)
    isReceiving := update redis.isReceiving key (some state.isReceiving)
    screensharing := update redis.screensharing key (some state.screensharing)
    camera := update redis.camera key (some state.camera) }

def dropState (key : VoiceKey) : VoiceRedis :=
  { redis with
    current := update redis.current key none
    joinedAt := update redis.joinedAt key none
    isPublishing := update redis.isPublishing key none
    isReceiving := update redis.isReceiving key none
    screensharing := update redis.screensharing key none
    camera := update redis.camera key none }

def createVoiceState (joinedAt : Timestamp) : VoiceRedis :=
  let redis := { redis with
    members := update redis.members channelId (add userId (redis.members channelId))
    channels := update redis.channels userId (add channelId (redis.channels userId)) }
  let redis := redis.putState (uniqueKey channelId serverId userId) channelId
    { id := userId, joinedAt }
  { redis with activeVoiceChannels := add channelId redis.activeVoiceChannels }

def deleteVoiceState : VoiceRedis :=
  let redis := { redis with
    members := update redis.members channelId (remove userId (redis.members channelId))
    channels := update redis.channels userId (remove channelId (redis.channels userId)) }
  let redis := redis.dropState (uniqueKey channelId serverId userId)
  if (redis.members channelId).isEmpty then
    { redis with
      activeVoiceChannels := remove channelId redis.activeVoiceChannels }
  else redis

/-- One turn of the loop over the users of a channel that goes away. -/
def forgetUser (channelId parent : String) (redis : VoiceRedis) (userId : String) : VoiceRedis :=
  { redis with
    channels := update redis.channels userId
      (remove channelId (redis.channels userId)) }.dropState { user := userId, parent }

def deleteChannelVoiceState (userIds : List String) : VoiceRedis :=
  let redis := { redis with members := update redis.members channelId [] }
  let redis := userIds.foldl (forgetUser channelId (serverId.getD channelId)) redis
  { redis with activeVoiceChannels := remove channelId redis.activeVoiceChannels }

/-- Set the flags that the partial state has. -/
def updateVoiceState (changes : PartialUserVoiceState) : VoiceRedis :=
  let key := uniqueKey channelId serverId userId
  { redis with
    camera := update redis.camera key (changes.camera <|> redis.camera key)
    isPublishing := update redis.isPublishing key (changes.isPublishing <|> redis.isPublishing key)
    isReceiving := update redis.isReceiving key (changes.isReceiving <|> redis.isReceiving key)
    screensharing :=
      update redis.screensharing key (changes.screensharing <|> redis.screensharing key) }

/-! ## What is read after a write -/

section Reads

variable {redis} {channelId channel userId user : String} {serverId server : Option String}
variable {joinedAt : Timestamp} {key : VoiceKey} {node : String}

open RedisSet

theorem createVoiceState_eq :
    redis.createVoiceState channelId serverId userId joinedAt =
      { redis.putState (uniqueKey channelId serverId userId) channelId
          { id := userId, joinedAt } with
        members := update redis.members channelId (add userId (redis.members channelId))
        channels := update redis.channels userId (add channelId (redis.channels userId))
        activeVoiceChannels := add channelId redis.activeVoiceChannels } := rfl

/-- The set of active channels is the only one that a leave updates on a
condition. -/
theorem deleteVoiceState_eq :
    redis.deleteVoiceState channelId serverId userId =
      { redis.dropState (uniqueKey channelId serverId userId) with
        members := update redis.members channelId (remove userId (redis.members channelId))
        channels := update redis.channels userId (remove channelId (redis.channels userId))
        activeVoiceChannels :=
          if (remove userId (redis.members channelId)).isEmpty then
            remove channelId redis.activeVoiceChannels
          else redis.activeVoiceChannels } := by
  simp only [deleteVoiceState, dropState, update_self]
  split
  · rfl
  · rfl

variable {sets : String → List String} {name other value : String}

theorem mem_update_add : value ∈ update sets name (add other (sets name)) channel ↔
      channel = name ∧ value = other ∨ value ∈ sets channel := by
  by_cases same : channel = name
  · subst same
    simp
  · simp [same]

theorem mem_update_remove : value ∈ update sets name (remove other (sets name)) channel ↔
      value ∈ sets channel ∧ ¬(channel = name ∧ value = other) := by
  by_cases same : channel = name
  · subst same
    simp
  · simp [same]

theorem mem_members_createVoiceState :
    user ∈ (redis.createVoiceState channelId serverId userId joinedAt).members channel ↔
      channel = channelId ∧ user = userId ∨ user ∈ redis.members channel :=
  mem_update_add

theorem mem_members_deleteVoiceState :
    user ∈ (redis.deleteVoiceState channelId serverId userId).members channel ↔
      user ∈ redis.members channel ∧ ¬(channel = channelId ∧ user = userId) := by
  rw [deleteVoiceState_eq]
  exact mem_update_remove

theorem mem_channels_deleteVoiceState :
    channel ∈ (redis.deleteVoiceState channelId serverId userId).channels user ↔
      channel ∈ redis.channels user ∧ ¬(user = userId ∧ channel = channelId) := by
  rw [deleteVoiceState_eq]
  exact mem_update_remove

theorem getVoiceConnectionType_deleteVoiceConnectionType :
    (redis.deleteVoiceConnectionType channelId userId).getVoiceConnectionType channel userId =
      if channel = channelId then none else redis.getVoiceConnectionType channel userId := by
  simp [getVoiceConnectionType, deleteVoiceConnectionType, update_apply]

theorem getVoiceConnectionType_deleteVoiceState :
    (redis.deleteVoiceState channelId serverId userId).getVoiceConnectionType channel user =
      redis.getVoiceConnectionType channel user := by
  rw [deleteVoiceState_eq]
  rfl

/-- The keys of a connection are written together and deleted together. -/
structure Connected (redis : VoiceRedis) (key : VoiceKey) (channelId : String) : Prop where
  current : redis.current key = some channelId
  joinedAt : (redis.joinedAt key).isSome
  isPublishing : (redis.isPublishing key).isSome
  isReceiving : (redis.isReceiving key).isSome
  screensharing : (redis.screensharing key).isSome
  camera : (redis.camera key).isSome

@[mk_iff] structure Disconnected (redis : VoiceRedis) (key : VoiceKey) : Prop where
  current : redis.current key = none
  joinedAt : redis.joinedAt key = none
  isPublishing : redis.isPublishing key = none
  isReceiving : redis.isReceiving key = none
  screensharing : redis.screensharing key = none
  camera : redis.camera key = none

theorem connected_createVoiceState :
    (redis.createVoiceState channelId serverId userId joinedAt).Connected
      (uniqueKey channelId serverId userId) channelId := by
  rw [createVoiceState_eq]
  constructor <;> simp [putState]

theorem disconnected_deleteVoiceState :
    (redis.deleteVoiceState channelId serverId userId).Disconnected
      (uniqueKey channelId serverId userId) := by
  rw [deleteVoiceState_eq]
  constructor <;> simp [dropState]

theorem Connected.getVoiceState
    (connected : redis.Connected (uniqueKey channel server user) channelId) :
    (redis.getVoiceState channel server user).isSome := by
  obtain ⟨_, joinedAt, isPublishing, isReceiving, screensharing, camera⟩ := connected
  rw [Option.isSome_iff_exists] at joinedAt isPublishing isReceiving screensharing camera
  obtain ⟨joinedAt, hj⟩ := joinedAt
  obtain ⟨isPublishing, hp⟩ := isPublishing
  obtain ⟨isReceiving, hr⟩ := isReceiving
  obtain ⟨screensharing, hs⟩ := screensharing
  obtain ⟨camera, hc⟩ := camera
  simp [VoiceRedis.getVoiceState, hj, hp, hr, hs, hc]

theorem Disconnected.getVoiceState
    (disconnected : redis.Disconnected (uniqueKey channel server user)) :
    redis.getVoiceState channel server user = none := by
  simp [VoiceRedis.getVoiceState, disconnected.joinedAt]

end Reads

/-- Members and connections may go, and nodes may come. -/
structure Shrinks (redis redis' : VoiceRedis) : Prop where
  members : ∀ channel, redis'.members channel ⊆ redis.members channel
  current : ∀ key channel, redis'.current key = some channel → redis.current key = some channel
  nodes : ∀ channel, (redis.nodes channel).isSome → (redis'.nodes channel).isSome

section Shrinking

variable {redis redis' redis'' : VoiceRedis} {channelId userId : String} {serverId : Option String}

theorem Shrinks.of_eq (members : redis'.members = redis.members)
    (current : redis'.current = redis.current) (nodes : redis'.nodes = redis.nodes) :
    redis.Shrinks redis' where
  members _ := members ▸ List.Subset.refl _
  current _ _ found := current ▸ found
  nodes _ known := nodes ▸ known

theorem Shrinks.refl (redis : VoiceRedis) : redis.Shrinks redis := .of_eq rfl rfl rfl

theorem Shrinks.trans (first : redis.Shrinks redis') (second : redis'.Shrinks redis'') :
    redis.Shrinks redis'' where
  members channel := List.Subset.trans (second.members channel) (first.members channel)
  current key channel found := first.current key channel (second.current key channel found)
  nodes channel known := second.nodes channel (first.nodes channel known)

theorem shrinks_setChannelNode (node : String) :
    redis.Shrinks (redis.setChannelNode channelId node) := by
  refine ⟨fun _ => List.Subset.refl _, fun _ _ found => found, fun channel known => ?_⟩
  rw [setChannelNode]
  by_cases same : channel = channelId
  · subst same
    simp
  · simp [update_of_ne same, known]

/-- Keys that are deleted name no channel any more. -/
theorem current_of_dropState {key other : VoiceKey} {channel : String}
    (found : (redis.dropState key).current other = some channel) :
    redis.current other = some channel := by
  by_cases same : other = key
  · subst same
    simp [dropState] at found
  · simpa [dropState, update_of_ne same] using found

theorem shrinks_deleteVoiceState :
    redis.Shrinks (redis.deleteVoiceState channelId serverId userId) := by
  refine ⟨fun channel user listed => ?_, fun key channel found => ?_, fun channel known => ?_⟩
  · exact (mem_members_deleteVoiceState.mp listed).1
  · rw [deleteVoiceState_eq] at found
    exact current_of_dropState found
  · rw [deleteVoiceState_eq]
    exact known

theorem shrinks_forgetUser (parent : String) :
    redis.Shrinks (forgetUser channelId parent redis userId) :=
  ⟨fun _ => List.Subset.refl _, fun _ _ found => current_of_dropState found, fun _ known => known⟩

theorem shrinks_deleteChannelVoiceState (userIds : List String) :
    redis.Shrinks (redis.deleteChannelVoiceState channelId serverId userIds) := by
  have cleared : redis.Shrinks
      { redis with members := update redis.members channelId [] } := by
    refine ⟨fun channel => ?_, fun _ _ found => found, fun _ known => known⟩
    by_cases same : channel = channelId
    · subst same
      simp
    · simp [update_of_ne same]
  have forgotten : ∀ redis : VoiceRedis, redis.Shrinks
      (userIds.foldl (forgetUser channelId (serverId.getD channelId)) redis) := by
    induction userIds with
    | nil => exact .refl
    | cons userId userIds ih =>
      intro redis
      exact (shrinks_forgetUser _).trans (ih _)
  exact (cleared.trans (forgotten _)).trans (.of_eq rfl rfl rfl)

end Shrinking

/-- Users are listed for a channel that is listed for them, and the active
channels are those that somebody is listed for. -/
structure Symmetric (redis : VoiceRedis) : Prop where
  mirrored : ∀ user channel, user ∈ redis.members channel ↔ channel ∈ redis.channels user
  active : ∀ channel, channel ∈ redis.activeVoiceChannels ↔ ∃ user, user ∈ redis.members channel

/-- The calls by which users enter and leave. A channel is cleared with all of
its members. -/
inductive Step (redis : VoiceRedis) : VoiceRedis → Prop
  | create (channelId : String) (serverId : Option String) (userId : String)
      (joinedAt : Timestamp) : Step redis
        (redis.createVoiceState channelId serverId userId joinedAt)
  | delete (channelId : String) (serverId : Option String) (userId : String) :
      Step redis (redis.deleteVoiceState channelId serverId userId)
  | clear (channelId : String) (serverId : Option String) {userIds : List String}
      (all : redis.members channelId ⊆ userIds) :
      Step redis (redis.deleteChannelVoiceState channelId serverId userIds)

section Symmetry

open RedisSet

variable {redis redis' : VoiceRedis} {channelId channel userId user : String}
variable {serverId : Option String}

theorem mem_active_deleteVoiceState :
    channel ∈ (redis.deleteVoiceState channelId serverId userId).activeVoiceChannels ↔
      channel ∈ redis.activeVoiceChannels ∧
        (channel = channelId → ∃ user, user ∈ redis.members channelId ∧ user ≠ userId) := by
  rw [deleteVoiceState_eq]
  have left := @List.isEmpty_eq_false_iff_exists_mem _ (remove userId (redis.members channelId))
  simp only [mem_remove] at left
  rw [← left]
  cases (remove userId (redis.members channelId)).isEmpty <;> simp

/-- The loop over the users takes the channel from each of them, and leaves the
other sets. -/
theorem foldl_forgetUser (parent : String) (userIds : List String) :
    (userIds.foldl (forgetUser channelId parent) redis).members = redis.members ∧
      (userIds.foldl (forgetUser channelId parent) redis).activeVoiceChannels =
        redis.activeVoiceChannels ∧
      ∀ user channel, channel ∈ (userIds.foldl (forgetUser channelId parent) redis).channels user ↔
        channel ∈ redis.channels user ∧ ¬(user ∈ userIds ∧ channel = channelId) := by
  induction userIds generalizing redis with
  | nil => simp
  | cons userId userIds ih =>
    obtain ⟨members, active, channels⟩ := @ih (forgetUser channelId parent redis userId)
    refine ⟨members, active, ?_⟩
    intro user channel
    have turn : channel ∈ (forgetUser channelId parent redis userId).channels user ↔
        channel ∈ redis.channels user ∧ ¬(user = userId ∧ channel = channelId) := mem_update_remove
    rw [List.foldl_cons, channels, turn, List.mem_cons]
    tauto

theorem Symmetric.step (symmetric : redis.Symmetric) (step : redis.Step redis') :
    redis'.Symmetric := by
  cases step with
  | create channelId serverId userId joinedAt =>
    refine ⟨fun user channel => ?_, fun channel => ?_⟩
    · rw [mem_members_createVoiceState, symmetric.mirrored, and_comm]
      exact mem_update_add.symm
    · refine (@mem_add _ _ redis.activeVoiceChannels).trans ?_
      simp only [mem_members_createVoiceState, symmetric.active, exists_or, exists_eq, and_true,
        exists_and_left]
  | delete channelId serverId userId =>
    refine ⟨fun user channel => ?_, fun channel => ?_⟩
    · rw [mem_members_deleteVoiceState, mem_channels_deleteVoiceState, symmetric.mirrored,
        and_comm (a := user = userId)]
    · simp only [mem_active_deleteVoiceState, mem_members_deleteVoiceState, symmetric.active]
      by_cases same : channel = channelId
      · subst same
        simp only [true_and, forall_const]
        exact and_iff_right_of_imp fun ⟨user, listed, _⟩ => ⟨user, listed⟩
      · simp [same]
  | @clear channelId serverId userIds all =>
    obtain ⟨members, active, channels⟩ := @foldl_forgetUser
      { redis with members := update redis.members channelId [] } channelId
      (serverId.getD channelId) userIds
    have cleared : ∀ channel user, user ∈ update redis.members channelId [] channel ↔
        user ∈ redis.members channel ∧ channel ≠ channelId := by
      intro channel user
      by_cases same : channel = channelId
      · subst same
        simp
      · simp [same]
    refine ⟨fun user channel => ?_, fun channel => ?_⟩
    · rw [deleteChannelVoiceState, members, channels, cleared, ← symmetric.mirrored]
      grind
    · rw [deleteChannelVoiceState, active, members, mem_remove, symmetric.active]
      simp only [cleared, exists_and_right]

/-- A channel is listed for its members, and has the users as members for whom
it is listed, whatever calls came before. -/
theorem membership_symmetric (reached : Relation.ReflTransGen Step {} redis) : redis.Symmetric := by
  induction reached with
  | refl => exact ⟨fun _ _ => by simp, fun _ => by simp⟩
  | tail _ step ih => exact ih.step step

def crowded : VoiceRedis :=
  ((({} : VoiceRedis).createVoiceState "lobby" (some "server") "alice" 0).createVoiceState "lobby"
    (some "server") "bob" 1).createVoiceState "stage" (some "server") "carol" 2

/-- One of the two leaves the lobby, which is then cleared with the other. -/
theorem membership_symmetric_cleared :
    ((crowded.deleteVoiceState "lobby" (some "server") "alice").deleteChannelVoiceState "lobby"
        (some "server") ["bob"]).Symmetric ∧
      ((crowded.deleteVoiceState "lobby" (some "server") "alice").deleteChannelVoiceState "lobby"
        (some "server") ["bob"]).activeVoiceChannels = ["stage"] := by
  have joined : Relation.ReflTransGen Step {} crowded :=
    .tail (.tail (.single (.create ..)) (.create ..)) (.create ..)
  have left := joined.tail (.delete "lobby" (some "server") "alice")
  refine ⟨membership_symmetric (left.tail (.clear "lobby" (some "server") ?_)), by decide⟩
  decide

end Symmetry

end VoiceRedis

end Company
