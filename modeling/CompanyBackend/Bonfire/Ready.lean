import CompanyBackend.Bonfire.Events

/-!
# The start of a connection

Before its first event a connection loads the documents that its user may see, subscribes
to their topics and sends them to the client. The channels of the user's servers are
filtered by permission while no member is cached yet, so the members that decide are
those of the database.
-/

namespace Company

open Request

structure ReadyPayloadFields where
  users : Bool := true
  servers : Bool := true
  channels : Bool := true
  members : Bool := true
  emojis : Bool := true
  voiceStates : Bool := true
  userSettings : List String := []
  channelUnreads : Bool := false
  policyChanges : Bool := true
  deriving DecidableEq, Repr

structure ChannelVoiceState where
  id : String
  participants : List String
  deriving DecidableEq, Repr

/-- The reads at the start of a connection. The last four only fill the payload,
and what they return is left out. -/
structure ReadyDatabase extends EventDatabase where
  fetchAllMemberships : (userId : String) → Result (List Member)
  fetchServers : List String → Result (List Server)
  findDirectMessages : (userId : String) → Result (List Channel)
  getChannelVoiceState : Channel → Result (Option ChannelVoiceState)
  fetchMembers : (serverId : String) → List String → Result (List Member)
  fetchUsers : List String → Result (List User)
  fetchPolicyChanges : Result Unit
  fetchEmojiByParentIds : List String → Result Unit
  fetchUserSettings : (userId : String) → List String → Result Unit
  fetchUnreads : (userId : String) → Result Unit

structure ReadyPayload where
  users : Option (List User)
  servers : Option (List Server)
  channels : Option (List Channel)
  members : Option (List Member)
  voiceStates : Option (List ChannelVoiceState)

/-- Pass on the answer to a read. -/
def Connection.lift {α : Type} (x : Result α) : Connection α := attempt fun _ => x.mapError .error

def cloneUser : Connection User :=
  readCache fun cache =>
    match cache.users.lookup cache.userId with
    | some user => .ok user
    | none => .error ⟨"called `Option::unwrap()` on a `None` value"⟩

def Channel.hasVoice : Channel → Bool
  | .directMessage _ | .group _ => true
  | .textChannel channel => channel.voice.isSome
  | .savedMessages _ => false

namespace ReadyDatabase

variable (db : ReadyDatabase)

/-- The calls in the given channels. A state that cannot be read is skipped. -/
def voiceStates (channels : List Channel) : List (Channel × ChannelVoiceState) :=
  (channels.filter Channel.hasVoice).filterMap fun channel =>
    match db.getChannelVoiceState channel with
    | .ok (some state) => some (channel, state)
    | _ => none

/-- Note the participants of a call under the server of its channel. -/
def addParticipants (servers : HashMap String (List String)) (state : Channel × ChannelVoiceState) :
    HashMap String (List String) :=
  match state.1.server with
  | some server => servers.put server ((servers.lookup server).getD [] ++ state.2.participants)
  | none => servers

/-- The participants of calls in server channels, by server. -/
def serverParticipants (states : List (Channel × ChannelVoiceState)) :
    HashMap String (List String) :=
  states.foldl addParticipants ∅

/-- The members of all participants of calls in server channels. -/
def voiceMembers (states : List (Channel × ChannelVoiceState)) : Result (List Member) := do
  let members ← (serverParticipants states).entries.mapM fun e => db.fetchMembers e.1 e.2.dedup
  return members.flatten

end ReadyDatabase

/-- Subscribe to a server, and to its updates if the user is a bot. -/
def subscribeServer (isBot : Bool) (server : Server) : Connection Unit := do
  insertSubscription server.id
  onlyIf isBot (insertSubscription (updateTopic server.id))

/-- Subscribe to everything that was loaded, and to nothing else. -/
def subscribeLoaded (user : User) (users : List User) (servers : List Server)
    (channels : List Channel) : Connection Unit := do
  resetState
  let topic ← attempt fun state => .ok state.privateTopic
  insertSubscription topic
  forEach insertSubscription (users.map User.id ++ [user.id])
  forEach (subscribeServer user.bot.isSome) servers
  forEach insertSubscription (channels.map Channel.id)

open Connection

def readExtras (db : ReadyDatabase) (fields : ReadyPayloadFields) (user : User)
    (servers : List Server) : Connection Unit := do
  onlyIf fields.emojis (lift (db.fetchEmojiByParentIds (servers.map Server.id)))
  onlyIf (!fields.userSettings.isEmpty) (lift (db.fetchUserSettings user.id fields.userSettings))
  onlyIf fields.channelUnreads (lift (db.fetchUnreads user.id))

def generateReadyPayload (db : ReadyDatabase) (now : Timestamp) (fields : ReadyPayloadFields) :
    Connection ReadyPayload := do
  let user ← cloneUser
  modifyCache fun cache => { cache with isBot := user.bot.isSome }
  onlyIf (!(user.bot.isSome || !fields.policyChanges)) (lift db.fetchPolicyChanges)
  let memberships ← lift (db.fetchAllMemberships user.id)
  let servers ← lift (db.fetchServers (memberships.map fun member => member.id.server))
  modifyCache fun cache => { cache with servers := HashMap.putBy Server.id servers ∅ }
  let directMessages ← lift (db.findDirectMessages user.id)
  let serverChannels ← lift (db.fetchChannels (servers.flatMap Server.channels))
  let channels ← readCache (Cache.filterAccessibleChannels db.toDatabase now
    (directMessages ++ serverChannels))
  let states := if fields.voiceStates then db.voiceStates channels else []
  let voiceMembers ← lift (db.voiceMembers states)
  let members := memberships ++ voiceMembers
  let userIds := (user.relations.getD []).map Relationship.id ++
    channels.flatMap Channel.recipients ++ states.flatMap fun state => state.2.participants
  let users ← lift (db.fetchUsers (userIds.dedup.filter fun id => id != user.id))
  -- A later member of a server takes the place of an earlier one.
  modifyCache fun cache =>
    { cache with members := HashMap.putBy (fun member => member.id.server) members ∅ }
  readExtras db fields user servers
  modifyCache fun cache =>
    { cache with
      users := (HashMap.putBy User.id users ∅).put cache.userId user
      channels := HashMap.putBy Channel.id channels ∅ }
  subscribeLoaded user users servers channels
  return {
    users := if fields.users then some (users ++ [user]) else none
    servers := if fields.servers then some servers else none
    channels := if fields.channels then some channels else none
    members := if fields.members then some members else none
    voiceStates := if fields.voiceStates then some (states.map Prod.snd) else none }

end Company
