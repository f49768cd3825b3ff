import CompanyBackend.Bonfire.State
import CompanyBackend.Permissions.Layering

/-!
# Events of a WebSocket connection

Events are published on topics. A connection updates its cache from every event that it
receives, adjusts its subscriptions, and may replace the event before it is sent on to
the client. Some changes call for all channels of a server to be judged again.

The database may change between two events, so each event comes with its own answers.
-/

namespace Company

open Request Cache

structure ApiUser where
  id : String
  username : String := ""
  discriminator : String := ""
  displayName : Option String := none
  avatar : Option File := none
  relations : List Relationship := []
  badges : UInt32 := 0
  status : Option UserStatus := none
  flags : UInt32 := 0
  privileged : Bool := false
  bot : Option BotInformation := none
  relationship : RelationshipStatus := .none
  online : Bool := false
  presenceStyle : Option String := none
  deriving DecidableEq, Repr

/-- The document made from the API form. Relations and profile are lost. -/
def ApiUser.toUser (user : ApiUser) : User where
  id := user.id
  username := user.username
  discriminator := user.discriminator
  displayName := user.displayName
  avatar := user.avatar
  relations := none
  badges := some user.badges.toInt32
  status := user.status
  profile := none
  flags := some user.flags.toInt32
  privileged := user.privileged
  bot := user.bot
  suspendedUntil := none
  presenceStyle := user.presenceStyle

/-- The parts of a message that the connection looks at. -/
structure Message where
  id : String
  channel : String
  author : String
  user : Option ApiUser := none
  deriving DecidableEq, Repr

inductive EventV1 where
  | bulk (v : List EventV1)
  | message (message : Message)
  | serverCreate (id : String) (server : Server) (channels : List Channel)
  | serverUpdate (id : String) (data : PartialServer) (clear : List FieldsServer)
  | serverDelete (id : String)
  | serverMemberUpdate (id : MemberCompositeKey) (data : PartialMember) (clear : List FieldsMember)
  | serverMemberJoin (id : String) (member : Member)
  | serverMemberLeave (id user : String)
  | serverRoleUpdate (id roleId : String) (data : PartialRole) (clear : List FieldsRole)
  | serverRoleDelete (id roleId : String)
  | serverRoleRanksUpdate (id : String) (ranks : List String)
  | userUpdate (id : String) (data : PartialUser) (clear : List FieldsUser)
      (eventId : Option String)
  | userRelationship (id : String) (user : ApiUser)
  | channelCreate (channel : Channel)
  | channelUpdate (id : String) (data : PartialChannel) (clear : List FieldsChannel)
  | channelDelete (id : String)
  | channelGroupJoin (id user : String)
  | channelGroupLeave (id user : String)
  /-- An event of another kind, which is sent on as it is. -/
  | other (kind : String)

/-- The reads that handling an event may need. -/
structure EventDatabase extends Database where
  fetchChannel : String → Result Channel
  fetchChannels : List String → Result (List Channel)

def User.relationshipWith (user : User) (userB : String) : RelationshipStatus :=
  if user.id = userB then .user
  else
    match (user.relations.getD []).find? fun relationship => relationship.id == userB with
    | some relationship => relationship.status
    | none => .none

namespace Cache

/-- The query about a server channel: what the cache knows, and the database for
the rest. -/
def channelQuery (cache : Cache) (db : Database) (now : Timestamp) (user : User)
    (channel : TextChannel) : DatabasePermissionQuery :=
  { (DatabasePermissionQuery.new db now user).withChannel (.textChannel channel) with
    member := cache.members.lookup channel.server
    server := cache.servers.lookup channel.server }

def canViewChannel (db : Database) (now : Timestamp) (channel : Channel) (cache : Cache) :
    Except Panic Bool :=
  match channel with
  | .textChannel text =>
    match cache.users.lookup cache.userId with
    | some user => do
      let (permissions, _) ← PermissionQuery.calculateChannelPermissions.run
        (cache.channelQuery db now user text)
      return permissions.hasChannelPermission .viewChannel
    | none => .error ⟨"called `Option::unwrap()` on a `None` value"⟩
  | _ => .ok true

def filterAccessibleChannels (db : Database) (now : Timestamp) (channels : List Channel)
    (cache : Cache) : Except Panic (List Channel) :=
  match channels with
  | [] => .ok []
  | channel :: channels => do
    let viewable ← cache.canViewChannel db now channel
    let rest ← cache.filterAccessibleChannels db now channels
    return if viewable then channel :: rest else rest

def canSubscribeToUser (userId : String) (cache : Cache) : Bool :=
  match cache.users.lookup cache.userId with
  | some user =>
    match user.relationshipWith userId with
    | .friend | .incoming | .outgoing | .user => true
    | _ => cache.channels.values.any fun channel => channel.recipients.contains userId
  | none => false

def channelsOf (serverId : String) (cache : Cache) : List (String × Channel) :=
  (cache.channels.entries.filter fun e => e.2.server == some serverId).map fun e => (e.1, e.2)

/-- The cached channels of a server, each with the verdict whether it can be
viewed. -/
def judgeChannels (db : Database) (now : Timestamp) (serverId : String) (cache : Cache) :
    Except Panic (List (String × Bool)) :=
  (cache.channelsOf serverId).mapM fun entry => do
    let viewable ← cache.canViewChannel db now entry.2
    return (entry.1, viewable)

end Cache

def dropChannel (id : String) : Connection Unit := do
  removeSubscription id
  modifyCache fun cache => { cache with channels := cache.channels.erase id }

def learnChannel (channel : Channel) : Connection Unit := do
  modifyCache fun cache => { cache with channels := cache.channels.put channel.id channel }
  insertSubscription channel.id

variable (db : EventDatabase) (now : Timestamp) (event : EventV1)

/-- The channels among the given ids that exist and can be viewed. -/
def fetchViewable (ids : List String) : Connection (List Channel) :=
  if ids.isEmpty then pure []
  else
    match db.fetchChannels ids with
    | .ok channels => readCache (filterAccessibleChannels db.toDatabase now channels)
    | .error _ => pure []

/-- Judge all channels of a cached server: the cached ones again, and the listed
ones that are not cached for the first time. -/
def recalculateChannels (id : String) (server : Server) (event : EventV1) : Connection EventV1 := do
  let verdicts ← readCache (judgeChannels db.toDatabase now id)
  let added := (verdicts.filter fun verdict => verdict.2).map Prod.fst
  let removed := (verdicts.filter fun verdict => !verdict.2).map Prod.fst
  forEach insertSubscription added
  forEach dropChannel removed
  let unknowns := server.channels.dedup.filter fun id => !(verdicts.map Prod.fst).contains id
  let viewable ← fetchViewable db now unknowns
  forEach learnChannel viewable
  let bulkEvents := removed.map EventV1.channelDelete ++ viewable.map EventV1.channelCreate
  return if bulkEvents.isEmpty then event else .bulk (bulkEvents ++ [event])

/-- Re-determine the currently accessible server channels. -/
def recalculateServer (id : String) (event : EventV1) : Connection EventV1 := do
  match ← readCache fun cache => .ok (cache.servers.lookup id) with
  | some server => recalculateChannels db now id server event
  | none => return event

/-- What an event asks for after it has been handled. -/
structure Queue where
  server : Option String := none
  add : Option String := none
  remove : Option String := none
  deriving DecidableEq, Repr

namespace Cache

def canViewCached (db : Database) (now : Timestamp) (id : String) (cache : Cache) :
    Except Panic Bool :=
  match cache.channels.lookup id with
  | some channel => cache.canViewChannel db now channel
  | none => .ok false

/-- Update a cached channel; fetch one that is not cached. -/
def updateChannel (db : EventDatabase) (id : String) (data : PartialChannel)
    (clear : List FieldsChannel) (cache : Cache) : Cache :=
  match cache.channels.lookup id with
  | some _ =>
    { cache with
      channels := cache.channels.modify id fun channel =>
        (clear.foldl (fun channel field => channel.removeField field) channel).applyOptions data }
  | none =>
    match db.fetchChannel id with
    | .ok channel => { cache with channels := cache.channels.put id channel }
    | .error _ => cache

def updateServer (id : String) (data : PartialServer) (clear : List FieldsServer) (cache : Cache) :
    Cache :=
  { cache with
    servers := cache.servers.modify id fun server =>
      (clear.foldl Server.removeField server).applyOptions data }

def updateMember (server : String) (data : PartialMember) (clear : List FieldsMember)
    (cache : Cache) : Cache :=
  { cache with
    members := cache.members.modify server fun member =>
      (clear.foldl Member.removeField member).applyOptions data }

def updateRole (id roleId : String) (data : PartialRole) (clear : List FieldsRole) (cache : Cache) :
    Cache :=
  { cache with
    servers := cache.servers.modify id fun server =>
      { server with
        roles := server.roles.modify roleId fun role =>
          (clear.foldl Role.removeField role).applyOptions data } }

def deleteRole (id roleId : String) (cache : Cache) : Cache :=
  { cache with
    servers := cache.servers.modify id fun server =>
      { server with roles := server.roles.erase roleId } }

def holdsRole (id roleId : String) (cache : Cache) : Bool :=
  (cache.members.lookup id).any fun member => member.roles.contains roleId

/-- A server that the user has joined, with a member without roles. -/
def joinServer (now : Timestamp) (id : String) (server : Server) (channels : List Channel)
    (cache : Cache) : Cache :=
  { cache with
    servers := cache.servers.put id server
    members := cache.members.put id
      { id := { server := server.id, user := cache.userId }, joinedAt := now }
    channels := cache.channels.putBy Channel.id channels }

/-- Remember the id of an event, and forget the oldest of more than twenty. -/
def see (eventId : Option String) (cache : Cache) : Cache :=
  match eventId with
  | some eventId => { cache with seenEvents := (eventId :: cache.seenEvents).take 20 }
  | none => cache

/-- The message with the relationship of the current user to its author. -/
def relate (message : Message) (cache : Cache) : Except Panic Message :=
  match message.user with
  | some user =>
    match cache.users.lookup cache.userId with
    | some own =>
      .ok { message with
        user := some { user with relationship := own.relationshipWith message.author } }
    | none => .error ⟨"missing self?"⟩
  | none => .ok message

end Cache

/-- Leave a server: forget it, its member and the channels that it lists. -/
def forgetServer (id : String) : Connection Unit := do
  removeSubscription id
  let server ← readCache fun cache => .ok (cache.servers.lookup id)
  modifyCache fun cache => { cache with servers := cache.servers.erase id }
  forEach dropChannel ((server.map Server.channels).getD [])
  modifyCache fun cache => { cache with members := cache.members.erase id }

/-- A member left a group: the user, or somebody that the user may still
know. -/
def leaveGroup (id user : String) : Connection Unit := do
  let cache ← readCache fun cache => .ok cache
  if user = cache.userId then removeSubscription id
  else onlyIf (!cache.canSubscribeToUser user) (removeSubscription user)

def joinServer (now : Timestamp) (id : String) (server : Server) (channels : List Channel) :
    Connection Unit := do
  insertSubscription id
  let isBot ← readCache fun cache => .ok cache.isBot
  onlyIf isBot (insertSubscription (updateTopic id))
  modifyCache (Cache.joinServer now id server channels)

/-- The user of a relationship is cached under the given id. -/
def changeRelationship (id : String) (user : ApiUser) : Connection Unit := do
  modifyCache fun cache => { cache with users := cache.users.put id user.toUser }
  let subscribe ← readCache fun cache => .ok (cache.canSubscribeToUser id)
  if subscribe then insertSubscription id else removeSubscription id

/-- Apply an update to a channel and compare what could be viewed before and
after. -/
def handleChannelUpdate (id : String)
    (data : PartialChannel) (clear : List FieldsChannel) : Connection (EventV1 × Queue) := do
  let couldView ← readCache (canViewCached db.toDatabase now id)
  modifyCache (updateChannel db id data clear)
  let canView ← readCache (canViewCached db.toDatabase now id)
  let cached ← readCache fun cache => .ok (cache.channels.lookup id)
  return match cached with
    | some channel =>
      if couldView = canView then (.channelUpdate id data clear, {})
      else if canView then (.channelCreate channel, { add := some id })
      else (.channelDelete id, { remove := some id })
    | none => (.channelUpdate id data clear, {})

/-- The part of the handler that looks at the event. Nothing is returned for an
event that has been seen before. -/
def dispatchEvent : Connection (Option (EventV1 × Queue)) :=
  match event with
  | .channelCreate channel => do
    insertSubscription channel.id
    modifyCache fun cache => { cache with channels := cache.channels.put channel.id channel }
    return some (event, {})
  | .channelUpdate id data clear => do
    let handled ← handleChannelUpdate db now id data clear
    return some handled
  | .channelDelete id => do
    dropChannel id
    return some (event, {})
  | .channelGroupJoin _ user => do
    insertSubscription user
    return some (event, {})
  | .channelGroupLeave id user => do
    leaveGroup id user
    return some (event, {})
  | .serverCreate id server channels => do
    joinServer now id server channels
    return some (event, { server := some id })
  | .serverUpdate id data clear => do
    modifyCache (updateServer id data clear)
    return some (event, { server := if data.defaultPermissions.isSome then some id else none })
  | .serverMemberLeave id user => do
    let ownId ← readCache fun cache => .ok cache.userId
    onlyIf (user == ownId) (forgetServer id)
    return some (event, {})
  | .serverDelete id => do
    forgetServer id
    return some (event, {})
  | .serverMemberUpdate id data clear => do
    let ownId ← readCache fun cache => .ok cache.userId
    onlyIf (id.user == ownId) (modifyCache (updateMember id.server data clear))
    return some (event,
      { server :=
          if id.user == ownId && (data.roles.isSome || clear.contains .roles) then some id.server
          else none })
  | .serverRoleUpdate id roleId data clear => do
    modifyCache (Cache.updateRole id roleId data clear)
    let holds ← readCache fun cache => .ok (cache.holdsRole id roleId)
    return some (event,
      { server := if (data.rank.isSome || data.permissions.isSome) && holds then some id
          else none })
  | .serverRoleDelete id roleId => do
    modifyCache (Cache.deleteRole id roleId)
    let holds ← readCache fun cache => .ok (cache.holdsRole id roleId)
    return some (event, { server := if holds then some id else none })
  | .userUpdate id data clear eventId => do
    let seen ← readCache fun cache => .ok (eventId.any fun eventId =>
      cache.seenEvents.contains eventId)
    if seen then return none
    else
      modifyCache (Cache.see eventId)
      return some (.userUpdate id data clear none, {})
  | .userRelationship id user => do
    changeRelationship id user
    return some (event, {})
  | .message message => do
    let message ← readCache (Cache.relate message)
    return some (.message message, {})
  -- A member who joins a server receives its own event with the server.
  | .serverMemberJoin _ _ | .serverRoleRanksUpdate _ _ | .bulk _ | .other _ =>
    return some (event, {})

def onQueued (action : String → Connection Unit) : Option String → Connection Unit
  | some id => action id
  | none => pure ()

def recalculateQueued : Option String → Connection EventV1
  | some id => recalculateServer db now id event
  | none => pure event

/-- Handle an incoming event: the event to send, and whether to send it. -/
def handleIncomingEventV1 : Connection (Bool × EventV1) := do
  match ← dispatchEvent db now event with
  | none => return (false, event)
  | some (event, queue) =>
    let event ← recalculateQueued db now event queue.server
    onQueued insertSubscription queue.add
    onQueued removeSubscription queue.remove
    return (true, event)

end Company
