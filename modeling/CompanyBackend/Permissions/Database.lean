import CompanyBackend.Permissions.Query
import CompanyBackend.Library.Ranking

/-!
# The permission query over the database

`DatabasePermissionQuery` answers the questions of the calculations from the
documents it was given, and fetches the others on demand: the member when it is
first asked about, the server of a channel, the recipient of a direct message.

The database enters as the answers to its read requests. A failed request and a
missing document look the same to the calculations, which then fall back to what
they already hold. All timeouts of one query are judged at one instant.
-/

namespace Company

/-- The read requests that the permission calculations make. -/
structure Database where
  fetchUser : String → Result User
  fetchServer : String → Result Server
  fetchMember : (server user : String) → Result Member
  fetchMutualServerIds : (userA userB : String) → Result (List String)
  fetchMutualChannelIds : (userA userB : String) → Result (List String)

def Database.unreachable : Database where
  fetchUser _ := .error (.databaseError "find_one" "users")
  fetchServer _ := .error (.databaseError "find_one" "servers")
  fetchMember _ _ := .error (.databaseError "find_one" "server_members")
  fetchMutualServerIds _ _ := .error (.databaseError "find" "server_members")
  fetchMutualChannelIds _ _ := .error (.databaseError "find" "channels")

def User.hasMutualConnection (user : User) (db : Database) (userB : String) : Result Bool := do
  if !(← db.fetchMutualServerIds user.id userB).isEmpty then
    return true
  return !(← db.fetchMutualChannelIds user.id userB).isEmpty

structure DatabasePermissionQuery where
  database : Database
  now : Timestamp
  perspective : User
  user : Option User := none
  channel : Option Channel := none
  server : Option Server := none
  member : Option Member := none
  cachedUserPermission : Option PermissionValue := none
  cachedMutualConnection : Option Bool := none
  cachedPermission : Option UInt64 := none

/-- The ranked overrides of the roles of a server that are in `held`. -/
def Server.rankedOverrides (server : Server) (held : List String) : List (Int64 × Override) :=
  (server.roles.entries.filter fun e => held.contains e.1).map fun e =>
    (e.2.rank, e.2.permissions.toOverride)

/-- The ranked overrides of a channel for the roles in `held` that exist on the
server. -/
def TextChannel.rankedOverrides (channel : TextChannel) (server : Server) (held : List String) :
    List (Int64 × Override) :=
  (channel.rolePermissions.entries.filter fun e => held.contains e.1).filterMap fun e =>
    (server.roles.lookup e.1).map fun role => (role.rank, e.2.toOverride)

/-- Overrides from the largest rank number to the smallest. -/
def orderedOverrides (ranked : List (Int64 × Override)) : List Override :=
  (Ranking.sortDescending ranked).map Prod.snd

/-- The permissions a group grants its members, with the default when none are
set. -/
def Group.memberPermissions (group : Group) : UInt64 :=
  (group.permissions.getD DEFAULT_PERMISSION_DIRECT_MESSAGE.toInt64).toUInt64

namespace DatabasePermissionQuery

variable (q : DatabasePermissionQuery)

def new (database : Database) (now : Timestamp) (perspective : User) : DatabasePermissionQuery :=
  { database, now, perspective }

def withUser (user : User) : DatabasePermissionQuery := { q with user := some user }

def withChannel (channel : Channel) : DatabasePermissionQuery := { q with channel := some channel }

def withServer (server : Server) : DatabasePermissionQuery := { q with server := some server }

def withMember (member : Member) : DatabasePermissionQuery := { q with member := some member }

def memberRoles : List String := (q.member.map Member.roles).getD []

def userRelationship : RelationshipStatus :=
  match q.user with
  | some other =>
    if q.perspective.id = other.id then .user
    else if other.bot.any fun bot => decide (q.perspective.id = bot.owner) then .user
    else
      match (q.perspective.relations.getD []).find? fun entry => decide (entry.id = other.id) with
      | some entry => entry.status
      | none => .none
  | none => .none

/-- The member that the query knows or can fetch for a server. -/
def knownMember (server : Server) : Option Member :=
  q.member.or (q.database.fetchMember server.id q.perspective.id).toOption

/-- The answer of `are_we_a_member` and the query with the fetched member
kept. -/
def areWeAMember : Bool × DatabasePermissionQuery :=
  match q.server with
  | some server =>
    match q.knownMember server with
    | some member => (true, { q with member := some member })
    | none => (false, q)
  | none => (false, q)

def haveMutualConnection : Bool × DatabasePermissionQuery :=
  match q.cachedMutualConnection with
  | some value => (value, q)
  | none =>
    match q.user with
    | some user =>
      let value := (q.perspective.hasMutualConnection q.database user.id).toOption.getD false
      (value, { q with cachedMutualConnection := some value })
    | none => (false, q)

def getChannelType : ChannelType :=
  match q.channel with
  | some (.directMessage _) => .directMessage
  | some (.group _) => .group
  | some (.savedMessages _) => .savedMessages
  | some (.textChannel _) => .serverChannel
  | none => .unknown

def getDefaultChannelPermissions : Override :=
  match q.channel with
  | some (.group group) => { allow := group.memberPermissions, deny := 0 }
  | some (.textChannel channel) => (channel.defaultPermissions.getD {}).toOverride
  | _ => {}

def getOurServerRoleOverrides : List Override :=
  match q.server with
  | some server => orderedOverrides (server.rankedOverrides q.memberRoles)
  | none => []

def getOurChannelRoleOverrides : List Override :=
  match q.channel, q.server with
  | some (.textChannel channel), some server =>
    orderedOverrides (channel.rankedOverrides server q.memberRoles)
  | _, _ => []

def doWeOwnTheChannel : Bool :=
  match q.channel with
  | some (.group group) => group.owner == q.perspective.id
  | some (.savedMessages channel) => channel.user == q.perspective.id
  | _ => false

def areWeAGroupModerator : Bool :=
  match q.channel with
  | some (.group group) => group.moderators.contains q.perspective.id
  | _ => false

def areWePartOfTheChannel : Bool :=
  match q.channel with
  | some (.directMessage channel) => channel.recipients.contains q.perspective.id
  | some (.group group) => group.recipients.contains q.perspective.id
  | _ => false

def setRecipientAsUser : Except Panic DatabasePermissionQuery :=
  match q.channel with
  | some (.directMessage channel) =>
    match channel.recipients.find? fun recipient => recipient != q.perspective.id with
    | some recipient =>
      match q.database.fetchUser recipient with
      | .ok user => .ok { q with user := some user }
      | .error _ => .ok q
    | none => .error ⟨"Missing recipient for DM"⟩
  | some _ => .error ⟨"not implemented"⟩
  | none => .ok q

def setServerFromChannel : Except Panic DatabasePermissionQuery :=
  match q.channel with
  | some (.textChannel channel) =>
    if q.server.any fun known => channel.server == known.id then .ok q
    else
      match q.database.fetchServer channel.server with
      | .ok server => .ok { q with server := some server }
      | .error _ => .ok q
  | some _ => .error ⟨"not implemented"⟩
  | none => .ok q

instance : PermissionQuery DatabasePermissionQuery where
  areWePrivileged := .answer fun q => q.perspective.privileged
  areWeABot := .answer fun q => q.perspective.bot.isSome
  areTheUsersSame := .answer fun q => q.user.any fun other => q.perspective.id == other.id
  userRelationship := .answer userRelationship
  userIsBot := .answer fun q => q.user.any fun other => other.bot.isSome
  haveMutualConnection := fun q => .ok q.haveMutualConnection
  areWeServerOwner := .answer fun q => q.server.any fun server => server.owner == q.perspective.id
  areWeAMember := fun q => .ok q.areWeAMember
  getDefaultServerPermissions := .answer fun q =>
    (q.server.map fun server => server.defaultPermissions.toUInt64).getD 0
  getOurServerRoleOverrides := .answer getOurServerRoleOverrides
  areWeTimedOut := .answer fun q => q.member.any fun member => member.inTimeout q.now
  doWeHavePublishOverwrites := .answer fun q => q.member.all fun member => member.canPublish
  doWeHaveReceiveOverwrites := .answer fun q => q.member.all fun member => member.canReceive
  getChannelType := .answer getChannelType
  getDefaultChannelPermissions := .answer getDefaultChannelPermissions
  getOurChannelRoleOverrides := .answer getOurChannelRoleOverrides
  doWeOwnTheChannel := .answer doWeOwnTheChannel
  areWeAGroupModerator := .answer areWeAGroupModerator
  areWePartOfTheChannel := .answer areWePartOfTheChannel
  setRecipientAsUser := fun q => return ((), ← q.setRecipientAsUser)
  setServerFromChannel := fun q => return ((), ← q.setServerFromChannel)

/-- The ranking of the known member. Unwrapping a missing server panics. -/
def getMemberRank : Except Panic (Option Int64) :=
  match q.member with
  | some member =>
    match q.server with
    | some server => .ok (some (member.getRanking server))
    | none => .error ⟨"called `Option::unwrap()` on a `None` value"⟩
  | none => .ok none

end DatabasePermissionQuery

end Company
