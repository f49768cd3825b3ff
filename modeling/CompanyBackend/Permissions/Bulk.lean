import CompanyBackend.Permissions.Store

/-!
# Permissions of many members at once

`BulkDatabasePermissionQuery` calculates the permissions of a list of users or members in
one server channel. It repeats the layers of the single calculation with differences: the
voice revocations, the final timeout restriction and the `ViewChannel` check are left out.
None of them matters for `ViewChannel` itself, so both agree on who can see the channel.

The bulk query holds its own copies of the server and the channel, whose maps may iterate
in another order than those of the single query.
-/

namespace Company

open LayerStack PermissionQuery PermissionValue Collection HashMap List

structure BulkDatabasePermissionQuery where
  database : MongoDb
  now : Timestamp
  server : Server
  channel : Option Channel := none
  users : Option (List User) := none
  members : Option (List Member) := none
  cachedUsers : Option (List User) := none
  cachedMembers : Option (List Member) := none
  cachedMemberPerms : Option (HashMap String PermissionValue) := none

namespace BulkDatabasePermissionQuery

def new (database : MongoDb) (now : Timestamp) (server : Server) : BulkDatabasePermissionQuery :=
  { database, now, server }

variable (query : BulkDatabasePermissionQuery)

def withChannel (channel : Channel) : BulkDatabasePermissionQuery :=
  { query with channel := some channel }

/-- Selecting members forgets the users and everything cached. -/
def withMembers (members : List Member) : BulkDatabasePermissionQuery :=
  { new query.database query.now query.server with
    channel := query.channel
    members := some members }

variable (now : Timestamp) (server : Server)

def calculateServerPermissions (user : User) (member : Member) : PermissionValue :=
  if user.privileged || server.owner == user.id then .ofChannelPermission .grantAllSafe
  else
    let permissions := (PermissionValue.ofI64 server.defaultPermissions).applyAll
      (orderedOverrides (server.rankedOverrides member.roles))
    if member.inTimeout now then permissions.restrict ALLOW_IN_TIMEOUT else permissions

/-- The permissions of one user, given the members by user id. -/
def calculateUserPermissions (channel : TextChannel)
    (members : HashMap String Member) (user : User) : PermissionValue :=
  match members.lookup user.id with
  -- The user is not a part of the server.
  | none => (0 : UInt64)
  | some member =>
    if user.privileged then .ofChannelPermission .grantAllSafe
    else if user.id == server.owner then .ofChannelPermission .grantAllSafe
    else
      let permission := calculateServerPermissions now server user member
      let permission :=
        match channel.defaultPermissions with
        | some defaults => permission.apply defaults.toOverride
        | none => permission
      permission.applyAll (orderedOverrides (channel.rankedOverrides server member.roles))

def selectedChannel : Except Panic TextChannel :=
  match query.channel with
  | some (.textChannel channel) => .ok channel
  | some _ =>
    .error ⟨"Calculation of member permissions must be done on a server channel"⟩
  | none => .error ⟨"A channel must be assigned to calculate channel permissions"⟩

/-- The users of the query, fetched through its members when they are not
given. -/
def fetchMissingUsers : Except Panic (List User × BulkDatabasePermissionQuery) :=
  match query.users, query.members with
  | some users, _ => .ok (users, query)
  | none, none => .error ⟨"No users or members added to the query"⟩
  | none, some members =>
    match query.database.fetchUsers (members.map fun member => member.id.user) with
    | .ok users => .ok (users, { query with cachedUsers := some users, users := some users })
    | .error _ => .error ⟨"Failed to get data from the db"⟩

/-- The members of the query, fetched for its users when they are not given. -/
def fetchMissingMembers (users : List User) :
    Except Panic (List Member × BulkDatabasePermissionQuery) :=
  match query.members with
  | some members => .ok (members, query)
  | none =>
    match query.database.fetchMembers query.server.id (users.map User.id) with
    | .ok members =>
      .ok (members, { query with cachedMembers := some members, members := some members })
    | .error _ => .error ⟨"Failed to get data from the db"⟩

def membersByUser (members : List Member) : HashMap String Member :=
  HashMap.ofPairs (members.map fun member => (member.id.user, member))

/-- The loop over the users, collecting the permissions of each. -/
def collectPermissions (channel : TextChannel)
    (members : List Member) (users : List User) : HashMap String PermissionValue :=
  HashMap.ofPairs (users.map fun user =>
    (user.id, calculateUserPermissions now server channel (membersByUser members) user))

def calculateMembersPermissions :
    QueryM BulkDatabasePermissionQuery (HashMap String PermissionValue) := fun query => do
  let channel ← query.selectedChannel
  let (users, query) ← query.fetchMissingUsers
  let (members, query) ← query.fetchMissingMembers users
  return (collectPermissions query.now query.server channel members users, query)

def membersCanSeeChannel : QueryM BulkDatabasePermissionQuery (HashMap String Bool) :=
  fun query => do
    let (permissions, query) ←
      match query.cachedMemberPerms with
      | some permissions => .ok (permissions, query)
      | none => calculateMembersPermissions query
    return (permissions.mapValues fun permission => permission.hasChannelPermission .viewChannel,
      query)

end BulkDatabasePermissionQuery

/-- The same server, with its roles iterated in another order. -/
def Server.Reiterates (server' server : Server) : Prop :=
  server' = { server with roles := server'.roles } ∧ server'.roles.entries.Perm server.roles.entries

/-- The same channel, with its role overrides iterated in another order. -/
def TextChannel.Reiterates (channel' channel : TextChannel) : Prop :=
  channel' = { channel with rolePermissions := channel'.rolePermissions } ∧
    channel'.rolePermissions.entries.Perm channel.rolePermissions.entries

section Reiteration

variable {server server' : Server} {channel channel' : TextChannel} {held : List String}

/-- Roles of distinct ranks are distinct among any held ones. -/
theorem Server.DistinctRanks.among (distinct : server.DistinctRanks server.roles.keys)
    (held : List String) : server.DistinctRanks held := by
  intro e member e' member' _ _ same
  exact distinct e member e' member' (mem_map_of_mem member) (mem_map_of_mem member') same

theorem Server.rankedOverrides_perm (same : server'.Reiterates server) :
    (server'.rankedOverrides held).Perm (server.rankedOverrides held) :=
  (same.2.filter _).map _

theorem TextChannel.rankedOverrides_perm (sameServer : server'.Reiterates server)
    (sameChannel : channel'.Reiterates channel) :
    (channel'.rankedOverrides server' held).Perm (channel.rankedOverrides server held) := by
  have found : ∀ id, server'.roles.lookup id = server.roles.lookup id :=
    fun id => AList.perm_lookup sameServer.2
  rw [rankedOverrides, rankedOverrides]
  simp only [found]
  exact (sameChannel.2.filter _).filterMap _

/-- With distinct ranks the order of iteration does not reach the ordered
overrides. -/
theorem Server.orderedOverrides_reiterated (distinct : server.DistinctRanks held)
    (same : server'.Reiterates server) :
    orderedOverrides (server'.rankedOverrides held) =
      orderedOverrides (server.rankedOverrides held) := by
  have ranks : ((server.rankedOverrides held).map Prod.fst).Nodup := by
    have layers := roleLayers_ranks distinct
    rw [roleLayers, pairwise_map] at layers
    rw [rankedOverrides, List.map_map, List.Nodup, pairwise_map]
    exact layers
  rw [orderedOverrides, orderedOverrides,
    Ranking.sortDescending_congr (rankedOverrides_perm same).symm ranks]

theorem TextChannel.orderedOverrides_reiterated (distinct : server.DistinctRanks held)
    (sameServer : server'.Reiterates server) (sameChannel : channel'.Reiterates channel) :
    orderedOverrides (channel'.rankedOverrides server' held) =
      orderedOverrides (channel.rankedOverrides server held) := by
  have ranked : channel.rankedOverrides server held =
      (channel.roleLayers server held).map fun l => (l.rank, l.permissions.toOverride) := by
    rw [rankedOverrides, roleLayers, map_filterMap]
    congr 1
    funext e
    rw [Option.map_map]
    rfl
  have ranks : ((channel.rankedOverrides server held).map Prod.fst).Nodup := by
    rw [ranked, List.map_map, List.Nodup, pairwise_map]
    exact roleLayers_ranks distinct
  rw [orderedOverrides, orderedOverrides,
    Ranking.sortDescending_congr (rankedOverrides_perm sameServer sameChannel).symm ranks]

variable (distinct : ∀ held, server.DistinctRanks held) (sameServer : server'.Reiterates server)
  (now : Timestamp) (user : User) (member : Option Member)

include distinct sameServer

theorem memberServerPermissions_reiterated (member : Member) :
    memberServerPermissions now server' member = memberServerPermissions now server member := by
  have default : server'.defaultPermissions = server.defaultPermissions := by rw [sameServer.1]
  rw [memberServerPermissions, memberServerValue, default,
    Server.orderedOverrides_reiterated (distinct member.roles) sameServer]
  rfl

/-- With distinct ranks the server calculation does not depend on the order of
iteration. -/
theorem serverPermissions_reiterated :
    serverPermissions now server' user member = serverPermissions now server user member := by
  have unrestricted : user.unrestricted server' = user.unrestricted server := by
    rw [sameServer.1]
    rfl
  unfold serverPermissions
  rw [unrestricted]
  simp only [memberServerPermissions_reiterated distinct sameServer]

/-- Nor does the calculation in a channel, where the overrides of roles are
ordered again. -/
theorem textChannelPermissions_reiterated (sameChannel : channel'.Reiterates channel)
    (check : PermissionValue → PermissionValue) :
    textChannelPermissions check now server' channel' user member =
      textChannelPermissions check now server channel user member := by
  have unrestricted : user.unrestricted server' = user.unrestricted server := by
    rw [sameServer.1]
    rfl
  have default : channel'.defaultOverride = channel.defaultOverride := by
    rw [sameChannel.1]
    rfl
  unfold textChannelPermissions memberChannelPermissions
  rw [unrestricted, default]
  simp only [memberServerPermissions_reiterated distinct sameServer,
    TextChannel.orderedOverrides_reiterated (distinct _) sameServer sameChannel]

end Reiteration

namespace BulkDatabasePermissionQuery

section Agreement

variable {db : MongoDb} {now : Timestamp} {server server' : Server} {channel channel' : TextChannel}
variable {user : User} {member : Member} {members : List Member}

/-- The bulk server value has `ViewChannel` when the server layers resolve to
it. -/
theorem calculateServerPermissions_view (restricted : user.unrestricted server = false) :
    (calculateServerPermissions now server user member).bit viewBit =
      resolve (server.defaultBit viewBit) (serverStack server member viewBit) := by
  have value : calculateServerPermissions now server user member =
      restrictTimeout now member ((PermissionValue.ofI64 server.defaultPermissions).applyAll
        (orderedOverrides (server.rankedOverrides member.roles))) := by
    rw [User.unrestricted] at restricted
    simp only [calculateServerPermissions, restricted, restrictTimeout]
    rfl
  rw [value, restrictTimeout_bit, timeoutAllows_view, Bool.and_true, serverRoles_bit, serverStack,
    resolve_append, voiceLayer_view]
  rfl

/-- A missing channel default acts like the empty override. -/
theorem applyDefault_bit (permission : PermissionValue) (b : Bit) :
    (match channel.defaultPermissions with
      | some defaults => permission.apply defaults.toOverride
      | none => permission).bit b = (permission.apply channel.defaultOverride).bit b := by
  cases defaults : channel.defaultPermissions with
  | some defaults => rw [TextChannel.defaultOverride, defaults, Option.getD_some]
  | none =>
    have empty : channel.defaultOverride = {} := by
      rw [TextChannel.defaultOverride, defaults]
      rfl
    rw [empty, apply_bit, Override.layer_default]
    rfl

/-- The order in which the maps are iterated does not matter. -/
theorem calculateUserPermissions_reiterated (distinct : server.DistinctRanks server.roles.keys)
    (sameServer : server'.Reiterates server) (sameChannel : channel'.Reiterates channel)
    (byUser : HashMap String Member) :
    calculateUserPermissions now server' channel' byUser user =
      calculateUserPermissions now server channel byUser user := by
  have owner : server'.owner = server.owner := by rw [sameServer.1]
  have serverDefault : server'.defaultPermissions = server.defaultPermissions := by
    rw [sameServer.1]
  have channelDefault : channel'.defaultPermissions = channel.defaultPermissions := by
    rw [sameChannel.1]
  rw [calculateUserPermissions, calculateUserPermissions]
  cases byUser.lookup user.id with
  | none => rfl
  | some member =>
    have ranks := distinct.among member.roles
    simp only [calculateServerPermissions, owner, serverDefault, channelDefault,
      Server.orderedOverrides_reiterated ranks sameServer,
      TextChannel.orderedOverrides_reiterated ranks sameServer sameChannel]

/-- For a member, the bulk and the single calculation agree on `ViewChannel`. -/
theorem calculateUserPermissions_view {byUser : HashMap String Member}
    (found : byUser.lookup user.id = some member) :
    (calculateUserPermissions now server channel byUser user).hasChannelPermission .viewChannel =
      (textChannelPermissions wipeUnlessViewable now server channel user
        (some member)).hasChannelPermission .viewChannel := by
  cases restricted : user.unrestricted server with
  | true =>
    have bulk : calculateUserPermissions now server channel byUser user =
        .ofChannelPermission .grantAllSafe := by
      rw [User.unrestricted, Bool.or_eq_true, beq_iff_eq] at restricted
      simp only [calculateUserPermissions, found]
      rcases restricted with privileged | owner
      · rw [if_pos privileged]
      · rw [owner]
        simp
    rw [bulk, textChannelPermissions, if_pos restricted]
  | false =>
    have bulk : calculateUserPermissions now server channel byUser user =
        (match channel.defaultPermissions with
          | some defaults =>
            (calculateServerPermissions now server user member).apply defaults.toOverride
          | none => calculateServerPermissions now server user member).applyAll
        (orderedOverrides (channel.rankedOverrides server member.roles)) := by
      have separate : user.privileged = false ∧ server.owner ≠ user.id := by
        simpa [User.unrestricted] using restricted
      simp [calculateUserPermissions, found, separate.1, Ne.symm separate.2]
    have single : textChannelPermissions wipeUnlessViewable now server channel
        user (some member) = wipeUnlessViewable
          (memberChannelPermissions now server channel member) := by
      simp [textChannelPermissions, restricted]
    rw [single, hasChannelPermission_view, hasChannelPermission_view,
      wiped_memberChannelPermissions_bit, timeoutAllows_view, Bool.and_true, Bool.and_self, bulk,
      applyAll_bit, applyDefault_bit, ← applyAll_bit, channelRoles_bit,
      calculateServerPermissions_view restricted, grantedByLayers, resolve_append]

variable {users : List User}

/-- Given members, the query fetches their users and collects the permissions of
those. -/
theorem membersCanSeeChannel_run
    (fetched : db.fetchUsers (members.map fun member => member.id.user) = .ok users) :
    ∃ final, membersCanSeeChannel.run
        (((new db now server).withChannel (.textChannel channel)).withMembers members) =
      .ok ((collectPermissions now server channel members users).mapValues fun permission =>
        permission.hasChannelPermission .viewChannel, final) := by
  refine ⟨{ ((new db now server).withChannel (.textChannel channel)).withMembers members with
    cachedUsers := some users, users := some users }, ?_⟩
  simp [membersCanSeeChannel, StateT.run, new, withChannel, withMembers,
    calculateMembersPermissions, selectedChannel, fetchMissingUsers, fetched, fetchMissingMembers]

theorem membersByUser_lookup (joined : ∀ m ∈ members, db.fetchMember server.id m.id.user = .ok m)
    (listed : member ∈ members) : (membersByUser members).lookup member.id.user = some member := by
  have collected := lookup_ofPairs (mem_map_of_mem (f := fun m : Member => (m.id.user, m)) listed)
  apply collected
  intro other otherListed sameUser
  obtain ⟨m, mListed, rfl⟩ := List.mem_map.mp otherListed
  have stored := joined m mListed
  rw [show m.id.user = member.id.user from sameUser, joined member listed] at stored
  exact (Except.ok.inj stored).symm

theorem collectPermissions_lookup (all : ∀ u ∈ users, u ∈ db.users.documents)
    (listed : user ∈ users) :
    (collectPermissions now server channel members users).lookup user.id =
      some (calculateUserPermissions now server channel (membersByUser members) user) := by
  have collected := lookup_ofPairs (mem_map_of_mem (f := fun u : User =>
    (u.id, calculateUserPermissions now server channel (membersByUser members) u)) listed)
  apply collected
  intro other otherListed sameId
  obtain ⟨u, uListed, rfl⟩ := List.mem_map.mp otherListed
  have found := mem_documents.mp (all u uListed)
  rw [show u.id = user.id from sameId, mem_documents.mp (all user listed)] at found
  rw [Option.some.inj found]

/-- Who is seen to view the channel, among members of distinct users. -/
theorem membersCanSeeChannel_seen
    (distinct : ∀ m ∈ members, ∀ m' ∈ members, m.id.user = m'.id.user → m = m') :
    ∃ seen final, membersCanSeeChannel.run
        (((new db now server).withChannel (.textChannel channel)).withMembers members) =
        .ok (seen, final) ∧
      ∀ userId, seen.lookup userId = some true ↔ ∃ member ∈ members, ∃ user,
        member.id.user = userId ∧ db.users.find userId = some user ∧
          (textChannelPermissions wipeUnlessViewable now server channel user
            (some member)).hasChannelPermission .viewChannel := by
  obtain ⟨users, fetched⟩ : ∃ users,
      db.fetchUsers (members.map fun member => member.id.user) = .ok users := ⟨_, rfl⟩
  obtain ⟨final, ran⟩ := @membersCanSeeChannel_run db now server channel members users fetched
  have listed : ∀ u, u ∈ users ↔ db.users.find u.id = some u ∧
      ∃ member ∈ members, member.id.user = u.id := by
    intro u
    rw [← Except.ok.inj fetched, mem_filter, mem_documents, contains_iff_mem, List.mem_map]
  have stored : ∀ u ∈ users, u ∈ db.users.documents := fun u member =>
    mem_documents.mpr ((listed u).mp member).1
  have views : ∀ u : User, ∀ member ∈ members, member.id.user = u.id →
      (calculateUserPermissions now server channel (membersByUser members) u).hasChannelPermission
          .viewChannel =
        (textChannelPermissions wipeUnlessViewable now server channel u
          (some member)).hasChannelPermission .viewChannel := by
    intro u member memberListed same
    apply calculateUserPermissions_view
    rw [← same]
    apply lookup_ofPairs (mem_map_of_mem (f := fun m : Member => (m.id.user, m)) memberListed)
    intro other otherListed sameUser
    obtain ⟨m, mListed, rfl⟩ := List.mem_map.mp otherListed
    exact distinct m mListed member memberListed sameUser
  refine ⟨_, final, ran, fun userId => ?_⟩
  rw [lookup_mapValues, Option.map_eq_some_iff]
  constructor
  · rintro ⟨value, collected, viewable⟩
    obtain ⟨u, member, ⟨⟩⟩ := List.mem_map.mp (mem_of_lookup_ofPairs collected)
    obtain ⟨found, m, mListed, sameUser⟩ := (listed u).mp member
    exact ⟨m, mListed, u, sameUser, found, (views u m mListed sameUser).symm.trans viewable⟩
  · rintro ⟨m, mListed, u, rfl, found, viewable⟩
    have sameId : u.id = m.id.user := key_of_find found
    have member : u ∈ users := (listed u).mpr ⟨sameId ▸ found, m, mListed, sameId.symm⟩
    have collected := @collectPermissions_lookup db now server channel u members users stored member
    rw [sameId] at collected
    exact ⟨_, collected, (views u m mListed sameId.symm).trans viewable⟩

/-- For every list of members, the bulk query maps a member to true exactly when
the single calculation gives that member `ViewChannel`. -/
theorem membersCanSeeChannel_agrees (stored : db.servers.find channel.server = some server)
    (distinct : server.DistinctRanks server.roles.keys) (sameServer : server'.Reiterates server)
    (sameChannel : channel'.Reiterates channel)
    (joined : ∀ m ∈ members, db.fetchMember server.id m.id.user = .ok m) :
    ∃ seen final, membersCanSeeChannel.run
        (((new db now server').withChannel (.textChannel channel')).withMembers members) =
        .ok (seen, final) ∧
      ∀ m ∈ members, ∀ user, db.users.find m.id.user = some user → ∃ value final',
        calculateChannelPermissions.run
            (db.channelQuery now user (.textChannel channel)) = .ok (value, final') ∧
          seen.lookup m.id.user = some (value.hasChannelPermission .viewChannel) := by
  obtain ⟨users, fetched⟩ : ∃ users,
      db.fetchUsers (members.map fun member => member.id.user) = .ok users := ⟨_, rfl⟩
  obtain ⟨final, ran⟩ := @membersCanSeeChannel_run db now server' channel' members users fetched
  refine ⟨_, final, ran, ?_⟩
  intro m listed user found
  have sameUser : user.id = m.id.user := key_of_find found
  have single := @MongoDb.channelQuery_run db now user server channel stored wipeUnlessViewable
  have known : db.memberOf server user = some m := by
    rw [MongoDb.memberOf, sameUser, joined m listed]
    rfl
  rw [known] at single
  refine ⟨_, _, single, ?_⟩
  have all : ∀ u, u ∈ users ↔ u ∈ db.users.documents ∧
      u.id ∈ members.map fun member => member.id.user := by
    intro u
    rw [← Except.ok.inj fetched, mem_filter, contains_iff_mem]
  have fetchedUser : user ∈ users := by
    refine (all user).mpr ⟨mem_documents.mpr ?_, ?_⟩
    · rw [sameUser, found]
    · rw [sameUser]
      exact mem_map_of_mem listed
  have byUser : (membersByUser members).lookup user.id = some m := by
    rw [sameUser]
    exact membersByUser_lookup joined listed
  rw [lookup_mapValues, ← sameUser,
    collectPermissions_lookup (fun u member => ((all u).mp member).1) fetchedUser, Option.map_some,
    calculateUserPermissions_reiterated distinct sameServer sameChannel,
    calculateUserPermissions_view byUser]

end Agreement

def shuffledServer : Server :=
  { sampleServer with roles := HashMap.ofPairs [("guest", guestRole), ("staff", staffRole)] }

theorem membersCanSeeChannel_agrees_sample :
    ∃ seen final, membersCanSeeChannel.run
        (((new sampleStore 0 shuffledServer).withChannel (.textChannel sampleChannel)).withMembers
          [staffMember, guestMember]) = .ok (seen, final) ∧
      ∀ m ∈ [staffMember, guestMember], ∀ user, sampleStore.users.find m.id.user = some user →
        ∃ value final', calculateChannelPermissions.run
            (sampleStore.channelQuery 0 user (.textChannel sampleChannel)) = .ok (value, final') ∧
          seen.lookup m.id.user = some (value.hasChannelPermission .viewChannel) := by
  refine membersCanSeeChannel_agrees
    (rfl : sampleStore.servers.find sampleChannel.server = some sampleServer) (by decide)
    ⟨rfl, List.Perm.swap _ _ _⟩ ⟨rfl, .refl _⟩ ?_
  intro m member
  fin_cases member <;> rfl

end BulkDatabasePermissionQuery

end Company
