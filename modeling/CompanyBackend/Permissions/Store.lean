import CompanyBackend.Database.Mongo
import CompanyBackend.Permissions.Layering

/-!
# Calculations against the store

The queries that the routes and the bulk calculation put to the stored documents: one
about a user in a server, one about a user in a channel. Both are the closed forms of
the calculations, with the member document that the store holds for the user.
-/

namespace Company

open DatabasePermissionQuery PermissionQuery

/-- A calculation returns one value. -/
theorem exists_run_iff {Q α : Type} {x : QueryM Q α} {q final : Q} {a value : α}
    (ran : x.run q = .ok (a, final)) : (∃ final', x.run q = .ok (value, final')) ↔ value = a := by
  rw [ran]
  constructor
  · rintro ⟨final', same⟩
    cases same
    rfl
  · rintro rfl
    exact ⟨final, rfl⟩

/-- The query of the server routes: the stored documents, one user and one
server. -/
def MongoDb.serverQuery (db : MongoDb) (now : Timestamp) (user : User) (server : Server) :
    DatabasePermissionQuery :=
  (DatabasePermissionQuery.new db.reads now user).withServer server

/-- The member document of a user that a calculation finds. -/
def MongoDb.memberOf (db : MongoDb) (server : Server) (user : User) : Option Member :=
  (db.fetchMember server.id user.id).toOption

/-- The value that the server calculation returns for a user. -/
def MongoDb.CalculatesServer (db : MongoDb) (now : Timestamp) (user : User) (server : Server)
    (value : PermissionValue) : Prop :=
  ∃ final, calculateServerPermissions.run (db.serverQuery now user server) =
    .ok (value, final)

/-- The rank that guards a route: that of the member, and the smallest integer
for a privileged user, the owner and a user who is no member. -/
def MongoDb.rankOf (db : MongoDb) (server : Server) (user : User) : Int64 :=
  ((if user.unrestricted server then none else db.memberOf server user).map
    fun member => member.getRanking server).getD Int64.minValue

theorem MongoDb.serverQuery_run (db : MongoDb) (now : Timestamp) (user : User) (server : Server) :
    calculateServerPermissions.run (db.serverQuery now user server) =
      .ok (serverPermissions now server user (db.memberOf server user),
        (db.serverQuery now user server).afterServer server) :=
  calculateServerPermissions_run rfl

variable {db : MongoDb} {now : Timestamp} {user : User} {server : Server} {channel : TextChannel}
variable {value : PermissionValue}

theorem MongoDb.calculatesServer_iff : db.CalculatesServer now user server value ↔
      value = serverPermissions now server user (db.memberOf server user) := by
  exact exists_run_iff (serverQuery_run db now user server)

/-- The query of the channel routes: the stored documents, one user and one
channel. -/
def MongoDb.channelQuery (db : MongoDb) (now : Timestamp) (user : User) (channel : Channel) :
    DatabasePermissionQuery :=
  (DatabasePermissionQuery.new db.reads now user).withChannel channel

theorem MongoDb.channelQuery_run (stored : db.servers.find channel.server = some server)
    (check : PermissionValue → PermissionValue) :
    (calculateChannelPermissionsWith check).run
        (db.channelQuery now user (.textChannel channel)) =
      .ok (textChannelPermissions check now server channel user (db.memberOf server user),
        (db.channelQuery now user (.textChannel channel)).afterTextChannel server) := by
  apply calculateChannelPermissionsWith_run_text
  · rfl
  · exact setServerFromChannel_fetched rfl rfl (orNotFound_eq_ok.mpr stored)

/-- The value that the channel calculation returns for a user. -/
def MongoDb.CalculatesChannel (db : MongoDb) (now : Timestamp) (user : User) (channel : Channel)
    (value : PermissionValue) : Prop :=
  ∃ final, calculateChannelPermissions.run (db.channelQuery now user channel) =
    .ok (value, final)

/-- The same without the final `ViewChannel` check. -/
def MongoDb.CalculatesUnwiped (db : MongoDb) (now : Timestamp) (user : User) (channel : Channel)
    (value : PermissionValue) : Prop :=
  ∃ final, calculateChannelPermissionsUnwiped.run
    (db.channelQuery now user channel) = .ok (value, final)

section ChannelValues

variable {group : Group}

theorem MongoDb.calculatesChannel_iff_text (stored : db.servers.find channel.server = some server) :
    db.CalculatesChannel now user (.textChannel channel) value ↔
      value = textChannelPermissions wipeUnlessViewable now server channel user
        (db.memberOf server user) :=
  exists_run_iff (channelQuery_run stored wipeUnlessViewable)

theorem MongoDb.calculatesUnwiped_iff_text (stored : db.servers.find channel.server = some server) :
    db.CalculatesUnwiped now user (.textChannel channel) value ↔
      value = textChannelPermissions id now server channel user (db.memberOf server user) :=
  exists_run_iff (channelQuery_run stored id)

theorem MongoDb.calculatesChannel_iff_group :
    db.CalculatesChannel now user (.group group) value ↔ value = groupPermissions group user :=
  exists_run_iff (calculateChannelPermissionsWith_run_group rfl)

theorem MongoDb.calculatesUnwiped_iff_group :
    db.CalculatesUnwiped now user (.group group) value ↔ value = groupPermissions group user :=
  exists_run_iff (calculateChannelPermissionsWith_run_group rfl)

end ChannelValues

/-- After the channel calculation of an unprivileged user, the query knows the
server and the member whose rank guards the route. -/
theorem MongoDb.channelQuery_after
    {channel : Channel} (unprivileged : user.privileged = false) (server : Server) :
    ((db.channelQuery now user channel).afterTextChannel server).server = some server ∧
      (((db.channelQuery now user channel).afterTextChannel server).member.map
        fun member => member.getRanking server).getD Int64.minValue = db.rankOf server user := by
  have after : (db.channelQuery now user channel).afterTextChannel server =
      { db.channelQuery now user channel with
        server := some server
        member := if user.unrestricted server then none else db.memberOf server user } := by
    rw [afterTextChannel,
      show (db.channelQuery now user channel).perspective.privileged = false from unprivileged]
    rfl
  rw [after]
  exact ⟨rfl, rfl⟩

/-- For a privileged user the calculation returns before it looks for the
server. -/
theorem MongoDb.channelQuery_after_privileged
    {channel : Channel} (privileged : user.privileged) (server : Server) :
    ((db.channelQuery now user channel).afterTextChannel server).server = none := by
  rw [afterTextChannel,
    show (db.channelQuery now user channel).perspective.privileged = true from privileged]
  rfl

/-- A channel whose server is not stored leaves the query without one. -/
theorem MongoDb.channelQuery_run_unlocated (missing : db.servers.find channel.server = none)
    (check : PermissionValue → PermissionValue) :
    (calculateChannelPermissionsWith check).run
        (db.channelQuery now user (.textChannel channel)) =
      .ok (if user.privileged then .ofChannelPermission .grantAllSafe else (0 : UInt64),
        db.channelQuery now user (.textChannel channel)) := by
  apply calculateChannelPermissionsWith_run_unlocated rfl rfl
  change (orNotFound (db.servers.find channel.server)).toOption = none
  rw [missing]
  rfl

theorem MongoDb.calculatesUnwiped_iff_unlocated (missing : db.servers.find channel.server = none) :
    db.CalculatesUnwiped now user (.textChannel channel) value ↔
      value = if user.privileged then .ofChannelPermission .grantAllSafe
        else ((0 : UInt64) : PermissionValue) :=
  exists_run_iff (channelQuery_run_unlocated missing id)

/-! A store with a staff member and a guest of the sample server. -/

def staffUser : User where
  id := "staff-user"

def guestUser : User where
  id := "guest-user"

def staffMember : Member where
  id := { server := "server", user := "staff-user" }
  roles := ["staff"]

def guestMember : Member where
  id := { server := "server", user := "guest-user" }
  roles := ["guest"]

def sampleStore : MongoDb where
  users := .ofDocuments [staffUser, guestUser]
  servers := .ofDocuments [sampleServer]
  channels := .ofDocuments [.textChannel sampleChannel]
  serverMembers := .ofDocuments [.ofMember staffMember, .ofMember guestMember]
  attachments := .empty
  rolesKeyed := by decide

end Company
