import CompanyBackend.Library.Collection
import CompanyBackend.Library.Request
import CompanyBackend.Permissions.Database

/-!
# The document store

The collections that the modelled requests read and write, with the operations of
the database driver on them. An update sets the fields of a partial document and
unsets a list of paths in one step; setting and unsetting the same path conflicts,
and the store then refuses the whole update. An update that matches no document
succeeds and changes nothing.

The store is taken to be reachable: a request against it fails only for the reasons
given here.
-/

namespace Company

open Collection

/-- Why a request ends without a result: an error of the API, or a panic. -/
inductive Failure where
  | error (e : Error)
  | panic (message : String)
  deriving DecidableEq, Repr

/-- A stored member. Unlike the model it may lack `joined_at`, and it may be
marked for deletion, which hides it from reads. -/
structure MemberDocument where
  id : MemberCompositeKey
  joinedAt : Option Timestamp := none
  nickname : Option String := none
  avatar : Option File := none
  roles : List String := []
  timeout : Option Timestamp := none
  canPublish : Bool := true
  canReceive : Bool := true
  pendingDeletionAt : Option Timestamp := none
  deriving DecidableEq, Repr

variable {member : Member}

namespace MemberDocument

variable (document : MemberDocument)

/-- Deserialise a member. The only required field is `joined_at`. -/
def toMember : Option Member :=
  document.joinedAt.map fun joinedAt =>
    { id := document.id
      joinedAt
      nickname := document.nickname
      avatar := document.avatar
      roles := document.roles
      timeout := document.timeout
      canPublish := document.canPublish
      canReceive := document.canReceive }

theorem toMember_eq_some {document : MemberDocument} (decoded : document.toMember = some member) :
    member.id = document.id ∧ member.timeout = document.timeout ∧
      member.roles = document.roles ∧ member.nickname = document.nickname := by
  rw [toMember, Option.map_eq_some_iff] at decoded
  obtain ⟨joinedAt, _, rfl⟩ := decoded
  exact ⟨rfl, rfl, rfl, rfl⟩

def ofMember (member : Member) : MemberDocument where
  id := member.id
  joinedAt := some member.joinedAt
  nickname := member.nickname
  avatar := member.avatar
  roles := member.roles
  timeout := member.timeout
  canPublish := member.canPublish
  canReceive := member.canReceive

def unset : FieldsMember → MemberDocument
  | .joinedAt => { document with joinedAt := none }
  | .avatar => { document with avatar := none }
  | .nickname => { document with nickname := none }
  | .roles => { document with roles := [] }
  | .timeout => { document with timeout := none }
  | .canReceive => { document with canReceive := true }
  | .canPublish => { document with canPublish := true }
  | .voiceChannel => document

/-- Set the fields of a partial member. The key cannot be changed. -/
def set (data : PartialMember) : MemberDocument :=
  { document with
    joinedAt := data.joinedAt <|> document.joinedAt
    nickname := data.nickname <|> document.nickname
    avatar := data.avatar <|> document.avatar
    roles := data.roles.getD document.roles
    timeout := data.timeout <|> document.timeout
    canPublish := data.canPublish.getD document.canPublish
    canReceive := data.canReceive.getD document.canReceive }

@[simp] theorem unset_id (field : FieldsMember) : (document.unset field).id = document.id := by
  cases field <;> rfl

@[simp] theorem set_id (data : PartialMember) : (document.set data).id = document.id := rfl

end MemberDocument

/-- Whether unsetting the path of the field conflicts with what the partial
document sets. -/
def FieldsUser.conflicts (data : PartialUser) : FieldsUser → Bool
  | .avatar => data.avatar.isSome
  | .statusText | .statusPresence => data.status.isSome
  | .profileContent | .profileBackground => data.profile.isSome
  | .displayName => data.displayName.isSome
  | .suspension => data.suspendedUntil.isSome
  | .none => false

def FieldsServer.conflicts (data : PartialServer) : FieldsServer → Bool
  | .description => data.description.isSome
  | .categories => data.categories.isSome
  | .systemMessages => data.systemMessages.isSome
  | .icon => data.icon.isSome
  | .banner => data.banner.isSome

def FieldsRole.conflicts (data : PartialRole) : FieldsRole → Bool
  | .colour => data.colour.isSome

variable (data : PartialChannel)

def FieldsChannel.conflicts : FieldsChannel → Bool
  | .description => data.description.isSome
  | .icon => data.icon.isSome
  | .defaultPermissions => data.defaultPermissions.isSome
  | .voice => data.voice.isSome

def FieldsMember.conflicts (data : PartialMember) : FieldsMember → Bool
  | .nickname => data.nickname.isSome
  | .avatar => data.avatar.isSome
  | .roles => data.roles.isSome
  | .timeout => data.timeout.isSome
  | .canReceive => data.canReceive.isSome
  | .canPublish => data.canPublish.isSome
  | .joinedAt => data.joinedAt.isSome
  | .voiceChannel => false

def RolesKeyed (roles : HashMap String Role) : Prop := ∀ e ∈ roles.entries, e.2.id = e.1

instance (roles : HashMap String Role) : Decidable (RolesKeyed roles) :=
  inferInstanceAs (Decidable (∀ e ∈ roles.entries, e.2.id = e.1))

open MemberDocument

/-- The collections. Every document is stored under its own id, and so is every
role inside its server. -/
structure MongoDb where
  users : Collection String User User.id
  servers : Collection String Server Server.id
  channels : Collection String Channel Channel.id
  serverMembers : Collection MemberCompositeKey MemberDocument id
  attachments : Collection String File File.id
  rolesKeyed : ∀ server ∈ servers.documents, RolesKeyed server.roles

theorem noServers_keyed :
    ∀ server ∈ (Collection.empty : Collection String Server Server.id).documents,
      RolesKeyed server.roles := by
  rintro server ⟨⟩

def MongoDb.empty : MongoDb where
  users := .empty
  servers := .empty
  channels := .empty
  serverMembers := .empty
  attachments := .empty
  rolesKeyed := noServers_keyed

/-- A document that has to exist. -/
def orNotFound {α : Type} : Option α → Result α
  | some document => .ok document
  | none => .error .notFound

theorem orNotFound_eq_ok {α : Type} {x : Option α} {a : α} : orNotFound x = .ok a ↔ x = some a := by
  cases x <;> simp [orNotFound]

namespace Channel

def recipients : Channel → List String
  | directMessage channel => channel.recipients
  | group channel => channel.recipients
  | _ => []

/-- Set the fields of a partial channel in the store, the last message
included. -/
def set (data : PartialChannel) (channel : Channel) : Channel :=
  match channel.applyOptions data with
  | savedMessages channel => savedMessages channel
  | directMessage channel =>
    directMessage { channel with lastMessageId := data.lastMessageId <|> channel.lastMessageId }
  | group channel =>
    group { channel with lastMessageId := data.lastMessageId <|> channel.lastMessageId }
  | textChannel channel =>
    textChannel { channel with lastMessageId := data.lastMessageId <|> channel.lastMessageId }

variable (f : HashMap String OverrideField → HashMap String OverrideField)

def mapRolePermissions : Channel → Channel
  | textChannel channel => textChannel { channel with rolePermissions := f channel.rolePermissions }
  | channel => channel

@[simp] theorem set_id (data : PartialChannel) (channel : Channel) :
    (channel.set data).id = channel.id := by
  cases channel <;> rfl

@[simp] theorem mapRolePermissions_id (channel : Channel) :
    (channel.mapRolePermissions f).id = channel.id := by
  cases channel <;> rfl

/-- A channel without an override for the role has none to drop. -/
theorem mapRolePermissions_erase {channel : Channel} {roleId : String}
    (absent : ∀ text, channel = textChannel text → roleId ∉ text.rolePermissions) :
    channel.mapRolePermissions (fun overrides => overrides.erase roleId) = channel := by
  cases channel with
  | textChannel text =>
    rw [mapRolePermissions]
    congr 2
    exact AList.ext (List.kerase_of_notMem_keys (absent text rfl))
  | _ => rfl

theorem foldl_removeField_id (remove : List FieldsChannel) (channel : Channel) :
    (remove.foldl (fun channel field => channel.removeField field) channel).id = channel.id :=
  read_foldl_edit id (fun channel field => removeField_id field channel) remove channel

end Channel

open Channel

theorem MemberDocument.foldl_unset_id (remove : List FieldsMember) (document : MemberDocument) :
    (remove.foldl unset document).id = document.id :=
  read_foldl_edit id unset_id remove document

theorem Member.foldl_removeField_id (remove : List FieldsMember) (member : Member) :
    (remove.foldl removeField member).id = member.id :=
  read_foldl_edit id (fun _ field => by cases field <;> rfl) remove member

theorem User.foldl_removeField_id (remove : List FieldsUser) (user : User) :
    (remove.foldl removeField user).id = user.id :=
  read_foldl_edit id (fun _ field => by cases field <;> rfl) remove user

/-! ## Updated documents

Unsetting comes first and setting second, as in the store. An update cannot change
the id of a document. -/

def User.updated (data : PartialUser) (remove : List FieldsUser) (user : User) : User :=
  { (remove.foldl removeField user).applyOptions data with id := user.id }

def Server.updated (data : PartialServer) (remove : List FieldsServer) (server : Server) : Server :=
  { (remove.foldl removeField server).applyOptions data with id := server.id }

def Role.updated (data : PartialRole) (remove : List FieldsRole) (role : Role) : Role :=
  (remove.foldl removeField role).applyOptions data

def Channel.updated (remove : List FieldsChannel) (channel : Channel) : Channel :=
  (remove.foldl (fun channel field => channel.removeField field) channel).set data

def MemberDocument.updated (data : PartialMember) (remove : List FieldsMember)
    (document : MemberDocument) : MemberDocument :=
  (remove.foldl unset document).set data

/-- Only optional fields of a server can be removed. -/
theorem Server.foldl_removeField (remove : List FieldsServer) (server : Server) :
    ∃ description categories systemMessages icon banner, remove.foldl removeField server =
      { server with description, categories, systemMessages, icon, banner } := by
  induction remove generalizing server with
  | nil => exact ⟨_, _, _, _, _, rfl⟩
  | cons field remove ih =>
    obtain ⟨_, _, _, _, _, removed⟩ := ih (server.removeField field)
    rw [List.foldl_cons, removed]
    cases field <;> exact ⟨_, _, _, _, _, rfl⟩

theorem Server.updated_roles (data : PartialServer) (remove : List FieldsServer) (server : Server) :
    (server.updated data remove).roles = data.roles.getD server.roles := by
  obtain ⟨_, _, _, _, _, removed⟩ := foldl_removeField remove server
  rw [updated, removed]
  rfl

theorem Role.foldl_removeField (remove : List FieldsRole) (role : Role) :
    ∃ colour, remove.foldl removeField role = { role with colour } := by
  induction remove generalizing role with
  | nil => exact ⟨role.colour, rfl⟩
  | cons field remove ih => cases field; exact ih { role with colour := none }

theorem Role.updated_id {data : PartialRole} (sameId : data.id = none) (remove : List FieldsRole)
    (role : Role) : (role.updated data remove).id = role.id := by
  obtain ⟨colour, removed⟩ := foldl_removeField remove role
  simp [updated, removed, applyOptions, sameId]

theorem User.updated_id (data : PartialUser) (remove : List FieldsUser) (user : User) :
    (user.updated data remove).id = user.id := rfl

theorem Channel.updated_id (remove : List FieldsChannel)
    (channel : Channel) : (channel.updated data remove).id = channel.id := by
  rw [updated, set_id, foldl_removeField_id]

theorem MemberDocument.updated_id (data : PartialMember) (remove : List FieldsMember)
    (document : MemberDocument) : (document.updated data remove).id = document.id := by
  rw [updated, set_id, foldl_unset_id]

namespace RolesKeyed

variable {roles : HashMap String Role}

section

variable (keyed : RolesKeyed roles)

include keyed

theorem modify {f : Role → Role} (keeps : ∀ role, (f role).id = role.id)
    (id : String) : RolesKeyed (roles.modify id f) := by
  intro e member
  rw [HashMap.entries_modify, List.mem_map] at member
  obtain ⟨e', old, rfl⟩ := member
  split
  · next same =>
    rw [same]
    exact (keeps e'.2).trans (keyed e' old)
  · exact keyed e' old

theorem erase (id : String) : RolesKeyed (roles.erase id) :=
  fun e member => keyed e (HashMap.mem_entries_erase member).1

theorem id_eq {id : String} {role : Role} (found : roles.lookup id = some role) : role.id = id :=
  keyed ⟨id, role⟩ (HashMap.mem_entries_iff.mpr found)

end

end RolesKeyed

namespace MongoDb

variable (db : MongoDb)

variable (id : String)

def fetchUser : Result User := orNotFound (db.users.find id)

def fetchUsers (ids : List String) : Result (List User) :=
  .ok (db.users.documents.filter fun user => ids.contains user.id)

def fetchServer : Result Server := orNotFound (db.servers.find id)

def fetchChannel : Result Channel := orNotFound (db.channels.find id)

def fetchMember (server user : String) : Result Member :=
  match db.serverMembers.find { server, user } with
  | some document =>
    if document.pendingDeletionAt.isSome then .error .notFound
    else
      match document.toMember with
      | some member => .ok member
      | none => .error (.databaseError "find_one" "server_members")
  | none => .error .notFound

/-- A member that is fetched has a document that is not marked. -/
theorem fetchMember_eq_ok {db : MongoDb} {server user : String} :
    db.fetchMember server user = .ok member ↔
      ∃ document, db.serverMembers.find { server, user } = some document ∧
        document.pendingDeletionAt = none ∧ document.toMember = some member := by
  rw [fetchMember]
  cases db.serverMembers.find { server, user } with
  | none => simp
  | some document =>
    cases marked : document.pendingDeletionAt <;> cases decoded : document.toMember <;>
      simp [marked, decoded]

theorem fetchMember_id {db : MongoDb} {server user : String}
    (fetched : db.fetchMember server user = .ok member) : member.id = { server, user } := by
  obtain ⟨document, found, _, decoded⟩ := fetchMember_eq_ok.mp fetched
  exact (toMember_eq_some decoded).1.trans (key_of_find found)

/-- Documents that do not decode are left out. -/
def fetchMembers (serverId : String) (ids : List String) : Result (List Member) :=
  .ok ((db.serverMembers.documents.filter fun document =>
    document.id.server == serverId && document.pendingDeletionAt.isNone &&
      ids.contains document.id.user).filterMap toMember)

theorem fetchMember_of_mem {db : MongoDb} {serverId : String} {ids : List String}
    {members : List Member} (fetched : db.fetchMembers serverId ids = .ok members) :
    ∀ member ∈ members, db.fetchMember serverId member.id.user = .ok member := by
  intro member listed
  rw [← Except.ok.inj fetched, List.mem_filterMap] at listed
  obtain ⟨document, selected, decoded⟩ := listed
  obtain ⟨stored, selects⟩ := List.mem_filter.mp selected
  simp only [Bool.and_eq_true, beq_iff_eq, Option.isNone_iff_eq_none] at selects
  obtain ⟨⟨rfl, unmarked⟩, _⟩ := selects
  rw [(toMember_eq_some decoded).1]
  exact fetchMember_eq_ok.mpr ⟨document, mem_documents.mp stored, unmarked, decoded⟩

/-- Servers that both users have a member document in, also one marked for
deletion. -/
def fetchMutualServerIds (userA userB : String) : Result (List String) :=
  .ok ((db.serverMembers.documents.filter fun document =>
    document.id.user == userA &&
      (db.serverMembers.find { server := document.id.server, user := userB }).isSome).map
    fun document => document.id.server)

def fetchMutualChannelIds (userA userB : String) : Result (List String) :=
  .ok ((db.channels.documents.filter fun channel =>
    channel.recipients.contains userA && channel.recipients.contains userB).map Channel.id)

/-- The store as the permission calculations see it. -/
def reads : Database where
  fetchUser := db.fetchUser
  fetchServer := db.fetchServer
  fetchMember := db.fetchMember
  fetchMutualServerIds := db.fetchMutualServerIds
  fetchMutualChannelIds := db.fetchMutualChannelIds

def modifyServer (f : Server → Server) (keepsId : ∀ server, (f server).id = server.id)
    (keepsKeys : ∀ server, RolesKeyed server.roles → RolesKeyed (f server).roles) : MongoDb where
  users := db.users
  servers := db.servers.update id f keepsId
  channels := db.channels
  serverMembers := db.serverMembers
  attachments := db.attachments
  rolesKeyed := forall_documents_update db.rolesKeyed keepsKeys

def updateServer (data : PartialServer) (remove : List FieldsServer)
    (keyed : ∀ roles ∈ data.roles, RolesKeyed roles) : Result MongoDb :=
  if remove.any (FieldsServer.conflicts data) || data.id.any (fun other => other != id) then
    .error (.databaseError "update_one_by_id" "servers")
  else
    .ok (db.modifyServer id (Server.updated data remove) (fun _ => rfl) fun server stored => by
      rw [Server.updated_roles]
      cases written : data.roles with
      | none => exact stored
      | some roles => exact keyed roles written)

variable (serverId roleId : String)

def updateRole (data : PartialRole) (remove : List FieldsRole)
    (sameId : data.id = none) : Result MongoDb :=
  if remove.any (FieldsRole.conflicts data) then
    .error (.databaseError "update_one_by_id" "servers")
  else
    .ok (db.modifyServer serverId
      (fun server => { server with roles := server.roles.modify roleId (Role.updated data remove) })
      (fun _ => rfl) fun _ stored => stored.modify (Role.updated_id sameId remove) roleId)

/-- Delete a role: take it from all members of the server, drop its override
from the first channel of the server that the store finds, and drop the role
itself. -/
def deleteRole : MongoDb :=
  let members := db.serverMembers.updateMany
    (fun document =>
      if document.id.server = serverId then
        { document with roles := document.roles.filter fun role => role != roleId }
      else document)
    (by intro document; split <;> rfl)
  let channels := db.channels.updateFirst (fun channel => channel.server == some serverId)
    (mapRolePermissions fun overrides => overrides.erase roleId)
    (mapRolePermissions_id _)
  { db with serverMembers := members, channels := channels }.modifyServer serverId
    (fun server => { server with roles := server.roles.erase roleId })
    (fun _ => rfl) fun _ stored => stored.erase roleId

theorem find_deleteRole_server : (db.deleteRole serverId roleId).servers.find serverId =
      (db.servers.find serverId).map fun server =>
        { server with roles := server.roles.erase roleId } := by
  rw [deleteRole, modifyServer, find_update]

theorem find_deleteRole_server_ne {serverId other : String} (ne : other ≠ serverId)
    (roleId : String) :
    (db.deleteRole serverId roleId).servers.find other = db.servers.find other := by
  rw [deleteRole, modifyServer, find_update_ne ne]

theorem find_deleteRole_channel (serverId roleId id : String) :
    (db.deleteRole serverId roleId).channels.find id = (db.channels.find id).map fun channel =>
      if (db.channels.documents.find? fun channel => channel.server == some serverId).map
          Channel.id = some id then
        channel.mapRolePermissions fun overrides => overrides.erase roleId
      else channel :=
  find_updateFirst

/-- The server, its channels and its members are without the role. All else is
as it was. -/
structure DeletesRole (db' : MongoDb) (serverId roleId : String) : Prop where
  servers : ∀ id, db'.servers.find id = (db.servers.find id).map fun server =>
    if id = serverId then { server with roles := server.roles.erase roleId } else server
  members : ∀ id, db'.serverMembers.find id = (db.serverMembers.find id).map fun member =>
    if member.id.server = serverId then
      { member with roles := member.roles.filter fun role => role != roleId }
    else member
  channels : ∀ id, db'.channels.find id = (db.channels.find id).map fun channel =>
    if channel.server = some serverId then
      channel.mapRolePermissions fun overrides => overrides.erase roleId
    else channel

/-- A role is deleted with all that refers to it exactly if no channel has an
override for it but the first one of the server that a scan finds: only that one
is updated. -/
theorem deleteRole_cleans_up_iff (serverId roleId : String) :
    db.DeletesRole (db.deleteRole serverId roleId) serverId roleId ↔
      ∀ text, .textChannel text ∈ db.channels.documents → text.server = serverId →
        roleId ∈ text.rolePermissions →
        db.channels.documents.find? (fun channel => channel.server == some serverId) =
          some (.textChannel text) := by
  constructor
  · intro cleaned text stored ofServer overridden
    have found := mem_documents.mp stored
    have listed : (textChannel text).server = some serverId := congrArg some ofServer
    have kept := cleaned.channels (textChannel text).id
    rw [find_deleteRole_channel, found, Option.map_some, Option.map_some, if_pos listed] at kept
    split at kept
    · next first => exact (find?_documents_key found).mp first
    · injection kept with kept
      injection kept with kept
      rw [congrArg TextChannel.rolePermissions kept] at overridden
      exact absurd rfl (AList.mem_erase.mp overridden).1
  · intro only
    refine ⟨fun id => ?_, fun id => ?_, fun id => ?_⟩
    · by_cases same : id = serverId
      · subst same
        simp [find_deleteRole_server]
      · simp [find_deleteRole_server_ne db same, same]
    · rw [deleteRole, modifyServer, find_updateMany]
    · rw [find_deleteRole_channel]
      refine Option.map_congr fun channel found => ?_
      split
      · next first =>
        have ofServer := List.find?_some ((find?_documents_key found).mp first)
        rw [if_pos (by simpa using ofServer)]
      · next other =>
        rw [find?_documents_key found] at other
        split
        · next ofServer =>
          refine (mapRolePermissions_erase ?_).symm
          rintro text rfl overridden
          exact other (only text (mem_documents.mpr (key_of_find found ▸ found))
            (Option.some.inj ofServer) overridden)
        · rfl

/-- A server with one role, for which two of its channels have an override. -/
def overriddenStore : MongoDb :=
  let overrides := HashMap.ofPairs [("staff", { a := 0, d := 0 })]
  { MongoDb.empty with
    servers := .ofDocuments
      [{ id := "server", owner := "owner", channels := ["rules", "general"]
         roles := HashMap.ofPairs [("staff", { id := "staff", name := "Staff", rank := 0 })] }]
    rolesKeyed := by decide
    channels := .ofDocuments
      [.textChannel { id := "rules", server := "server", rolePermissions := overrides },
        .textChannel { id := "general", server := "server", rolePermissions := overrides }] }

/-- Two channels of the server have an override for the role, and the second one
keeps it. -/
theorem overriddenStore_keeps_override :
    ¬overriddenStore.DeletesRole (overriddenStore.deleteRole "server" "staff") "server"
      "staff" := by
  intro cleaned
  have rules := cleaned.channels "rules"
  injection rules with rules
  injection rules with rules
  exact absurd (congrArg (fun text => text.rolePermissions.size) rules) (by decide)

def updateChannel (data : PartialChannel) (remove : List FieldsChannel) : Result MongoDb :=
  if remove.any (FieldsChannel.conflicts data) then
    .error (.databaseError "update_one_by_id" "channels")
  else
    .ok { db with
      channels := db.channels.update id (Channel.updated data remove) (updated_id data remove) }

def setChannelRolePermission (channel role : String) (permissions : OverrideField) : MongoDb :=
  { db with
    channels := db.channels.update channel
      (mapRolePermissions fun overrides => overrides.put role permissions)
      (mapRolePermissions_id _) }

def updateMember (id : MemberCompositeKey) (data : PartialMember) (remove : List FieldsMember) :
    Result MongoDb :=
  if remove.any (FieldsMember.conflicts data) || data.id.any (fun other => other != id) then
    .error (.databaseError "update_one" "server_members")
  else
    .ok { db with
      serverMembers := db.serverMembers.update id (updated data remove) (updated_id data remove) }

def updateUserOnce (data : PartialUser) (remove : List FieldsUser) : Result MongoDb :=
  if remove.any (FieldsUser.conflicts data) || data.id.any (fun other => other != id) then
    .error (.databaseError "update_one_by_id" "users")
  else
    .ok { db with
      users := db.users.update id (User.updated data remove) (User.updated_id data remove) }

/-- Removing the status text while setting a status would conflict, so the
source unsets first, ignoring a failure, and sets in a second update. -/
def updateUser (data : PartialUser) (remove : List FieldsUser) : Result MongoDb :=
  if remove.contains .statusText && data.status.isSome then
    let unset :=
      match db.updateUserOnce id {} remove with
      | .ok unset => unset
      | .error _ => db
    unset.updateUserOnce id data []
  else db.updateUserOnce id data remove

def useAttachment (usedFor : FileUsedFor) (uploaderId : String) : MongoDb :=
  { db with
    attachments := db.attachments.update id
      (fun file => { file with usedFor := some usedFor, uploaderId := some uploaderId })
      fun _ => rfl }

/-- Claim an unclaimed file of the given tag. The file is returned as it was
before. -/
def findAndUseAttachment (id tag : String) (usedFor : FileUsedFor) (uploaderId : String) :
    Result (File × MongoDb) :=
  match db.attachments.find id with
  | some file =>
    if file.tag = tag ∧ file.usedFor = none then
      .ok (file, db.useAttachment id usedFor uploaderId)
    else .error .notFound
  | none => .error .notFound

def markAttachmentAsDeleted : MongoDb :=
  { db with
    attachments := db.attachments.update id (fun file => { file with deleted := some true })
      fun _ => rfl }

theorem find_useAttachment (usedFor : FileUsedFor) (uploaderId : String) :
    (db.useAttachment id usedFor uploaderId).attachments.find id =
      (db.attachments.find id).map fun file =>
        { file with usedFor := some usedFor, uploaderId := some uploaderId } := by
  rw [useAttachment, find_update]

theorem find_useAttachment_ne {id other : String} (ne : other ≠ id) (usedFor : FileUsedFor)
    (uploaderId : String) :
    (db.useAttachment id usedFor uploaderId).attachments.find other =
      db.attachments.find other := by
  rw [useAttachment, find_update_ne ne]

theorem find_markAttachmentAsDeleted : (db.markAttachmentAsDeleted id).attachments.find id =
      (db.attachments.find id).map fun file => { file with deleted := some true } := by
  rw [markAttachmentAsDeleted, find_update]

theorem find_markAttachmentAsDeleted_ne {id other : String} (ne : other ≠ id) :
    (db.markAttachmentAsDeleted id).attachments.find other = db.attachments.find other := by
  rw [markAttachmentAsDeleted, find_update_ne ne]

/-- Mark the attachments that match a filter as deleted. -/
def deleteManyAttachments (filter : File → Bool) : MongoDb :=
  { db with
    attachments := db.attachments.updateMany
      (fun file => if filter file then { file with deleted := some true } else file)
      (by intro file; split <;> rfl) }

theorem find_deleteManyAttachments (filter : File → Bool) (id : String) :
    (db.deleteManyAttachments filter).attachments.find id = (db.attachments.find id).map fun file =>
      if filter file then { file with deleted := some true } else file := by
  rw [deleteManyAttachments, find_updateMany]

/-- Mark the attachments of messages as deleted, by the message id they
carry. -/
def deleteMessageAttachments (messages : List String) : MongoDb :=
  db.deleteManyAttachments fun file => file.messageId.any messages.contains

end MongoDb

end Company
