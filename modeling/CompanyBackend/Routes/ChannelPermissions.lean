import CompanyBackend.Routes.Basic

/-!
# Channel permission edits

The two routes that edit permissions in a channel: the override of one role in a server
channel, and the default permissions of a server channel or a group.

The check of the role route compares the new override with the permissions that the role
has on the server, not with the override it replaces in the channel. The default route
checks server channels and does not check groups. Both results below say exactly which
edits let somebody gain a bit that the editor does not hold.
-/

namespace Company

open Request LayerStack PermissionQuery Collection Channel Route

/-- Set the override of a role, in the store and in the snapshot. -/
def Channel.setRolePermission (channel : Channel) (roleId : String)
    (permissions : OverrideField) : Route Channel :=
  match channel with
  | .textChannel text => do
    update fun db => .ok (db.setChannelRolePermission text.id roleId permissions)
    return .textChannel { text with rolePermissions := text.rolePermissions.put roleId permissions }
  | _ => .fail (.error .invalidOperation)

/-- Update a channel, in the store and in the snapshot. -/
def Channel.update (channel : Channel) (data : PartialChannel) (remove : List FieldsChannel) :
    Route Channel := do
  Route.update fun db => db.updateChannel channel.id data remove
  return (remove.foldl (fun channel field => channel.removeField field) channel).applyOptions data

/-- `PUT /channels/<target>/permissions/<role_id>` -/
def setRolePermissions (voice : VoiceClient) (now : Timestamp) (user : User)
    (target roleId : String) (permissions : Override) : Route Channel := do
  let channel ← fetch fun db => db.fetchChannel target
  let (value, query) ← ask
    (fun db => (DatabasePermissionQuery.new db now user).withChannel channel)
    calculateChannelPermissions
  lift (value.throwIfLackingChannelPermission .managePermissions)
  match query.server with
  | some server =>
    match server.roles.lookup roleId with
    | some role =>
      let rank ← memberRank query
      ensure (!decide (role.rank ≤ rank)) (.error .notElevated)
      -- The current value is that of the role on the server.
      lift (value.throwPermissionOverride (some role.permissions.toOverride) permissions)
      let newChannel ← channel.setRolePermission roleId permissions.toField
      syncVoicePermissions voice newChannel (some server) (some roleId)
      return newChannel
    | none => fail (.error .notFound)
  | none => fail (.error .invalidOperation)

/-- New default permissions: a value for a group, an override for a server
channel. -/
inductive DataDefaultChannelPermissions where
  | value (permissions : UInt64)
  | field (permissions : Override)
  deriving DecidableEq, Repr

/-- The part of the default route that checks and writes. -/
def writeDefaultPermissions (held : PermissionValue) (data : DataDefaultChannelPermissions)
    (channel : Channel) : Route Channel :=
  match channel, data with
  | .group _, .value permissions =>
    channel.update { permissions := some permissions.toInt64 } []
  | .textChannel text, .field permissions => do
    lift (held.throwPermissionOverride
      (text.defaultPermissions.map OverrideField.toOverride) permissions)
    channel.update { defaultPermissions := some permissions.toField } []
  | _, _ => fail (.error .invalidOperation)

def fetchChannelServer (channel : Channel) : Route (Option Server) :=
  match channel.server with
  | some serverId => do
    let server ← fetch fun db => db.fetchServer serverId
    return some server
  | none => return none

/-- `PUT /channels/<target>/permissions/default` -/
def setDefaultChannelPermissions (voice : VoiceClient) (now : Timestamp) (user : User)
    (target : String) (data : DataDefaultChannelPermissions) : Route Channel := do
  let channel ← fetch fun db => db.fetchChannel target
  let (value, _) ← ask
    (fun db => (DatabasePermissionQuery.new db now user).withChannel channel)
    calculateChannelPermissions
  lift (value.throwIfLackingChannelPermission .managePermissions)
  let channel ← writeDefaultPermissions value data channel
  let server ← fetchChannelServer channel
  syncVoicePermissions voice channel server none
  return channel

/-- One channel document was changed and nothing else. -/
structure MongoDb.ChangesChannel (db db' : MongoDb) (target : String) (channel channel' : Channel) :
    Prop where
  before : db.channels.find target = some channel
  after : db'.channels.find target = some channel'
  others : ∀ other, other ≠ target → db'.channels.find other = db.channels.find other
  users : db'.users = db.users
  servers : db'.servers = db.servers
  serverMembers : db'.serverMembers = db.serverMembers
  attachments : db'.attachments = db.attachments

def TextChannel.withRolePermissions (channel : TextChannel) (id : String)
    (permissions : OverrideField) : TextChannel :=
  { channel with rolePermissions := channel.rolePermissions.put id permissions }

def TextChannel.withDefaultPermissions (channel : TextChannel) (permissions : OverrideField) :
    TextChannel :=
  { channel with defaultPermissions := some permissions }

section Specifications

variable {voice : VoiceClient} {now : Timestamp} {user : User} {target roleId : String}
variable {db db' : MongoDb} {channel : Channel} {text : TextChannel}

theorem MongoDb.setChannelRolePermission_changes
    (stored : db.channels.find target = some (.textChannel text)) (roleId : String)
    (permissions : OverrideField) :
    db.ChangesChannel (db.setChannelRolePermission target roleId permissions) target
      (.textChannel text) (.textChannel (text.withRolePermissions roleId permissions)) where
  before := stored
  after := by
    rw [setChannelRolePermission, find_update, stored]
    rfl
  others := by
    intro other ne
    rw [setChannelRolePermission, find_update_ne ne]
  users := rfl
  servers := rfl
  serverMembers := rfl
  attachments := rfl

variable {remove : List FieldsChannel} {data : PartialChannel}

theorem MongoDb.updateChannel_changes (stored : db.channels.find target = some channel)
    (written : db.updateChannel target data remove = .ok db') :
    db.ChangesChannel db' target channel (channel.updated data remove) := by
  rw [updateChannel] at written
  split at written
  · cases written
  · cases written
    refine ⟨stored, ?_, ?_, rfl, rfl, rfl, rfl⟩
    · rw [find_update, stored, Option.map_some]
    · intro other ne
      rw [find_update_ne ne]

/-- The editor's permissions that a channel route works with. -/
def MongoDb.heldInChannel (db : MongoDb) (now : Timestamp) (user : User) (server : Server)
    (channel : TextChannel) : PermissionValue :=
  textChannelPermissions wipeUnlessViewable now server channel user (db.memberOf server user)

/-- What an accepted role override passed: the channel, its server and the role
exist, the role is below the editor, and the editor may go from the role's
server permissions to the new override. -/
structure MongoDb.AcceptsRoleOverride (db : MongoDb) (now : Timestamp) (user : User)
    (target roleId : String) (permissions : Override) (server : Server) (channel : TextChannel)
    (role : Role) : Prop where
  channelStored : db.channels.find target = some (.textChannel channel)
  serverStored : db.servers.find channel.server = some server
  found : server.roles.lookup roleId = some role
  manages : (db.heldInChannel now user server channel).hasChannelPermission .managePermissions
  below : db.rankOf server user < role.rank
  granted : (db.heldInChannel now user server channel).throwPermissionOverride
    (some role.permissions.toOverride) permissions = .ok ()

theorem Channel.setRolePermission_other {permissions : OverrideField}
    (other : ∀ text, channel ≠ .textChannel text) :
    channel.setRolePermission roleId permissions = fail (.error .invalidOperation) := by
  cases channel with
  | textChannel text => exact absurd rfl (other text)
  | _ => rfl

variable {permissions : Override}

/-- Only server channels have role overrides, whatever the query answered. -/
theorem setRolePermissions_other (stored : db.channels.find target = some channel)
    (other : ∀ text, channel ≠ .textChannel text) :
    Outcome (setRolePermissions voice now user target roleId permissions) db fun r db' =>
      db' = db ∧ ∃ e, r = .error e := by
  have failed : ∀ e : Failure, db = db ∧ ∃ e', (.error e : Except Failure Channel) = .error e' :=
    fun e => ⟨rfl, e, rfl⟩
  rw [setRolePermissions]
  apply Outcome.find_bind _ failed
  intro channel' found
  cases stored.symm.trans found
  apply Outcome.ask_any_bind _ failed
  intro value query _
  apply Outcome.lift_bind _ failed
  intro _ _
  cases query.server with
  | none => exact failed _
  | some server =>
    dsimp only
    cases server.roles.lookup roleId with
    | none => exact failed _
    | some role =>
      apply Outcome.attempt_bind _ fun e _ => failed e
      intro rank _
      apply Outcome.ensure_bind _ fun _ => failed _
      intro _
      apply Outcome.lift_bind _ failed
      intro _ _
      rw [setRolePermission_other other]
      exact failed _

theorem Channel.setRolePermission_outcome (permissions : OverrideField) :
    Outcome ((textChannel text).setRolePermission roleId permissions) db
      (Succeeds fun _ db' => db' = db.setChannelRolePermission text.id roleId permissions) :=
  ⟨_, rfl, rfl⟩

/-- The route failed without a write, or it wrote an override that passed the
checks. -/
def MongoDb.WritesRoleOverride (db : MongoDb) (now : Timestamp) (user : User)
    (target roleId : String) (permissions : Override) (r : Except Failure Channel)
    (db' : MongoDb) : Prop :=
  (db' = db ∧ ∃ e, r = .error e) ∨ ∃ server text role,
    db.AcceptsRoleOverride now user target roleId permissions server text role ∧
      db' = db.setChannelRolePermission target roleId permissions.toField

theorem setRolePermissions_text (stored : db.channels.find target = some (.textChannel text)) :
    Outcome (setRolePermissions voice now user target roleId permissions) db
      (db.WritesRoleOverride now user target roleId permissions) := by
  have failed : ∀ e, db.WritesRoleOverride now user target roleId permissions (.error e) db :=
    fun e => .inl ⟨rfl, e, rfl⟩
  have named : (textChannel text).id = target := key_of_find stored
  rw [setRolePermissions]
  apply Outcome.find_bind _ failed
  intro channel found
  cases stored.symm.trans found
  cases located : db.servers.find text.server with
  | none =>
    apply Outcome.ask_bind (MongoDb.channelQuery_run_unlocated located wipeUnlessViewable)
    apply Outcome.lift_bind _ failed
    intro _ _
    exact failed _
  | some server =>
    apply Outcome.ask_bind (MongoDb.channelQuery_run located wipeUnlessViewable)
    apply Outcome.lift_bind _ failed
    intro _ manages
    cases privileged : user.privileged with
    | true =>
      have unknown := @MongoDb.channelQuery_after_privileged db now user (.textChannel text)
        privileged server
      rw [unknown]
      exact failed _
    | false =>
      obtain ⟨known, ranked⟩ := @MongoDb.channelQuery_after db now user (.textChannel text)
        privileged server
      rw [known]
      dsimp only
      cases found : server.roles.lookup roleId with
      | none => exact failed _
      | some role =>
        apply Outcome.memberRank_bind known
        rw [ranked]
        apply Outcome.elevated_bind _ (failed _)
        intro below
        apply Outcome.lift_bind _ failed
        intro _ granted
        have accepts : db.AcceptsRoleOverride now user target roleId permissions server text
            role :=
          { channelStored := stored
            serverStored := located
            found := found
            manages := PermissionValue.throwIfLackingChannelPermission_ok manages
            below := below
            granted := granted }
        apply Outcome.succeeds_bind (setRolePermission_outcome permissions.toField)
        rintro newChannel _ rfl
        apply Outcome.of_readOnly (.read fun _ => readOnly_pure _)
        intro _
        refine .inr ⟨server, text, role, accepts, ?_⟩
        rw [← named]
        rfl

/-- What the route can do to the store. -/
theorem setRolePermissions_outcome (permissions : Override) :
    Outcome (setRolePermissions voice now user target roleId permissions) db
      (db.WritesRoleOverride now user target roleId permissions) := by
  cases stored : db.channels.find target with
  | none =>
    rw [setRolePermissions]
    apply Outcome.fetch_bind _ fun e => .inl ⟨rfl, e, rfl⟩
    intro channel fetched
    rw [MongoDb.fetchChannel, stored] at fetched
    cases fetched
  | some channel =>
    cases channel with
    | textChannel text => exact setRolePermissions_text stored
    | savedMessages _ | directMessage _
    | group _ => exact .inl (setRolePermissions_other stored (by rintro _ ⟨⟩))

/-- What the default route wrote: the permissions of a group, unchecked, or the
default override of a server channel that the editor may go to from the current
one. -/
inductive MongoDb.WritesDefault (db : MongoDb) (now : Timestamp) (user : User) (target : String)
    (db' : MongoDb) : DataDefaultChannelPermissions → Prop
  | group (group : Group) (permissions : UInt64)
      (changed : db.ChangesChannel db' target (.group group)
        (.group { group with permissions := some permissions.toInt64 })) :
      WritesDefault db now user target db' (.value permissions)
  | text (text : TextChannel) (permissions : Override) (held : PermissionValue)
      (calculated : db.CalculatesChannel now user (.textChannel text) held)
      (granted : held.throwPermissionOverride
        (text.defaultPermissions.map OverrideField.toOverride) permissions = .ok ())
      (changed : db.ChangesChannel db' target (.textChannel text)
        (.textChannel (text.withDefaultPermissions permissions.toField))) :
      WritesDefault db now user target db' (.field permissions)

theorem Channel.update_outcome (stored : db.channels.find target = some channel) :
    Outcome (channel.update data remove) db fun r db' =>
      (db' = db ∧ ∃ e, r = .error e) ∨
        db.ChangesChannel db' target channel (channel.updated data remove) := by
  have named : channel.id = target := key_of_find stored
  apply Outcome.update_bind _ fun e => .inl ⟨rfl, e, rfl⟩
  intro db' written
  rw [named] at written
  exact .inr (MongoDb.updateChannel_changes stored written)

theorem writeDefaultPermissions_outcome {held : PermissionValue}
    (stored : db.channels.find target = some channel)
    (calculated : db.CalculatesChannel now user channel held)
    (data : DataDefaultChannelPermissions) :
    Outcome (writeDefaultPermissions held data channel) db fun r db' =>
      (db' = db ∧ ∃ e, r = .error e) ∨ db.WritesDefault now user target db' data := by
  cases channel with
  | savedMessages _ | directMessage _ => cases data <;> exact .inl ⟨rfl, _, rfl⟩
  | group group =>
    cases data with
    | field permissions => exact .inl ⟨rfl, _, rfl⟩
    | value permissions =>
      have updated : (Channel.group group).updated
          { permissions := some permissions.toInt64 } [] =
          .group { group with permissions := some permissions.toInt64 } := rfl
      rcases update_outcome stored with failed | changed
      · exact .inl failed
      · rw [updated] at changed
        exact .inr (.group group permissions changed)
  | textChannel text =>
    cases data with
    | value permissions => exact .inl ⟨rfl, _, rfl⟩
    | field permissions =>
      have updated : (textChannel text).updated
          { defaultPermissions := some permissions.toField } [] =
          .textChannel (text.withDefaultPermissions permissions.toField) := rfl
      apply Outcome.lift_bind _ fun e => .inl ⟨rfl, e, rfl⟩
      intro _ granted
      rcases update_outcome stored with failed | changed
      · exact .inl failed
      · rw [updated] at changed
        exact .inr (.text text permissions held calculated granted changed)

theorem fetchChannelServer_readOnly (channel : Channel) :
    ReadOnly (fetchChannelServer channel) := by
  rw [fetchChannelServer]
  cases channel.server with
  | some serverId => exact .read fun _ => readOnly_pure _
  | none => exact readOnly_pure _

/-- What the default route can do to the store. -/
theorem setDefaultChannelPermissions_outcome (data : DataDefaultChannelPermissions) :
    Outcome (setDefaultChannelPermissions voice now user target data) db fun r db' =>
      (db' = db ∧ ∃ e, r = .error e) ∨ db.WritesDefault now user target db' data := by
  rw [setDefaultChannelPermissions]
  apply Outcome.find_bind _ fun e => .inl ⟨rfl, e, rfl⟩
  intro channel stored
  apply Outcome.ask_any_bind _ fun e => .inl ⟨rfl, e, rfl⟩
  intro held final ran
  apply Outcome.lift_bind _ fun e => .inl ⟨rfl, e, rfl⟩
  intro _ _
  apply Outcome.bind (writeDefaultPermissions_outcome stored ⟨final, ran⟩ data)
  · rintro written db' (⟨_, e, failed⟩ | writes)
    · cases failed
    · apply Outcome.of_readOnly
      · exact (fetchChannelServer_readOnly written).bind fun _ =>
          .read fun _ => readOnly_pure _
      · intro _
        exact .inr writes
  · rintro e db' (⟨same, _⟩ | writes)
    · exact .inl ⟨same, e, rfl⟩
    · exact .inr writes

end Specifications

end Company
