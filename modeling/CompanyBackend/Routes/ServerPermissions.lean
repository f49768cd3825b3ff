import CompanyBackend.Permissions.Bulk
import CompanyBackend.Routes.Basic

/-!
# Server permission edits

The two routes that edit permissions on a server: the override of one role and the
default value. Both check that the editor could grant what the edit adds.

An edit replaces one layer in the stack of every member. The check bounds that layer
by the old one on all bits the editor lacks, and resolving a stack is monotone, so no
member gains such a bit, wherever the layer stands among the others.

A server is decoded anew by every request, and its roles may then iterate in another order.
With distinct ranks the order does not matter. Roles of one rank are applied in the order of
iteration, so that a member who holds two of them may have a bit at one time and not at another.
-/

namespace Company

open Request LayerStack Outcome Collection MongoDb Route

/-- Update a role of a server, in the store and in the snapshot. -/
def Role.update (role : Role) (serverId : String) (data : PartialRole) (remove : List FieldsRole)
    (sameId : data.id = none) : Route Role := do
  Route.update fun db => db.updateRole serverId role.id data remove sameId
  return role.updated data remove

/-- Replace the override of a role, in the store and in the snapshot. -/
def Server.setRolePermission (server : Server) (roleId : String) (permissions : OverrideField) :
    Route Server :=
  match server.roles.lookup roleId with
  | some role => do
    let role ← role.update server.id { permissions := some permissions } [] rfl
    return { server with roles := server.roles.modify roleId fun _ => role }
  | none => .fail (.error .notFound)

/-- Update a server, in the store and in the snapshot. -/
def Server.update (server : Server) (data : PartialServer) (remove : List FieldsServer)
    (keyed : ∀ roles ∈ data.roles, RolesKeyed roles) : Route Server := do
  Route.update fun db => db.updateServer server.id data remove keyed
  return (remove.foldl removeField server).applyOptions data

variable (voice : VoiceClient) (now : Timestamp) (user : User)

/-- `PUT /servers/<target>/permissions/<role_id>` -/
def setRolePermission (target roleId : String) (permissions : Override) : Route Server := do
  let server ← fetch fun db => db.fetchServer target
  let role ← lift (orNotFound (server.roles.lookup roleId))
  let (value, query) ← ask (fun db => (DatabasePermissionQuery.new db now user).withServer server)
    PermissionQuery.calculateServerPermissions
  lift (value.throwIfLackingChannelPermission .managePermissions)
  -- Prevent us from editing roles above us.
  let rank ← memberRank query
  ensure (!decide (role.rank ≤ rank)) (.error .notElevated)
  -- Ensure we have access to grant these permissions forwards.
  lift (value.throwPermissionOverride (some role.permissions.toOverride) permissions)
  let server ← server.setRolePermission roleId permissions.toField
  syncChannels voice server (some roleId)
  return server

/-- `PUT /servers/<target>/permissions/default` -/
def setDefaultServerPermissions (target : String) (permissions : UInt64) : Route Server := do
  let server ← fetch fun db => db.fetchServer target
  let (value, _) ← ask (fun db => (DatabasePermissionQuery.new db now user).withServer server)
    PermissionQuery.calculateServerPermissions
  lift (value.throwIfLackingChannelPermission .managePermissions)
  -- Ensure we have permissions to grant these permissions forwards.
  lift (value.throwPermissionOverride none { allow := permissions, deny := 0 })
  let server ← server.update { defaultPermissions := some permissions.toInt64 } [] (by simp)
  syncChannels voice server none
  return server

/-- One server document was changed and nothing else. -/
structure MongoDb.ChangesServer (db db' : MongoDb) (target : String) (server server' : Server) :
    Prop where
  before : db.servers.find target = some server
  after : db'.servers.find target = some server'
  others : ∀ other, other ≠ target → db'.servers.find other = db.servers.find other
  users : db'.users = db.users
  channels : db'.channels = db.channels
  serverMembers : db'.serverMembers = db.serverMembers
  attachments : db'.attachments = db.attachments

variable {target : String} {server : Server} {db : MongoDb}

theorem MongoDb.modifyServer_changes {server' : Server}
    {f : Server → Server} {keepsId : ∀ server, (f server).id = server.id}
    {keepsKeys : ∀ server, RolesKeyed server.roles → RolesKeyed (f server).roles}
    (stored : db.servers.find target = some server) (same : f server = server') :
    db.ChangesServer (db.modifyServer target f keepsId keepsKeys) target server server' where
  before := stored
  after := by
    change (db.servers.update target f keepsId).find target = some server'
    rw [find_update, stored, ← same]
    rfl
  others := by
    intro other ne
    change (db.servers.update target f keepsId).find other = db.servers.find other
    exact find_update_ne ne
  users := rfl
  channels := rfl
  serverMembers := rfl
  attachments := rfl

variable {remove : List FieldsRole} {data : PartialRole} {roleId : String}

theorem MongoDb.updateRole_changes {db' : MongoDb} {target : String} {sameId : data.id = none}
    (stored : db.servers.find target = some server)
    (written : db.updateRole target roleId data remove sameId = .ok db') :
    db.ChangesServer db' target server
      { server with roles := server.roles.modify roleId (Role.updated data remove) } := by
  unfold updateRole at written
  split at written
  · cases written
  · cases written
    exact modifyServer_changes stored rfl

theorem MongoDb.updateServer_changes {db' : MongoDb} {data : PartialServer}
    {remove : List FieldsServer} {keyed : ∀ roles ∈ data.roles, RolesKeyed roles}
    (stored : db.servers.find target = some server)
    (written : db.updateServer target data remove keyed = .ok db') :
    db.ChangesServer db' target server (server.updated data remove) := by
  unfold updateServer at written
  split at written
  · cases written
  · cases written
    exact modifyServer_changes stored rfl

theorem MongoDb.rolesKeyed_of_find
    (stored : db.servers.find target = some server) : RolesKeyed server.roles := by
  apply db.rolesKeyed server (mem_documents.mpr _)
  rw [key_of_find stored, stored]

section Specifications

variable {voice : VoiceClient} {now : Timestamp} {user : User} {target : String}
variable {role : Role}

theorem Role.update_outcome {serverId : String} (sameId : data.id = none) :
    Outcome (role.update serverId data remove sameId) db fun r db' =>
      match r with
      | .ok role' => role' = role.updated data remove ∧
          db.updateRole serverId role.id data remove sameId = .ok db'
      | .error _ => db' = db := by
  unfold Role.update
  apply update_bind _ fun _ => rfl
  intro db' written
  exact ⟨rfl, written⟩

/-- Setting the override of a role changes it in place in the stored server. -/
theorem Server.setRolePermission_outcome (stored : db.servers.find target = some server)
    (found : server.roles.lookup roleId = some role) (permissions : OverrideField) :
    Outcome (server.setRolePermission roleId permissions) db fun r db' =>
      match r with
      | .ok _ => db.ChangesServer db' target server
          (server.withRolePermissions roleId permissions)
      | .error _ => db' = db := by
  unfold Server.setRolePermission
  rw [found]
  apply Outcome.bind (Role.update_outcome rfl)
  · rintro role' db' ⟨_, written⟩
    have sameServer : server.id = target := key_of_find stored
    have sameRole : role.id = roleId := (rolesKeyed_of_find stored).id_eq found
    rw [sameServer, sameRole] at written
    exact updateRole_changes stored written
  · intro e db' unchanged
    exact unchanged

/-- What the route can do to the store: nothing, or replace the override of a
role below the editor by one that the editor may grant. -/
theorem setRolePermission_outcome (permissions : Override) :
    Outcome (setRolePermission voice now user target roleId permissions) db fun _ db' =>
      db' = db ∨ ∃ server role,
        server.roles.lookup roleId = some role ∧
        (serverPermissions now server user (db.memberOf server user)).throwPermissionOverride
          (some role.permissions.toOverride) permissions = .ok () ∧
        db.rankOf server user < role.rank ∧
        db.ChangesServer db' target server
          (server.withRolePermissions roleId permissions.toField) := by
  unfold setRolePermission
  apply find_bind _ fun _ => .inl rfl
  intro server stored
  apply lift_bind _ fun _ => .inl rfl
  intro role looked
  have found : server.roles.lookup roleId = some role := orNotFound_eq_ok.mp looked
  apply ask_bind (db.serverQuery_run now user server)
  apply lift_bind _ fun _ => .inl rfl
  intro _ _
  apply memberRank_bind rfl
  apply elevated_bind _ (.inl rfl)
  intro above
  apply lift_bind _ fun _ => .inl rfl
  intro _ granted
  apply Outcome.bind (Server.setRolePermission_outcome stored found permissions.toField)
  · intro server' db' changed
    apply of_readOnly
    · exact (syncChannels_readOnly voice server' _).bind fun _ => readOnly_pure _
    · intro _
      exact .inr ⟨server, role, found, granted, above, changed⟩
  · intro e db' unchanged
    exact .inl unchanged

theorem Server.update_outcome {data : PartialServer} {remove : List FieldsServer}
    (keyed : ∀ roles ∈ data.roles, RolesKeyed roles) :
    Outcome (server.update data remove keyed) db fun r db' =>
      match r with
      | .ok _ => db.updateServer server.id data remove keyed = .ok db'
      | .error _ => db' = db := by
  unfold Server.update
  apply update_bind _ fun _ => rfl
  intro db' written
  exact written

/-- What the route can do to the store: nothing, or set a default value whose
bits the editor holds. -/
theorem setDefaultServerPermissions_outcome (permissions : UInt64) :
    Outcome (setDefaultServerPermissions voice now user target permissions) db fun _ db' =>
      db' = db ∨ ∃ server,
        (serverPermissions now server user (db.memberOf server user)).throwPermissionOverride
          none { allow := permissions, deny := 0 } = .ok () ∧
        db.ChangesServer db' target server
          { server with defaultPermissions := permissions.toInt64 } := by
  unfold setDefaultServerPermissions
  apply find_bind _ fun _ => .inl rfl
  intro server stored
  have sameServer : server.id = target := key_of_find stored
  apply ask_bind (db.serverQuery_run now user server)
  apply lift_bind _ fun _ => .inl rfl
  intro _ _
  apply lift_bind _ fun _ => .inl rfl
  intro _ granted
  apply Outcome.bind (Server.update_outcome _)
  · intro server' db' written
    rw [sameServer] at written
    apply of_readOnly
    · exact (syncChannels_readOnly voice server' _).bind fun _ => readOnly_pure _
    · intro _
      exact .inr ⟨server, granted, updateServer_changes stored written⟩
  · intro e db' unchanged
    exact .inl unchanged

end Specifications

/-- A request to edit permissions on a server. -/
inductive ServerPermissionEdit where
  | role (roleId : String) (permissions : Override)
  | default (permissions : UInt64)

def ServerPermissionEdit.run (target : String) : ServerPermissionEdit → Route Server
  | .role roleId permissions => setRolePermission voice now user target roleId permissions
  | .default permissions => setDefaultServerPermissions voice now user target permissions

section NoEscalation

variable {voice : VoiceClient} {now : Timestamp} {editor user : User} {target : String}
variable {db db' : MongoDb} {server server' : Server} {b : Bit}

/-- Members are found in the same place after a server document has changed. -/
theorem MongoDb.ChangesServer.memberOf (changed : db.ChangesServer db' target server server') :
    db'.memberOf server' user = db.memberOf server user := by
  have sameId : server'.id = server.id :=
    (key_of_find changed.after).trans (key_of_find changed.before).symm
  unfold MongoDb.memberOf fetchMember
  rw [sameId, changed.serverMembers]

theorem serverPermissions_bit_le (sameOwner : server'.owner = server.owner)
    (below : ∀ member, (memberServerPermissions now server' member).bit b ≤
      (memberServerPermissions now server member).bit b) (member : Option Member) :
    (serverPermissions now server' user member).bit b ≤
      (serverPermissions now server user member).bit b := by
  unfold serverPermissions User.unrestricted
  rw [sameOwner]
  split
  · exact le_refl _
  · cases member with
    | none => exact le_refl _
    | some member => exact below member

variable {held : PermissionValue}

/-- An override that `held` may grant lowers every member on the bits that
`held` lacks. -/
theorem withRolePermissions_bit_le {role : Role} {permissions : Override}
    (found : server.roles.lookup roleId = some role)
    (granted : held.throwPermissionOverride (some role.permissions.toOverride) permissions = .ok ())
    (lacking : held.bit b = false) (member : Member) :
    (memberServerPermissions now (server.withRolePermissions roleId permissions.toField) member).bit
        b ≤ (memberServerPermissions now server member).bit b := by
  have sameDefault : (server.withRolePermissions roleId permissions.toField).defaultBit b ≤
      server.defaultBit b := le_refl _
  apply memberServerPermissions_bit_le sameDefault
  · rw [Server.roleLayers_withRolePermissions, orderedLayers_replace]
  · intro l applied
    apply RoleLayer.replace_below
    intro same
    have listed := (Ranking.sortDescendingOn_perm _ _).mem_iff.mp applied
    obtain ⟨_, role', found', _, carried⟩ := Server.mem_roleLayers.mp listed
    rw [same, found] at found'
    cases found'
    unfold RoleLayer.layer
    rw [carried, Override.toField_toOverride]
    exact PermissionValue.layer_below_of_throwPermissionOverride granted lacking

/-- A default value that `held` may grant has no bit that `held` lacks. -/
theorem withDefaultPermissions_bit_le {permissions : UInt64}
    (granted : held.throwPermissionOverride none { allow := permissions, deny := 0 } = .ok ())
    (lacking : held.bit b = false) (member : Member) :
    (memberServerPermissions now { server with defaultPermissions := permissions.toInt64 }
        member).bit b ≤ (memberServerPermissions now server member).bit b := by
  have notSet : hasBit permissions b = false := by
    by_contra set
    have granting := PermissionValue.allow_of_throwPermissionOverride granted (by simpa using set)
    rw [lacking] at granting
    cases granting
  have lower : ({ server with defaultPermissions := permissions.toInt64 } : Server).defaultBit b ≤
      server.defaultBit b := by
    change hasBit permissions b ≤ _
    rw [notSet]
    exact Bool.false_le _
  exact memberServerPermissions_bit_le lower (List.map_id _).symm fun l _ => Below.refl _

/-- The edit of an override leaves the ranks as they are. -/
theorem Server.DistinctRanks.withRolePermissions {held : List String}
    (distinct : server.DistinctRanks held) (permissions : OverrideField) :
    (server.withRolePermissions roleId permissions).DistinctRanks held := by
  unfold DistinctRanks Server.withRolePermissions
  rw [HashMap.entries_modify]
  simp only [List.forall_mem_map]
  intro e listed e' listed'
  have kept := distinct e listed e' listed'
  grind

/-- On the bits that the editor lacks, an accepted edit lowers everyone. -/
theorem serverPermissionEdit_outcome (edit : ServerPermissionEdit) :
    Outcome (edit.run voice now editor target) db fun _ db' =>
      db' = db ∨ ∃ server server', db.ChangesServer db' target server server' ∧
        (∀ b, (serverPermissions now server editor (db.memberOf server editor)).bit b = false →
          ∀ user member, (serverPermissions now server' user member).bit b ≤
            (serverPermissions now server user member).bit b) ∧
        ∀ held, server.DistinctRanks held → server'.DistinctRanks held := by
  apply Outcome.intro
  intro result db' ran
  cases edit with
  | role roleId permissions =>
    rcases (setRolePermission_outcome permissions).elim ran with
      unchanged | ⟨server, role, found, granted, _, changed⟩
    · exact .inl unchanged
    · refine .inr ⟨server, _, changed, ?_, fun _ distinct => distinct.withRolePermissions _⟩
      intro b lacking user member
      refine serverPermissions_bit_le ?_ ?_ member
      · rfl
      · exact withRolePermissions_bit_le found granted lacking
  | default permissions =>
    rcases (setDefaultServerPermissions_outcome permissions).elim ran with
      unchanged | ⟨server, granted, changed⟩
    · exact .inl unchanged
    · refine .inr ⟨server, _, changed, ?_, fun _ distinct => distinct⟩
      intro b lacking user member
      refine serverPermissions_bit_le ?_ ?_ member
      · rfl
      · exact withDefaultPermissions_bit_le granted lacking

/-- With distinct ranks a calculation does not depend on the order in which the
roles of the server that it was given iterate. -/
theorem MongoDb.calculatesServer_reiterated (distinct : ∀ held, server.DistinctRanks held)
    (same : server'.Reiterates server) {value : PermissionValue} :
    db.CalculatesServer now user server' value ↔ db.CalculatesServer now user server value := by
  have known : db.memberOf server' user = db.memberOf server user := by
    rw [same.1]
    rfl
  rw [calculatesServer_iff, calculatesServer_iff, known,
    serverPermissions_reiterated distinct same]

/-- If the roles of a server have distinct ranks, no edit of its permissions
gives anyone a bit that the editor did not have, in whatever order the roles are
iterated before the edit, after it and when the editor's own permissions are
calculated. -/
theorem serverPermissionEdit_noEscalation {edit : ServerPermissionEdit}
    {result : Except Failure Server} (ran : edit.run voice now editor target db = (result, db'))
    (before : db.servers.find target = some server) (after : db'.servers.find target = some server')
    (distinct : server.DistinctRanks server.roles.keys) {oldServer newServer heldServer : Server}
    (oldOrder : oldServer.Reiterates server) (newOrder : newServer.Reiterates server')
    (heldOrder : heldServer.Reiterates server)
    {old new held : PermissionValue} (oldValue : db.CalculatesServer now user oldServer old)
    (newValue : db'.CalculatesServer now user newServer new)
    (heldValue : db.CalculatesServer now editor heldServer held) (gained : new.bit b)
    (lacked : old.bit b = false) : held.bit b := by
  rw [calculatesServer_reiterated distinct.among oldOrder, calculatesServer_iff] at oldValue
  rw [calculatesServer_reiterated distinct.among heldOrder, calculatesServer_iff] at heldValue
  subst oldValue heldValue
  rcases (serverPermissionEdit_outcome edit).elim ran with rfl | ⟨_, _, changed, lowers, ranks⟩
  · cases before.symm.trans after
    rw [calculatesServer_reiterated distinct.among newOrder, calculatesServer_iff] at newValue
    rw [← newValue, gained] at lacked
    cases lacked
  · cases before.symm.trans changed.before
    cases after.symm.trans changed.after
    rw [calculatesServer_reiterated (fun held => ranks held (distinct.among held)) newOrder,
      calculatesServer_iff, changed.memberOf] at newValue
    by_contra lacking
    have lowered := lowers b (by simpa using lacking) user (db.memberOf server user)
    rw [← newValue, gained, lacked] at lowered
    cases lowered rfl

end NoEscalation

/-- Staff let guests kick members, a permission they hold themselves. -/
def sampleEdit : ServerPermissionEdit :=
  .role "guest" { allow := ChannelPermission.kickMembers.toU64, deny := 0 }

def sampleEditedServer : Server :=
  sampleServer.withRolePermissions "guest"
    { a := ChannelPermission.kickMembers.toU64.toInt64, d := 0 }

theorem serverPermissionEdit_noEscalation_sample :
    (serverPermissions 0 sampleServer staffUser
      (sampleStore.memberOf sampleServer staffUser)).bit 6 :=
  serverPermissionEdit_noEscalation
    (rfl : sampleEdit.run .disabled 0 staffUser "server" sampleStore = (_, _))
    (rfl : _ = some sampleServer) (rfl : _ = some sampleEditedServer) (by decide)
    (⟨rfl, by decide⟩ : BulkDatabasePermissionQuery.shuffledServer.Reiterates sampleServer)
    ⟨rfl, .refl _⟩ ⟨rfl, .refl _⟩
    (calculatesServer_iff.mpr rfl : sampleStore.CalculatesServer 0 guestUser
      BulkDatabasePermissionQuery.shuffledServer _)
    (calculatesServer_iff.mpr rfl) (calculatesServer_iff.mpr rfl)
    (by decide) (by decide)

/-- Two roles of one rank, one that forbids its members to ban and one that
allows it. -/
def tiedRoles : List (String × Role) :=
  [("staff", { staffRole with
      rank := 5
      permissions.d := ChannelPermission.banMembers.toU64.toInt64 }),
    ("guest", { guestRole with
      permissions := { a := ChannelPermission.banMembers.toU64.toInt64, d := 0 } })]

/-- The server with these roles, as they iterate for one request. -/
def tiedServer (roles : List (String × Role)) : Server :=
  { sampleServer with roles := HashMap.ofPairs roles }

def tiedStore : MongoDb :=
  { sampleStore with
    servers := .ofDocuments [tiedServer tiedRoles]
    serverMembers := .ofDocuments [.ofMember staffMember, .ofMember sampleMember]
    rolesKeyed := by decide }

/-- A staff member sets the default permissions to what they are. A member who
holds both roles could not ban before, can do so after, and the staff member
cannot. -/
theorem tied_roles_escalate :
    (tiedServer tiedRoles.reverse).Reiterates (tiedServer tiedRoles) ∧
    (∃ result, (ServerPermissionEdit.default DEFAULT_PERMISSION_SERVER).run .disabled 0 staffUser
      "server" tiedStore = (.ok result, tiedStore)) ∧
    ∃ old new held, tiedStore.CalculatesServer 0 sampleUser (tiedServer tiedRoles) old ∧
      tiedStore.CalculatesServer 0 sampleUser (tiedServer tiedRoles.reverse) new ∧
      tiedStore.CalculatesServer 0 staffUser (tiedServer tiedRoles) held ∧
      old.bit 7 = false ∧ new.bit 7 ∧ held.bit 7 = false := by
  refine ⟨⟨rfl, List.Perm.swap _ _ _⟩, ⟨_, rfl⟩, _, _, _, calculatesServer_iff.mpr rfl,
    calculatesServer_iff.mpr rfl, calculatesServer_iff.mpr rfl, ?_, ?_, ?_⟩ <;> decide +kernel

end Company
