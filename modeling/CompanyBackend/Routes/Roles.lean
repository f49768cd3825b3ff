import CompanyBackend.Routes.ChannelPermissions
import CompanyBackend.Routes.ServerPermissions
import Mathlib.Order.Bounds.Basic

/-!
# Roles and the role hierarchy

The routes that edit and delete a role. Together with the two routes that set the
permissions of a role they are guarded by rank: the role has to be below the actor.

Each of the four requests touches one role, on its server and in the channels of that
server. A role that is not below the actor is therefore left as it was, wherever it has
an override.
-/

namespace Company

open Request Outcome Route

/-- The ranks of the held roles that exist on the server. -/
def Server.heldRanks (server : Server) (held : List String) : Set Int64 :=
  { rank | ∃ id ∈ held, ∃ role, server.roles.lookup id = some role ∧ role.rank = rank }

variable {server : Server}

section Ranking

variable {held : List String}

theorem Server.heldRanks_cons (id : String) :
    server.heldRanks (id :: held) =
      { rank | ∃ role, server.roles.lookup id = some role ∧ role.rank = rank } ∪
        server.heldRanks held := by
  ext rank
  simp [heldRanks]

/-- The loop of `get_ranking` finds the smallest of the held ranks and the start
value. -/
theorem foldl_betterRank_isLeast (held : List String) (value : Int64) :
    IsLeast (insert value (server.heldRanks held))
      (held.foldl (Member.betterRank server) value) := by
  induction held generalizing value with
  | nil =>
    refine ⟨.inl rfl, ?_⟩
    rintro rank (rfl | ⟨_, ⟨⟩, _⟩)
    exact le_refl _
  | cons id held ih =>
    rw [List.foldl_cons, Server.heldRanks_cons, Member.betterRank]
    cases found : server.roles.lookup id with
    | none => simpa using ih value
    | some role =>
      have single : { rank | ∃ role', some role = some role' ∧ role'.rank = rank } =
          {role.rank} := by
        ext rank
        simp [eq_comm]
      rw [single, Set.singleton_union]
      dsimp only
      split
      · next better =>
        -- The new rank takes the place of the start value.
        have least := ih role.rank
        have below := least.2 (Set.mem_insert _ _)
        have extended := least.insert value
        rwa [min_eq_right (below.trans (le_of_lt better))] at extended
      · next worse =>
        have least := ih value
        have below := least.2 (Set.mem_insert _ _)
        have extended := least.insert role.rank
        rwa [min_eq_right (below.trans (not_lt.mp worse)), Set.insert_comm] at extended

theorem Member.getRanking_isLeast (member : Member) (server : Server) :
    IsLeast (insert Int64.maxValue (server.heldRanks member.roles)) (member.getRanking server) :=
  foldl_betterRank_isLeast member.roles Int64.maxValue

/-- A member who holds a role is ranked by the best one. -/
theorem Member.getRanking_eq {member : Member} {best : Int64}
    (least : IsLeast (server.heldRanks member.roles) best) : member.getRanking server = best := by
  have extended := least.insert Int64.maxValue
  rw [min_eq_right (Int64.le_maxValue best)] at extended
  exact (member.getRanking_isLeast server).unique extended

end Ranking

structure DataEditRole where
  name : Option String := none
  colour : Option String := none
  hoist : Option Bool := none
  /-- Has no effect. -/
  rank : Option Int64 := none
  remove : List FieldsRole := []
  deriving DecidableEq, Repr

/-- Validation of the payload; `isColour` is the regular expression for
colours. -/
def DataEditRole.valid (isColour : String → Bool) (data : DataEditRole) : Bool :=
  lengthWithin 1 32 data.name && lengthWithin 1 128 data.colour && data.colour.all isColour

structure RoleValidator where
  isColour : String → Bool
  describe : DataEditRole → String

variable (validator : RoleValidator) (voice : VoiceClient) (now : Timestamp) (user : User)

/-- `PATCH /servers/<target>/roles/<role_id>` -/
def editRole (target roleId : String) (data : DataEditRole) : Route Role := do
  ensure (data.valid validator.isColour) (.error (.failedValidation (validator.describe data)))
  let server ← fetch fun db => db.fetchServer target
  let (value, query) ← ask
    (fun db => (DatabasePermissionQuery.new db now user).withServer server)
    PermissionQuery.calculateServerPermissions
  lift (value.throwIfLackingChannelPermission .manageRole)
  let rank ← memberRank query
  -- The role is taken out of the snapshot of the server.
  match server.roles.lookup roleId with
  | some role =>
    let server := { server with roles := server.roles.erase roleId }
    -- Prevent us from editing roles above us.
    ensure (!decide (role.rank ≤ rank)) (.error .notElevated)
    let role ← role.update server.id
      { name := data.name, colour := data.colour, hoist := data.hoist } data.remove rfl
    syncChannels voice server (some roleId)
    return role
  | none => fail (.error .notFound)

/-- `DELETE /servers/<target>/roles/<role_id>` -/
def deleteRole (voice : VoiceClient) (now : Timestamp) (user : User) (target roleId : String) :
    Route Unit := do
  let server ← fetch fun db => db.fetchServer target
  let (value, query) ← ask
    (fun db => (DatabasePermissionQuery.new db now user).withServer server)
    PermissionQuery.calculateServerPermissions
  lift (value.throwIfLackingChannelPermission .manageRole)
  let rank ← memberRank query
  let role ← lift (orNotFound (server.roles.lookup roleId))
  let server := { server with roles := server.roles.erase roleId }
  ensure (!decide (role.rank ≤ rank)) (.error .notElevated)
  update fun db => .ok (db.deleteRole server.id role.id)
  syncChannels voice server (some roleId)

inductive RoleRequest where
  | edit (target roleId : String) (data : DataEditRole)
  | delete (target roleId : String)
  | setPermission (target roleId : String) (permissions : Override)
  | setChannelPermission (channel roleId : String) (permissions : Override)

/-- The result of a request is not looked at. -/
def RoleRequest.run : RoleRequest → Route Unit
  | edit target roleId data => do
    let _ ← editRole validator voice now user target roleId data
  | delete target roleId => deleteRole voice now user target roleId
  | setPermission target roleId permissions => do
    let _ ← Company.setRolePermission voice now user target roleId permissions
  | setChannelPermission channel roleId permissions => do
    let _ ← setRolePermissions voice now user channel roleId permissions

/-- One role of one server may differ, on the server and in its channels. -/
structure MongoDb.TouchesRole (db db' : MongoDb) (target roleId : String) : Prop where
  servers : ∀ id server, db.servers.find id = some server →
    ∃ server', db'.servers.find id = some server' ∧
      ∀ other, (id = target → other ≠ roleId) →
        server'.roles.lookup other = server.roles.lookup other
  channels : ∀ id text, db.channels.find id = some (.textChannel text) →
    ∃ text', db'.channels.find id = some (.textChannel text') ∧
      ∀ other, (text.server = target → other ≠ roleId) →
        text'.rolePermissions.lookup other = text.rolePermissions.lookup other

/-- The role is stored and below the user. -/
def MongoDb.RoleBelow (db : MongoDb) (user : User) (target roleId : String) : Prop :=
  ∃ server role, db.servers.find target = some server ∧ server.roles.lookup roleId = some role ∧
    db.rankOf server user < role.rank

section Touches

variable {db db' : MongoDb} {target roleId : String} {server' : Server}

theorem MongoDb.ChangesServer.touchesRole (changed : db.ChangesServer db' target server server')
    (same : ∀ other, other ≠ roleId → server'.roles.lookup other = server.roles.lookup other) :
    db.TouchesRole db' target roleId where
  servers := by
    intro id stored found
    by_cases this : id = target
    · subst this
      cases found.symm.trans changed.before
      exact ⟨server', changed.after, fun other ne => same other (ne rfl)⟩
    · rw [← changed.others id this] at found
      exact ⟨stored, found, fun _ _ => rfl⟩
  channels := by
    intro id text found
    rw [← changed.channels] at found
    exact ⟨text, found, fun _ _ => rfl⟩

theorem MongoDb.setChannelRolePermission_touchesRole {channel : String} {text : TextChannel}
    (stored : db.channels.find channel = some (.textChannel text)) (permissions : OverrideField) :
    db.TouchesRole (db.setChannelRolePermission channel roleId permissions) text.server roleId where
  servers _ server found := ⟨server, found, fun _ _ => rfl⟩
  channels := by
    have changed := MongoDb.setChannelRolePermission_changes stored roleId permissions
    intro id text' found
    by_cases this : id = channel
    · subst this
      cases found.symm.trans stored
      refine ⟨_, changed.after, ?_⟩
      intro other ne
      exact HashMap.lookup_put_ne _ (ne rfl) _
    · rw [← changed.others id this] at found
      exact ⟨text', found, fun _ _ => rfl⟩

/-- Deleting a role drops it from its server and from one of the server's
channels. -/
theorem MongoDb.deleteRole_touchesRole (db : MongoDb) (target roleId : String) :
    db.TouchesRole (db.deleteRole target roleId) target roleId where
  servers := by
    intro id server found
    by_cases this : id = target
    · subst this
      refine ⟨{ server with roles := server.roles.erase roleId }, ?_, ?_⟩
      · rw [find_deleteRole_server, found, Option.map_some]
      · intro other ne
        exact AList.lookup_erase_ne (ne rfl)
    · refine ⟨server, ?_, fun _ _ => rfl⟩
      rw [find_deleteRole_server_ne db this, found]
  channels := by
    intro id text found
    rw [find_deleteRole_channel, found, Option.map_some]
    split
    · next first =>
      refine ⟨_, rfl, ?_⟩
      intro other ne
      have ofServer := List.find?_some ((Collection.find?_documents_key found).mp first)
      exact AList.lookup_erase_ne (ne (Option.some.inj (beq_iff_eq.mp ofServer)))
    · exact ⟨text, rfl, fun _ _ => rfl⟩

end Touches

section Hierarchy

variable {validator : RoleValidator} {voice : VoiceClient} {now : Timestamp} {user : User}
variable {db db' : MongoDb} {target roleId : String}

/-- The store was left alone, or a role below the user was touched. -/
def MongoDb.TouchesRoleBelow (db : MongoDb) (user : User) (db' : MongoDb) : Prop :=
  db' = db ∨ ∃ target roleId, db.RoleBelow user target roleId ∧ db.TouchesRole db' target roleId

/-- A role is edited only if it is below the user. -/
theorem editRole_changes (data : DataEditRole) :
    Outcome (editRole validator voice now user target roleId data) db fun _ db' =>
      db' = db ∨ db.RoleBelow user target roleId ∧
        ∃ server, db.ChangesServer db' target server
          { server with
            roles := server.roles.modify roleId (Role.updated
              { name := data.name, colour := data.colour, hoist := data.hoist } data.remove) } := by
  rw [editRole]
  apply ensure_bind _ fun _ => .inl rfl
  intro _
  apply find_bind _ fun _ => .inl rfl
  intro server stored
  apply ask_bind (db.serverQuery_run now user server)
  apply lift_bind _ fun _ => .inl rfl
  intro _ _
  apply memberRank_bind rfl
  cases found : server.roles.lookup roleId with
  | none => exact .inl rfl
  | some role =>
    apply elevated_bind _ (.inl rfl)
    intro below
    apply Outcome.bind (Role.update_outcome rfl)
    · rintro role' db' ⟨_, written⟩
      have sameServer : server.id = target := Collection.key_of_find stored
      have sameRole : role.id = roleId := (MongoDb.rolesKeyed_of_find stored).id_eq found
      rw [sameServer, sameRole] at written
      apply of_readOnly
      · exact (syncChannels_readOnly voice _ _).bind fun _ => readOnly_pure _
      · intro _
        exact .inr ⟨⟨server, role, stored, found, below⟩, server,
          MongoDb.updateRole_changes stored written⟩
    · intro e db' unchanged
      exact .inl unchanged

theorem editRole_outcome (data : DataEditRole) :
    Outcome (editRole validator voice now user target roleId data) db fun _ db' =>
      db.TouchesRoleBelow user db' := by
  obtain unchanged | ⟨below, server, changed⟩ := editRole_changes data
  · exact .inl unchanged
  · refine .inr ⟨target, roleId, below, ?_⟩
    apply changed.touchesRole
    intro other ne
    exact HashMap.lookup_modify_ne server.roles ne _

/-- A role is deleted only if it is below the user. -/
theorem deleteRole_deletes :
    Outcome (deleteRole voice now user target roleId) db fun _ db' =>
      db' = db ∨ db.RoleBelow user target roleId ∧ db' = db.deleteRole target roleId := by
  rw [deleteRole]
  apply find_bind _ fun _ => .inl rfl
  intro server stored
  apply ask_bind (db.serverQuery_run now user server)
  apply lift_bind _ fun _ => .inl rfl
  intro _ _
  apply memberRank_bind rfl
  apply lift_bind _ fun _ => .inl rfl
  intro role looked
  have found : server.roles.lookup roleId = some role := orNotFound_eq_ok.mp looked
  apply elevated_bind _ (.inl rfl)
  intro below
  apply update_bind _ fun _ => .inl rfl
  intro db' written
  have sameServer : server.id = target := Collection.key_of_find stored
  have sameRole : role.id = roleId := (MongoDb.rolesKeyed_of_find stored).id_eq found
  have deleted : db' = db.deleteRole target roleId := by
    rw [← sameServer, ← sameRole]
    exact (Except.ok.inj written).symm
  apply of_readOnly (syncChannels_readOnly voice _ _)
  intro _
  exact .inr ⟨⟨server, role, stored, found, below⟩, deleted⟩

theorem deleteRole_outcome :
    Outcome (deleteRole voice now user target roleId) db fun _ db' =>
      db.TouchesRoleBelow user db' := by
  obtain unchanged | ⟨below, deleted⟩ := deleteRole_deletes
  · exact .inl unchanged
  · refine .inr ⟨target, roleId, below, ?_⟩
    rw [deleted]
    exact db.deleteRole_touchesRole target roleId

/-- Dropping the result of a route does not change what it does to the store. -/
theorem Outcome.discard {α : Type} {x : Route α} {P : MongoDb → Prop}
    (outcome : Outcome x db fun _ db' => P db') : Outcome (do let _ ← x) db fun _ db' => P db' := by
  apply Outcome.bind outcome
  · intro _ db' held
    exact held
  · intro _ db' held
    exact held

/-- Every request about a role touches a role below the user, or none. -/
theorem RoleRequest.run_outcome (request : RoleRequest) :
    Outcome (request.run validator voice now user) db fun _ db' =>
      db.TouchesRoleBelow user db' := by
  cases request with
  | edit target roleId data => exact Outcome.discard (editRole_outcome data)
  | delete target roleId => exact deleteRole_outcome
  | setPermission target roleId permissions =>
    apply Outcome.discard
    rcases setRolePermission_outcome permissions with
      unchanged | ⟨server, role, found, _, below, changed⟩
    · exact .inl unchanged
    · refine .inr ⟨target, roleId, ⟨server, role, changed.before, found, below⟩, ?_⟩
      apply changed.touchesRole
      intro other ne
      exact HashMap.lookup_modify_ne server.roles ne _
  | setChannelPermission channel roleId permissions =>
    apply Outcome.discard
    rcases setRolePermissions_outcome permissions with
      ⟨unchanged, _⟩ | ⟨server, text, role, accepts, written⟩
    · exact .inl unchanged
    · refine .inr ⟨text.server, roleId,
        ⟨server, role, accepts.serverStored, accepts.found, accepts.below⟩, ?_⟩
      rw [written]
      exact MongoDb.setChannelRolePermission_touchesRole accepts.channelStored _

/-- The role is as it was: its record on the server, and its override in every
channel. -/
structure MongoDb.KeepsRole (db db' : MongoDb) (server : Server) (roleId : String) : Prop where
  record : ∃ server', db'.servers.find server.id = some server' ∧
    server'.roles.lookup roleId = server.roles.lookup roleId
  overrides : ∀ id text, db.channels.find id = some (.textChannel text) → text.server = server.id →
    ∃ text', db'.channels.find id = some (.textChannel text') ∧
      text'.rolePermissions.lookup roleId = text.rolePermissions.lookup roleId

theorem MongoDb.KeepsRole.refl (stored : db.servers.find server.id = some server)
    (roleId : String) : db.KeepsRole db server roleId where
  record := ⟨server, stored, rfl⟩
  overrides _ text found _ := ⟨text, found, rfl⟩

theorem MongoDb.TouchesRole.keepsRole {other : String}
    (touches : db.TouchesRole db' target roleId) (stored : db.servers.find server.id = some server)
    (another : server.id = target → other ≠ roleId) : db.KeepsRole db' server other where
  record := by
    obtain ⟨server', found, same⟩ := touches.servers server.id server stored
    exact ⟨server', found, same other another⟩
  overrides := by
    intro id text found ofServer
    obtain ⟨text', found', same⟩ := touches.channels id text found
    exact ⟨text', found', same other fun sameTarget => another (ofServer ▸ sameTarget)⟩

/-- No request of a member changes a role whose rank is at most the member's
best one. -/
theorem roleRequest_keeps_higher_roles {request : RoleRequest} {result : Except Failure Unit}
    {server : Server} {member : Member} {best : Int64} {role : Role}
    (ran : request.run validator voice now user db = (result, db'))
    (stored : db.servers.find server.id = some server)
    (joined : db.memberOf server user = some member) (restricted : user.unrestricted server = false)
    (least : IsLeast (server.heldRanks member.roles) best)
    (found : server.roles.lookup roleId = some role) (high : role.rank ≤ best) :
    db.KeepsRole db' server roleId := by
  have ranked : db.rankOf server user = best := by
    rw [MongoDb.rankOf, restricted, joined, ← Member.getRanking_eq least]
    rfl
  rcases request.run_outcome.elim ran with rfl | ⟨target, touched, below, touches⟩
  · exact .refl stored roleId
  · apply touches.keepsRole stored
    rintro rfl rfl
    -- The guard of the touched role contradicts its rank.
    obtain ⟨server', role', stored', found', guarded⟩ := below
    cases stored.symm.trans stored'
    cases found.symm.trans found'
    rw [ranked] at guarded
    exact absurd high (not_le.mpr guarded)

end Hierarchy

def dualMember : Member := { staffMember with roles := ["staff", "guest"] }

def dualStore : MongoDb :=
  { sampleStore with serverMembers := .ofDocuments [.ofMember dualMember] }

def RoleValidator.permissive : RoleValidator where
  isColour _ := true
  describe _ := ""

def renameGuest : RoleRequest := .edit "server" "guest" { name := some "visitor" }

theorem roleRequest_keeps_higher_roles_sample :
    dualStore.KeepsRole (renameGuest.run .permissive .disabled 0 staffUser dualStore).2
      sampleServer "staff" := by
  have best : IsLeast (sampleServer.heldRanks dualMember.roles) 1 := by
    refine ⟨⟨"staff", by decide, staffRole, rfl, rfl⟩, ?_⟩
    rintro rank ⟨id, holds, role, found, rfl⟩
    fin_cases holds <;> cases found <;> decide
  have ran : renameGuest.run .permissive .disabled 0 staffUser dualStore =
      (.ok (), (renameGuest.run .permissive .disabled 0 staffUser dualStore).2) := rfl
  have joined : dualStore.memberOf sampleServer staffUser = some dualMember := rfl
  have found : sampleServer.roles.lookup "staff" = some staffRole := rfl
  exact roleRequest_keeps_higher_roles ran rfl joined rfl best found (by decide)

/-- A member holds two roles and renames the one that is below the other: a held
role that is not the best one can be changed. -/
theorem held_role_renamed :
    ¬ ∀ (request : RoleRequest) (user : User) (server : Server) (member : Member)
        (db db' : MongoDb) (roleId : String),
      request.run .permissive .disabled 0 user db = (.ok (), db') →
      db.servers.find server.id = some server → db.memberOf server user = some member →
      user.unrestricted server = false → roleId ∈ member.roles →
      db.KeepsRole db' server roleId := by
  intro kept
  have guestKept := kept renameGuest staffUser sampleServer dualMember dualStore
    (renameGuest.run .permissive .disabled 0 staffUser dualStore).2 "guest" rfl rfl rfl rfl
    (by decide)
  obtain ⟨server', found, same⟩ := guestKept.record
  have renamed : ((renameGuest.run .permissive .disabled 0 staffUser dualStore).2.servers.find
      "server").bind (fun server => server.roles.lookup "guest") =
      some { guestRole with name := "visitor" } := rfl
  rw [show (renameGuest.run .permissive .disabled 0 staffUser dualStore).2.servers.find "server" =
    some server' from found, Option.bind_some, same] at renamed
  exact absurd renamed (by decide)

end Company
