import CompanyBackend.Routes.Roles
import Mathlib.Algebra.Group.Nat.Defs
import Mathlib.Data.List.Induction
import Mathlib.Data.List.Perm.Subperm

/-!
# Ranks of roles

The routes that create a role and that reorder the roles of a server. A new role is given the
number of roles as its rank, and a reordering numbers the roles by their position. Together with
the deletion of a role these are the requests that decide about ranks.

The ranks are a strict order as long as every role that is created finds the others ranked below
the number of roles. Deleting a role that is not the last one leaves a gap in the ranks; a role
that is created before a reordering has closed the gap gets a rank that is not free.
-/

namespace Company

open Request HashMap PermissionQuery Outcome DatabasePermissionQuery Collection List Route Prod

structure DataCreateRole where
  name : String
  /-- Has no effect. -/
  rank : Option Int64 := none
  deriving DecidableEq, Repr

def DataCreateRole.valid (data : DataCreateRole) : Bool := lengthWithin 1 32 (some data.name)

/-- Who makes a request, when, and what the routes take from outside of the
store. -/
structure RoleServices where
  validator : RoleValidator
  voice : VoiceClient
  now : Timestamp
  user : User
  /-- The limit on the roles of a server in the configuration. -/
  serverRoles : Nat
  /-- The id that is generated for a new role. -/
  ulid : String
  /-- The text of a failed validation. -/
  describe : DataCreateRole → String

namespace MongoDb

variable (db : MongoDb)

def insertRole (serverId : String) (role : Role) : MongoDb :=
  db.modifyServer serverId (fun server => { server with roles := server.roles.put role.id role })
    (fun _ => rfl) fun _ stored _ member =>
      (mem_entries_put member).elim (fun new => new ▸ rfl) fun old => stored _ old.1

/-- A fetched server keeps each role under its id. -/
def fetchKeyedServer (target : String) : Result { server : Server // RolesKeyed server.roles } :=
  match stored : db.servers.find target with
  | some server => .ok ⟨server, rolesKeyed_of_find stored⟩
  | none => .error .notFound

variable {db}

theorem fetchKeyedServer_eq_ok {target : String} {server : { server // RolesKeyed server.roles }}
    (fetched : db.fetchKeyedServer target = .ok server) :
    db.servers.find target = some server.1 := by
  unfold fetchKeyedServer at fetched
  split at fetched
  · next found =>
    cases fetched
    exact found
  · cases fetched

end MongoDb

open MongoDb

section

variable (id : String) (server : Server) (name : String)

/-- A new role is to be ranked after all others. -/
def Role.new : Role where
  id := id
  name := name
  rank := .ofNat server.roles.size

theorem Role.new_rank : (Role.new id server name).rank = .ofNat server.roles.size := rfl

def Role.create : Route Role := do
  let role := Role.new id server name
  Route.update fun db => .ok (db.insertRole server.id role)
  return role

end

def rankFrom (rank : Nat) : List String → HashMap String Role → HashMap String Role
  | [], roles => roles
  | id :: ids, roles =>
    rankFrom (rank + 1) ids (roles.modify id fun role => { role with rank := .ofNat rank })

variable {roles : HashMap String Role} {ids : List String}

theorem RolesKeyed.rankFrom
    (keyed : RolesKeyed roles) (rank : Nat) : RolesKeyed (rankFrom rank ids roles) := by
  induction ids generalizing rank roles with
  | nil => exact keyed
  | cons id ids ih =>
    refine ih (keyed.modify ?_ id) (rank + 1)
    exact fun _ => rfl

variable (server : Server)

/-- The roles with their ids, the smallest rank first. -/
def Server.orderedRoles : List (String × Role) :=
  (server.roles.entries.map fun e => (e.1, e.2)).insertionSort fun a b => a.2.rank ≤ b.2.rank

def Server.setRoleOrdering (keyed : RolesKeyed server.roles)
    (newOrder : List String) : Route Server := do
  ensure (newOrder.all fun id => (server.roles.lookup id).isSome)
    (.panic "called `Option::unwrap()` on a `None` value")
  let roles := rankFrom 0 newOrder server.roles
  Route.update fun db => db.updateServer server.id { roles := some roles } [] fun _ written =>
    Option.some.inj written ▸ keyed.rankFrom 0
  return { server with roles }

variable (services : RoleServices) (target : String)

/-- `POST /servers/<target>/roles` -/
def createRole (data : DataCreateRole) : Route Role := do
  ensure data.valid (.error (.failedValidation (services.describe data)))
  let server ← fetch fun db => db.fetchServer target
  let (value, _) ← ask
    (fun db => (new db services.now services.user).withServer server)
    calculateServerPermissions
  lift (value.throwIfLackingChannelPermission .manageRole)
  ensure (decide (server.roles.size < services.serverRoles))
    (.error (.tooManyRoles services.serverRoles))
  Role.create services.ulid server data.name

/-- A role that the member may not reorder is moved. -/
def Server.movesHigherRole (topRank : Option Int64) (newOrder : List String) : Bool :=
  let existingOrder := server.orderedRoles.map fst
  server.roles.entries.any fun e =>
    (topRank.all fun topRank => decide (e.2.rank ≤ topRank)) &&
      existingOrder.findIdx? (· == e.1) != newOrder.findIdx? (· == e.1)

/-- `PATCH /servers/<target>/roles/ranks` -/
def editRoleRanks (ranks : List String) : Route Server := do
  let ⟨server, keyed⟩ ← fetch fun db => db.fetchKeyedServer target
  let (value, query) ← ask
    (fun db => (new db services.now services.user).withServer server)
    calculateServerPermissions
  lift (value.throwIfLackingChannelPermission .manageRole)
  -- Verify all roles are in the new ordering.
  ensure (ranks.length == server.roles.size &&
    server.roles.entries.all fun e => ranks.contains e.1) (.error .invalidOperation)
  onlyIf (server.owner != services.user.id) do
    let topRank ← attempt fun _ => ofQuery query.getMemberRank
    ensure (!server.movesHigherRole topRank ranks) (.error .notElevated)
  let server ← server.setRoleOrdering keyed ranks
  syncChannels services.voice server none
  return server

/-- A request about the roles of a server: besides the creation and the
reordering, those about one role, of which the deletion matters for the
ranks. -/
inductive RankRequest where
  | create (target : String) (data : DataCreateRole)
  | reorder (target : String) (ranks : List String)
  | role (request : RoleRequest)

def RankRequest.run : RankRequest → Route Unit
  | create target data => do
    let _ ← createRole services target data
  | reorder target ranks => do
    let _ ← editRoleRanks services target ranks
  | role request =>
    request.run services.validator services.voice services.now services.user

/-- The store after a history of requests. A request that fails may still have
written. -/
def runRankRequests (requests : List (RoleServices × RankRequest)) (db : MongoDb) : MongoDb :=
  requests.foldl (fun db request => (request.2.run request.1 db).2) db

structure CreatesRole (db : MongoDb) (target : String)
    (data : DataCreateRole) (server : Server) : Prop where
  valid : data.valid
  stored : db.servers.find target = some server
  permitted : (serverPermissions services.now server services.user
    (db.memberOf server services.user)).throwIfLackingChannelPermission .manageRole = .ok ()
  room : server.roles.size < services.serverRoles

/-- What a request can make of a stored server. -/
inductive Server.RankStep (services : RoleServices) (request : RankRequest) (db : MongoDb)
    (server : Server) : Server → Prop
  | unchanged : RankStep services request db server server
  | created (data : DataCreateRole) (asked : request = .create server.id data)
      (accepted : CreatesRole services db server.id data server) :
      RankStep services request db server
        { server with
          roles := server.roles.put services.ulid (Role.new services.ulid server data.name) }
  | deleted (roleId : String) :
      RankStep services request db server { server with roles := server.roles.erase roleId }
  | modified (roleId : String) (f : Role → Role) (keeps : ∀ role, (f role).rank = role.rank) :
      RankStep services request db server { server with roles := server.roles.modify roleId f }
  | reordered (ranks : List String) (covers : server.roles.keys.Perm ranks) :
      RankStep services request db server { server with roles := rankFrom 0 ranks server.roles }

theorem Role.updated_rank {data : PartialRole} (sameRank : data.rank = none)
    (remove : List FieldsRole) (role : Role) : (role.updated data remove).rank = role.rank := by
  obtain ⟨_, removed⟩ := foldl_removeField remove role
  rw [updated, removed, applyOptions, sameRank]
  rfl

open Server

variable {services : RoleServices} {ranks : List String} {request : RankRequest}

section Steps

variable {db db' : MongoDb} {id target : String} {server : Server}

theorem createRole_outcome (data : DataCreateRole) :
    Outcome (createRole services target data) db fun r db' =>
      (∃ e, r = .error e) ∧ db' = db ∨
      ∃ server, CreatesRole services db target data server ∧
        r = .ok (Role.new services.ulid server data.name) ∧
        db' = db.insertRole server.id (Role.new services.ulid server data.name) := by
  rw [createRole]
  apply ensure_bind _ fun _ => .inl ⟨⟨_, rfl⟩, rfl⟩
  intro valid
  apply fetch_bind _ fun e => .inl ⟨⟨e, rfl⟩, rfl⟩
  intro server fetched
  apply ask_bind (db.serverQuery_run services.now services.user server)
  apply lift_bind _ fun e => .inl ⟨⟨e, rfl⟩, rfl⟩
  intro _ permitted
  apply ensure_bind _ fun _ => .inl ⟨⟨_, rfl⟩, rfl⟩
  intro room
  refine .inr ⟨server, ⟨valid, orNotFound_eq_ok.mp fetched, permitted, of_decide_eq_true room⟩, ?_⟩
  exact ⟨rfl, rfl⟩

theorem createRole_accepted {data : DataCreateRole}
    (accepted : CreatesRole services db target data server) :
    createRole services target data db = (.ok (Role.new services.ulid server data.name),
      db.insertRole server.id (Role.new services.ulid server data.name)) := by
  have outcome : Outcome (createRole services target data) db fun r db' =>
      r = .ok (Role.new services.ulid server data.name) ∧
        db' = db.insertRole server.id (Role.new services.ulid server data.name) := by
    have fetched : (db.fetchServer target).mapError Failure.error = .ok server :=
      mapError_eq_ok.mpr (orNotFound_eq_ok.mpr accepted.stored)
    have room : decide (server.roles.size < services.serverRoles) = true :=
      decide_eq_true accepted.room
    rw [createRole]
    apply ensure_bind _ (absurd accepted.valid <| Bool.not_eq_true _ ▸ ·)
    intro _
    refine attempt_ok_bind (a := server) fetched ?_
    apply ask_bind (db.serverQuery_run services.now services.user server)
    refine attempt_ok_bind (a := ()) (mapError_eq_ok.mpr accepted.permitted) ?_
    apply ensure_bind _ (absurd room <| Bool.not_eq_true _ ▸ ·)
    intro _
    exact ⟨rfl, rfl⟩
  exact Prod.ext outcome.1 outcome.2

/-- A list of as many ids as there are roles that has all of them is a
rearrangement. -/
theorem Server.keys_perm_of_covers (covers : (ranks.length == server.roles.size &&
      server.roles.entries.all fun e => ranks.contains e.1)) :
    server.roles.keys.Perm ranks := by
  rw [Bool.and_eq_true, beq_iff_eq, all_eq_true] at covers
  obtain ⟨length, all⟩ := covers
  have listed : server.roles.keys ⊆ ranks := by
    intro id member
    obtain ⟨e, inside, rfl⟩ := List.mem_map.mp member
    exact contains_iff_mem.mp (all e inside)
  apply (subperm_of_subset server.roles.keys_nodup listed).perm_of_length_le
  rw [length, AList.keys, List.keys, length_map]
  exact le_rfl

/-- The numbering of a rearrangement unwraps only roles that exist. -/
theorem Server.setRoleOrdering_eq (keyed : RolesKeyed server.roles) {newOrder : List String}
    (covers : server.roles.keys.Perm newOrder) :
    ∃ db', server.setRoleOrdering keyed newOrder db =
        (.ok { server with roles := rankFrom 0 newOrder server.roles }, db') ∧
      db.updateServer server.id { roles := some (rankFrom 0 newOrder server.roles) } []
        (fun _ written => Option.some.inj written ▸ keyed.rankFrom 0) = .ok db' := by
  have present : newOrder.all fun id => (server.roles.lookup id).isSome := by
    rw [all_eq_true]
    intro id listed
    exact AList.lookup_isSome.mpr (covers.mem_iff.mpr listed)
  rw [setRoleOrdering, ensure_bind_of_met present]
  exact ⟨_, rfl, rfl⟩

/-- The rank up to which a member who is not the owner may not reorder. -/
def MongoDb.topRank (db : MongoDb) (server : Server) (user : User) : Option Int64 :=
  (if user.unrestricted server then none else db.memberOf server user).map
    fun member => member.getRanking server

/-- A reordering numbers all roles anew, or is refused. -/
theorem editRoleRanks_outcome (ranks : List String) :
    Outcome (editRoleRanks services target ranks) db fun r db' =>
      (∃ e, r = .error (.error e)) ∧ db' = db ∨
      ∃ server, ∃ keyed : RolesKeyed server.roles, server.roles.keys.Perm ranks ∧
        server.setRoleOrdering keyed ranks db =
          (.ok { server with roles := rankFrom 0 ranks server.roles }, db') ∧
        (server.owner ≠ services.user.id →
          server.movesHigherRole (db.topRank server services.user) ranks = false) ∧
        db.ChangesServer db' target server
          { server with roles := rankFrom 0 ranks server.roles } := by
  rw [editRoleRanks]
  refine attempt_bind ?_ fun e failed => ?_
  swap
  · obtain ⟨e, _, rfl⟩ := mapError_eq_error.mp failed
    exact .inl ⟨⟨e, rfl⟩, rfl⟩
  rintro ⟨server, keyed⟩ fetched
  have stored : db.servers.find target = some server :=
    fetchKeyedServer_eq_ok (mapError_eq_ok.mp fetched)
  obtain rfl : server.id = target := key_of_find stored
  apply ask_bind (db.serverQuery_run services.now services.user server)
  refine attempt_bind (fun _ _ => ?_) fun e failed => ?_
  swap
  · obtain ⟨e, _, rfl⟩ := mapError_eq_error.mp failed
    exact .inl ⟨⟨e, rfl⟩, rfl⟩
  apply ensure_bind _ fun _ => .inl ⟨⟨_, rfl⟩, rfl⟩
  intro covers
  have perm := keys_perm_of_covers covers
  apply Outcome.bind (R := fun r db' => db' = db ∧ match r with
    | .ok _ => server.owner ≠ services.user.id →
        server.movesHigherRole (db.topRank server services.user) ranks = false
    | .error e => e = .error .notElevated)
  · apply Outcome.onlyIf
    · intro _
      refine attempt_ok_bind (congrArg ofQuery (getMemberRank_eq rfl)) ?_
      change Outcome (ensure (!server.movesHigherRole (db.topRank server services.user) ranks) _) ..
      cases moved : server.movesHigherRole (db.topRank server services.user) ranks with
      | true => exact ⟨rfl, rfl⟩
      | false => exact ⟨rfl, fun _ => rfl⟩
    · intro owner
      exact ⟨rfl, fun other => absurd (bne_eq_false_iff_eq.mp owner) other⟩
  · rintro _ db ⟨rfl, unmoved⟩
    obtain ⟨db', ran, written⟩ := setRoleOrdering_eq keyed perm
    apply succeeds_bind (R := fun _ after => after = db') ⟨_, congrArg fst ran, congrArg snd ran⟩
    rintro _ _ rfl
    apply of_readOnly
    · exact (syncChannels_readOnly _ _ _).bind fun _ => readOnly_pure _
    · intro _
      exact .inr ⟨server, keyed, perm, ran, unmoved, updateServer_changes stored written⟩
  · rintro e _ ⟨rfl, rfl⟩
    exact .inl ⟨⟨_, rfl⟩, rfl⟩

/-- A change of one server document, seen from a stored server. -/
theorem MongoDb.ChangesServer.rankStep {before after : Server}
    (changed : db.ChangesServer db' target before after)
    (stored : db.servers.find server.id = some server)
    (step : before = server → target = server.id → server.RankStep services request db after) :
    ∃ server', db'.servers.find server.id = some server' ∧
      server.RankStep services request db server' := by
  by_cases this : server.id = target
  · subst this
    have same : before = server := Option.some.inj (changed.before.symm.trans stored)
    exact ⟨after, changed.after, step same rfl⟩
  · exact ⟨server, (changed.others _ this).trans stored, .unchanged⟩

/-- Every request changes the roles of a stored server in one of the ways
above. -/
theorem RankRequest.run_steps (request : RankRequest) (stored : db.servers.find id = some server) :
    Outcome (request.run services) db fun _ db' => ∃ server', db'.servers.find id = some server' ∧
      server.RankStep services request db server' := by
  obtain rfl : server.id = id := key_of_find stored
  have unchanged : ∀ db' : MongoDb, db'.servers.find server.id = db.servers.find server.id →
      ∃ server', db'.servers.find server.id = some server' ∧
        server.RankStep services request db server' := by
    intro db' same
    exact ⟨server, same.trans stored, .unchanged⟩
  cases request with
  | create target data =>
    apply Outcome.discard
    apply (createRole_outcome data).mono
    rintro _ _ (⟨_, rfl⟩ | ⟨created, accepted, _, rfl⟩)
    · exact unchanged _ rfl
    · rw [show created.id = target from key_of_find accepted.stored]
      apply (modifyServer_changes accepted.stored rfl).rankStep stored
      rintro rfl rfl
      exact .created data rfl accepted
  | reorder target ranks =>
    apply Outcome.discard
    apply (editRoleRanks_outcome ranks).mono
    rintro _ db' (⟨_, rfl⟩ | ⟨reordered, _, covers, _, _, changed⟩)
    · exact unchanged _ rfl
    · apply changed.rankStep stored
      rintro rfl _
      exact .reordered ranks covers
  | role request =>
    cases request with
    | edit target roleId data =>
      apply Outcome.discard
      apply (editRole_changes data).mono
      rintro _ db' (rfl | ⟨_, edited, changed⟩)
      · exact unchanged _ rfl
      · apply changed.rankStep stored
        rintro rfl _
        exact .modified roleId _ (Role.updated_rank rfl data.remove)
    | delete target roleId =>
      apply deleteRole_deletes.mono
      rintro _ _ (rfl | ⟨_, rfl⟩)
      · exact unchanged _ rfl
      · by_cases this : server.id = target
        · subst this
          refine ⟨_, ?_, .deleted roleId⟩
          rw [find_deleteRole_server, stored]
          rfl
        · exact unchanged _ (find_deleteRole_server_ne _ this _)
    | setPermission target roleId permissions =>
      apply Outcome.discard
      apply (setRolePermission_outcome permissions).mono
      rintro _ db' (rfl | ⟨edited, role, _, _, _, changed⟩)
      · exact unchanged _ rfl
      · apply changed.rankStep stored
        rintro rfl _
        exact .modified roleId _ fun _ => rfl
    | setChannelPermission channel roleId permissions =>
      apply Outcome.discard
      apply (setRolePermissions_outcome permissions).mono
      rintro _ db' (⟨rfl, _⟩ | ⟨_, text, role, accepts, rfl⟩)
      · exact unchanged _ rfl
      · exact unchanged _ rfl

end Steps

/-! ## Strict orders of ranks -/

section Ranks

variable {server server' : Server} {id : String} {role : Role}

def RanksDistinct (roles : HashMap String Role) : Prop :=
  ∀ id id' role role', roles.lookup id = some role → roles.lookup id' = some role' →
    role.rank = role'.rank → id = id'

/-- The ranks of the roles are below the number of roles: there is no gap. -/
def RanksGapless (roles : HashMap String Role) : Prop :=
  ∀ id role, roles.lookup id = some role → role.rank < .ofNat roles.size

theorem lookup_rankFrom_of_notMem (other : id ∉ ids) (rank : Nat) :
    (rankFrom rank ids roles).lookup id = roles.lookup id := by
  induction ids generalizing rank roles with
  | nil => rfl
  | cons first ids ih =>
    rw [mem_cons, not_or] at other
    rw [rankFrom, ih other.2, lookup_modify_ne _ other.1]

/-- Numbering gives each listed role its position. -/
theorem lookup_rankFrom (nodup : ids.Nodup) (listed : id ∈ ids)
    (found : roles.lookup id = some role) (rank : Nat) :
    (rankFrom rank ids roles).lookup id =
      some { role with rank := .ofNat (rank + ids.idxOf id) } := by
  induction ids generalizing rank roles with
  | nil => cases listed
  | cons first ids ih =>
    rw [rankFrom]
    obtain ⟨fresh, rest⟩ := nodup_cons.mp nodup
    by_cases same : id = first
    · subst same
      rw [lookup_rankFrom_of_notMem fresh, lookup_modify, found, idxOf_cons_self]
      rfl
    · have later : id ∈ ids := (mem_cons.mp listed).resolve_left same
      rw [ih rest later (by rwa [lookup_modify_ne _ same]),
        idxOf_cons_ne _ (Ne.symm same), Nat.succ_eq_add_one, Nat.add_right_comm,
        Nat.add_assoc]

theorem size_rankFrom (rank : Nat) (ids : List String) :
    (rankFrom rank ids roles).size = roles.size := by
  induction ids generalizing rank roles with
  | nil => rfl
  | cons first ids ih => rw [rankFrom, ih, size_modify]

/-- There are no more roles than ranks that are not negative, and no two share
one. -/
structure RanksOrdered (roles : HashMap String Role) : Prop where
  few : roles.size ≤ 2 ^ 63
  distinct : RanksDistinct roles

theorem RanksOrdered.empty : RanksOrdered ∅ where
  few := Nat.zero_le _
  distinct _ _ _ _ found := nomatch found

section

variable (ordered : RanksOrdered roles)

include ordered

theorem RanksOrdered.erase (roleId : String) : RanksOrdered (roles.erase roleId) where
  few := (size_erase_le roles roleId).trans ordered.few
  distinct := by
    intro id id' role role' found found'
    have kept : ∀ id role, (roles.erase roleId).lookup id = some role →
        roles.lookup id = some role :=
      forall_erase fun _ _ found => found
    exact ordered.distinct id id' role role' (kept id role found) (kept id' role' found')

theorem RanksOrdered.modify (roleId : String) {f : Role → Role}
    (keeps : ∀ role, (f role).rank = role.rank) : RanksOrdered (roles.modify roleId f) where
  few := by
    rw [size_modify]
    exact ordered.few
  distinct := by
    intro id id' role role' found found'
    have kept : ∀ id role, (roles.modify roleId f).lookup id = some role →
        ∃ old, roles.lookup id = some old ∧ old.rank = role.rank :=
      forall_modify (fun _ role found => ⟨role, found, rfl⟩)
        fun role found => ⟨role, found, (keeps role).symm⟩
    obtain ⟨old, stored, rank⟩ := kept id role found
    obtain ⟨old', stored', rank'⟩ := kept id' role' found'
    rw [← rank, ← rank']
    exact ordered.distinct id id' old old' stored stored'

/-- Without a gap, the number of roles is a rank of its own. -/
theorem RanksOrdered.put (gapless : RanksGapless roles) (id : String) (role : Role)
    (rank : role.rank = .ofNat roles.size) : RanksOrdered (roles.put id role) where
  few := by
    have few : roles.size ≠ 2 ^ 63 := by
      -- The number would wrap around to the smallest rank, with no room for others below it.
      intro full
      obtain ⟨e, member⟩ : ∃ e, e ∈ roles.entries :=
        length_pos_iff_exists_mem.mp (by change 0 < roles.size; omega)
      have below := gapless e.1 e.2 (mem_entries_iff.mp member)
      rw [full] at below
      exact absurd below (not_lt.mpr (Int64.minValue_le e.2.rank))
    have grown := size_put_le roles id role
    have most := ordered.few
    omega
  distinct := by
    have others : ∀ other role', other ≠ id → (roles.put id role).lookup other = some role' →
        roles.lookup other = some role' ∧ role'.rank ≠ role.rank := by
      intro other role' ne found
      rw [lookup_put_ne _ ne] at found
      rw [rank]
      exact ⟨found, ne_of_lt (gapless other role' found)⟩
    intro first second role₁ role₂ found₁ found₂ same
    by_cases new₁ : first = id <;> by_cases new₂ : second = id
    · exact new₁.trans new₂.symm
    · rw [new₁, lookup_put] at found₁
      cases found₁
      exact absurd same.symm (others second role₂ new₂ found₂).2
    · rw [new₂, lookup_put] at found₂
      cases found₂
      exact absurd same (others first role₁ new₁ found₁).2
    · exact ordered.distinct first second role₁ role₂ (others first role₁ new₁ found₁).1
        (others second role₂ new₂ found₂).1 same

end

theorem RanksOrdered.rankFrom (few : roles.size ≤ 2 ^ 63)
    (covers : roles.keys.Perm ids) : RanksOrdered (rankFrom 0 ids roles) where
  few := by rwa [size_rankFrom]
  distinct := by
    have length : ids.length = roles.size := by
      rw [← covers.length_eq, AList.keys, List.keys, length_map, HashMap.size]
    have listed : ∀ id role, roles.lookup id = some role → id ∈ ids := by
      intro id role found
      exact covers.mem_iff.mp (mem_keys_of_mem (mem_entries_iff.mpr found))
    have positions : ∀ id role, (Company.rankFrom 0 ids roles).lookup id = some role →
        id ∈ ids ∧ role.rank.toInt = ids.idxOf id := by
      intro id role found
      by_cases inside : id ∈ ids
      · have present : id ∈ roles := covers.mem_iff.mpr inside
        obtain ⟨old, stored⟩ := Option.isSome_iff_exists.mp (AList.lookup_isSome.mpr present)
        rw [lookup_rankFrom (covers.nodup_iff.mp roles.keys_nodup) inside stored,
          Nat.zero_add] at found
        cases found
        refine ⟨inside, Int64.toInt_ofNat_of_lt ?_⟩
        have position := idxOf_lt_length_of_mem inside
        omega
      · rw [lookup_rankFrom_of_notMem inside] at found
        exact absurd (listed id role found) inside
    intro first second role₁ role₂ found₁ found₂ same
    obtain ⟨inside, position₁⟩ := positions first role₁ found₁
    obtain ⟨_, position₂⟩ := positions second role₂ found₂
    rw [same, position₂] at position₁
    exact ((idxOf_inj inside).mp (Int.ofNat.inj position₁).symm)

/-- What a request makes of ordered ranks is ordered, if a role is created only
without a gap. -/
theorem Server.RankStep.ordered {db : MongoDb}
    (step : server.RankStep services request db server') (ordered : RanksOrdered server.roles)
    (gapless : ∀ data, request = .create server.id data →
      CreatesRole services db server.id data server → RanksGapless server.roles) :
    RanksOrdered server'.roles := by
  cases step with
  | unchanged => exact ordered
  | created data asked accepted =>
    exact ordered.put (gapless data asked accepted) _ _ (Role.new_rank _ _ _)
  | deleted roleId => exact ordered.erase roleId
  | modified roleId f keeps => exact ordered.modify roleId keeps
  | reordered ranks covers => exact .rankFrom ordered.few covers

end Ranks

section Positions

variable {server : Server} {top : Option Int64} {id other : String}
variable {role role' : Role}

def Server.existingOrder (server : Server) : List String := server.orderedRoles.map fst

theorem Server.orderedRoles_perm (server : Server) :
    server.orderedRoles.Perm (server.roles.entries.map fun e => (e.1, e.2)) :=
  perm_insertionSort ..

theorem Server.orderedRoles_sorted (server : Server) :
    server.orderedRoles.Pairwise fun a b => a.2.rank ≤ b.2.rank :=
  pairwise_insertionSort ..

theorem Server.lookup_orderedRoles {e : String × Role} (listed : e ∈ server.orderedRoles) :
    server.roles.lookup e.1 = some e.2 := by
  obtain ⟨_, stored, rfl⟩ := List.mem_map.mp (server.orderedRoles_perm.mem_iff.mp listed)
  exact mem_entries_iff.mp stored

theorem Server.existingOrder_perm (server : Server) :
    server.existingOrder.Perm server.roles.keys := by
  have sorted := server.orderedRoles_perm.map fst
  rwa [List.map_map] at sorted

theorem Server.idxOf_orderedRoles (place : Fin server.orderedRoles.length) :
    server.existingOrder.idxOf (server.orderedRoles.get place).1 = place := by
  have nodup := server.existingOrder_perm.nodup_iff.mpr server.roles.keys_nodup
  have there := nodup.idxOf_getElem place (by simp [existingOrder])
  simpa [existingOrder] using there

variable (covers : server.roles.keys.Perm ranks)
  (unmoved : server.movesHigherRole top ranks = false) (found : server.roles.lookup id = some role)
  (high : top.all fun top => decide (role.rank ≤ top))

include covers unmoved found high

/-- A role that a reordering may not move stays in its place. -/
theorem Server.idxOf_of_unmoved : ranks.idxOf id = server.existingOrder.idxOf id := by
  rw [movesHigherRole, any_eq_false] at unmoved
  have same := unmoved ⟨id, role⟩ (mem_entries_iff.mpr found)
  rw [high, Bool.true_and, bne_iff_ne, not_not] at same
  rw [idxOf_eq_getD_idxOf?, idxOf_eq_getD_idxOf?, idxOf?, ← same,
    (server.existingOrder_perm.trans covers).length_eq]
  rfl

/-- No role with a larger rank is put before it. -/
theorem Server.rank_le_of_unmoved (found' : server.roles.lookup other = some role')
    (before : ranks.idxOf other ≤ ranks.idxOf id) : role'.rank ≤ role.rank := by
  have kept := idxOf_of_unmoved covers unmoved found high
  have perm := server.existingOrder_perm.trans covers
  have listed : ∀ key role, server.roles.lookup key = some role → key ∈ ranks := by
    intro key role found
    exact covers.mem_iff.mp (mem_keys_of_mem (mem_entries_iff.mpr found))
  have place : ranks.idxOf id < server.orderedRoles.length := by
    rw [← length_map (f := fst), ← existingOrder, perm.length_eq]
    exact idxOf_lt_length_of_mem (listed id role found)
  let own : Fin server.orderedRoles.length := ⟨ranks.idxOf id, place⟩
  let new : Fin server.orderedRoles.length := ⟨ranks.idxOf other, before.trans_lt place⟩
  have ordered := server.orderedRoles_sorted.rel_get_of_le (a := new) (b := own) before
  have stays : id = (server.orderedRoles.get own).1 := by
    apply (idxOf_inj (perm.mem_iff.mpr (listed id role found))).mp
    rw [idxOf_orderedRoles, ← kept]
  have current := lookup_orderedRoles (get_mem server.orderedRoles own)
  rw [← stays, found] at current
  rw [← Option.some.inj current] at ordered
  -- The role that was in the new place of the other one is not to be moved either.
  have old := lookup_orderedRoles (get_mem server.orderedRoles new)
  have same : ranks.idxOf (server.orderedRoles.get new).1 = ranks.idxOf other := by
    rw [idxOf_of_unmoved covers unmoved old, idxOf_orderedRoles]
    cases top with
    | none => rfl
    | some top => exact decide_eq_true (ordered.trans (of_decide_eq_true high))
  rw [(idxOf_inj (listed _ _ old)).mp same, found'] at old
  rwa [Option.some.inj old]

end Positions

/-- A reordering is refused and changes nothing, or its list is a rearrangement
of the roles, which are numbered by it without a panic, and the server is stored
with these numbers. Apart from the owner, nobody moves a role that is not ranked
below their own best one, or puts another one before it. -/
theorem role_ranks_reordered (services : RoleServices) (target : String) (ranks : List String)
    (db : MongoDb) :
    Outcome (editRoleRanks services target ranks) db fun r db' =>
      (∃ e, r = .error (.error e)) ∧ db' = db ∨
      ∃ server, ∃ keyed : RolesKeyed server.roles, db.servers.find target = some server ∧
        ranks.Perm server.roles.keys ∧
        server.setRoleOrdering keyed ranks db =
          (.ok { server with roles := rankFrom 0 ranks server.roles }, db') ∧
        db.ChangesServer db' target server
          { server with roles := rankFrom 0 ranks server.roles } ∧
        (∀ id ∈ ranks, ((rankFrom 0 ranks server.roles).lookup id).map Role.rank =
          some (.ofNat (ranks.idxOf id))) ∧
        (server.roles.size ≤ 2 ^ 63 → RanksDistinct (rankFrom 0 ranks server.roles)) ∧
        (server.owner ≠ services.user.id →
          ∀ member, db.memberOf server services.user = some member →
            ∀ id role, server.roles.lookup id = some role → role.rank ≤ member.getRanking server →
              ranks.idxOf id = server.existingOrder.idxOf id ∧
              ∀ other role', server.roles.lookup other = some role' →
                ranks.idxOf other ≤ ranks.idxOf id → role'.rank ≤ role.rank) := by
  apply (editRoleRanks_outcome ranks).mono
  rintro r db' (refused | ⟨server, keyed, covers, ran, unmoved, changed⟩)
  · exact .inl refused
  refine .inr ⟨server, keyed, changed.before, covers.symm, ran, changed, ?_, ?_, ?_⟩
  · intro id listed
    obtain ⟨role, found⟩ := Option.isSome_iff_exists.mp
      (AList.lookup_isSome.mpr (covers.mem_iff.mpr listed))
    rw [lookup_rankFrom (covers.nodup_iff.mp server.roles.keys_nodup) listed found, Nat.zero_add]
    rfl
  · exact fun few => (RanksOrdered.rankFrom few covers).distinct
  · intro notOwner member joined id role found high
    have protects : (db.topRank server services.user).all fun top => decide (role.rank ≤ top) := by
      rw [topRank, joined]
      cases services.user.unrestricted server <;> simp [high]
    exact ⟨idxOf_of_unmoved covers (unmoved notOwner) found protects,
      fun _ _ => rank_le_of_unmoved covers (unmoved notOwner) found protects⟩

def RoleServices.sample (ulid : String) : RoleServices where
  validator := .permissive
  voice := .disabled
  now := 0
  user := { id := "owner" }
  serverRoles := 200
  ulid := ulid
  describe _ := ""

/-- The owner puts the guests before the staff. -/
example : ((editRoleRanks (.sample "") "server" ["guest", "staff"] sampleStore).2.servers.find
    "server").map (fun server => ((server.roles.lookup "guest").map Role.rank,
      (server.roles.lookup "staff").map Role.rank)) = some (some 0, some 1) := by
  decide

/-- The permissions in the server and in its channels are the same in whatever
order the roles of the server are iterated. -/
def Server.OrderIrrelevant : Prop :=
  ∀ (roles : HashMap String Role) (q : DatabasePermissionQuery),
    roles.entries.Perm server.roles.entries →
      (calculateServerPermissions.run (q.withServer { server with roles })).map
          fst =
        (calculateServerPermissions.run (q.withServer server)).map fst ∧
      ∀ channel : TextChannel, channel.server = server.id →
        (calculateChannelPermissions.run
            ((q.withServer { server with roles }).withChannel (.textChannel channel))).map
            fst =
          (calculateChannelPermissions.run
            ((q.withServer server).withChannel (.textChannel channel))).map fst

section Order

variable {server : Server}

variable (distinct : RanksDistinct server.roles)

include distinct

theorem RanksDistinct.among (held : List String) : server.DistinctRanks held := by
  intro e member e' member' _ _ same
  exact distinct _ _ _ _ (mem_entries_iff.mp member) (mem_entries_iff.mp member') same

/-- Distinct ranks leave nothing to the order of iteration. -/
theorem RanksDistinct.orderIrrelevant : server.OrderIrrelevant := by
  intro roles q perm
  have rearranged : Reiterates { server with roles } server := ⟨rfl, perm⟩
  constructor
  · rw [calculateServerPermissions_run rfl, calculateServerPermissions_run rfl]
    exact congrArg Except.ok (serverPermissions_reiterated distinct.among rearranged _ _ _)
  · intro channel same
    have calculated : ∀ server' : Server, channel.server = server'.id →
        (calculateChannelPermissions.run
          ((q.withServer server').withChannel (.textChannel channel))).map fst =
            .ok (textChannelPermissions wipeUnlessViewable q.now server' channel
              q.perspective (q.knownMember server')) := by
      intro server' same
      rw [calculateChannelPermissions, calculateChannelPermissionsWith_run_text rfl
        (setServerFromChannel_known rfl rfl same)]
      rfl
    calc _ = Except.ok _ := calculated { server with roles } same
      _ = Except.ok _ := congrArg Except.ok
        (textChannelPermissions_reiterated distinct.among rearranged _ _ _ ⟨rfl, .refl _⟩ _)
      _ = _ := (calculated server same).symm

end Order

/-! ## Histories -/

/-- Along a history of requests, begun without roles, the ranks of a server stay
distinct, no order of iteration matters and a new role is ranked after all
others, exactly if each role that is created finds the ranks of the others
without a gap. -/
theorem role_ranks_ordered_iff {db : MongoDb} {id : String} {server : Server}
    (stored : db.servers.find id = some server) (empty : server.roles = ∅)
    (requests : List (RoleServices × RankRequest)) :
    ((∀ done, done <+: requests →
        ∀ server, (runRankRequests done db).servers.find id = some server →
          RanksDistinct server.roles ∧ server.OrderIrrelevant) ∧
      ∀ done services data, done ++ [(services, .create id data)] <+: requests →
        ∀ server role db', (runRankRequests done db).servers.find id = some server →
          createRole services id data (runRankRequests done db) = (.ok role, db') →
            ∀ other existing, server.roles.lookup other = some existing →
              existing.rank < role.rank) ↔
    ∀ done services data, done ++ [(services, .create id data)] <+: requests →
      ∀ server, CreatesRole services (runRankRequests done db) id data server →
        RanksGapless server.roles := by
  constructor
  · rintro ⟨_, larger⟩ done services data begun server accepted other existing present
    have below := larger done services data begun server _ _ accepted.stored
      (createRole_accepted accepted) other existing present
    rwa [Role.new_rank] at below
  · intro gapless
    have ordered : ∀ done, done <+: requests → ∃ server,
        (runRankRequests done db).servers.find id = some server ∧ RanksOrdered server.roles := by
      intro done
      induction done using reverseRecOn with
      | nil =>
        intro _
        exact ⟨server, stored, empty ▸ .empty⟩
      | append_singleton done request ih =>
        intro begun
        obtain ⟨before, found, ordered⟩ := ih ((prefix_append done [request]).trans begun)
        obtain ⟨after, found', step⟩ := @RankRequest.run_steps request.1 _ _ _ request.2 found
        refine ⟨after, ?_, step.ordered ordered ?_⟩
        · rw [runRankRequests, foldl_append]
          exact found'
        · intro data asked accepted
          have sameId : before.id = id := key_of_find found
          rw [sameId] at asked accepted
          apply gapless done request.1 data _ before accepted
          rw [← asked]
          exact begun
    constructor
    · intro done begun server found
      obtain ⟨_, found', ordered⟩ := ordered done begun
      cases found'.symm.trans found
      exact ⟨ordered.distinct, ordered.distinct.orderIrrelevant⟩
    · intro done services data begun server role db' found created other existing present
      obtain ⟨⟨e, failed⟩, _⟩ | ⟨_, accepted, returned, _⟩ := (createRole_outcome data).elim created
      · cases failed
      · cases accepted.stored.symm.trans found
        rw [Except.ok.inj returned, Role.new_rank]
        exact gapless done services data begun _ accepted other existing present

/-! A server whose owner creates roles. -/

def unrankedServer : Server where
  id := "server"
  owner := "owner"

theorem unrankedServers_keyed :
    ∀ server ∈ (ofDocuments [unrankedServer] :
      Collection String Server id).documents, RolesKeyed server.roles := by
  decide

def unrankedStore : MongoDb where
  users := .empty
  servers := .ofDocuments [unrankedServer]
  channels := .empty
  serverMembers := .empty
  attachments := .empty
  rolesKeyed := unrankedServers_keyed

def roleCreation (ulid name : String) : RoleServices × RankRequest :=
  (.sample ulid, .create "server" { name })

def aboutRole (request : RoleRequest) : RoleServices × RankRequest := (.sample "", .role request)

/-- The server with roles, the one that was created last first. -/
def rankedServer (roles : List Role) : Server :=
  { unrankedServer with
    roles := HashMap.ofPairs (roles.reverse.map fun role => (role.id, role)) }

/-- The second role is created while the first one has rank 0, and gets rank
1. -/
theorem role_ranks_ordered_twice :
    ∃ server, (runRankRequests [roleCreation "first" "First", roleCreation "second" "Second"]
        unrankedStore).servers.find "server" = some server ∧
      (server.roles.lookup "second").map Role.rank = some 1 ∧
      RanksDistinct server.roles ∧ server.OrderIrrelevant := by
  let first : Role := { id := "first", name := "First", rank := 0 }
  let second : Role := { id := "second", name := "Second", rank := 1 }
  have once : (runRankRequests [roleCreation "first" "First"] unrankedStore).servers.find "server" =
      some (rankedServer [first]) := rfl
  have twice : (runRankRequests [roleCreation "first" "First", roleCreation "second" "Second"]
      unrankedStore).servers.find "server" = some (rankedServer [second, first]) := rfl
  have stored : unrankedStore.servers.find "server" = some unrankedServer := rfl
  refine ⟨_, twice, rfl, ?_⟩
  refine ((role_ranks_ordered_iff stored rfl _).mpr ?_).1 _ (prefix_refl _) _ twice
  rintro done services data ⟨rest, split⟩ server accepted other existing found
  match done with
  | [] =>
    cases accepted.stored.symm.trans stored
    cases found
  | [request] =>
    obtain rfl : roleCreation "first" "First" = request := by cases split; rfl
    cases accepted.stored.symm.trans once
    have listed : ⟨other, existing⟩ ∈ [(⟨"first", first⟩ : Sigma fun _ : String => Role)] :=
      mem_entries_iff.mpr found
    rw [mem_singleton] at listed
    cases listed
    decide
  | _ :: _ :: _ => simp at split

/-- The first of two roles is deleted, and then a third one is created. The two
roles that are left both have rank 1, so that the one that is iterated last
decides. -/
theorem role_ranks_collide :
    ∃ server, (runRankRequests
        [roleCreation "first" "First", roleCreation "second" "Second",
          aboutRole (.delete "server" "first"), roleCreation "third" "Third",
          aboutRole (.setPermission "server" "second" { allow := 1 }),
          aboutRole (.setPermission "server" "third" { deny := 1 })]
        unrankedStore).servers.find "server" = some server ∧
      (server.roles.lookup "second").map Role.rank = some 1 ∧
      (server.roles.lookup "third").map Role.rank = some 1 ∧
      ¬ server.OrderIrrelevant := by
  let second : Role := { id := "second", name := "Second", rank := 1, permissions := { a := 1 } }
  let third : Role := { id := "third", name := "Third", rank := 1, permissions := { d := 1 } }
  refine ⟨rankedServer [third, second], rfl, rfl, rfl, ?_⟩
  intro irrelevant
  let member : Member := { id := ⟨"server", "user"⟩, roles := ["second", "third"] }
  have same := (irrelevant (rankedServer [second, third]).roles
    { new .unreachable 0 { id := "user" } with member := some member }
    (by decide)).1
  rw [calculateServerPermissions_run rfl, calculateServerPermissions_run rfl] at same
  exact absurd (Except.ok.inj same) (by decide +kernel)

end Company
