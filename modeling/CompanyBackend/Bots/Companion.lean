import CompanyBackend.Members.Removal
import CompanyBackend.Voice.ChannelCalls

/-!
# The server of an AI companion

An AI companion is in one server at a time. The bot document records which one, and an invite
looks at the record: the recorded server needs no second invite, and any other one is refused
while the companion is a member of the recorded server.

The record is written when the companion joins. When it is removed, the record is to be cleared
by a partial update, which leaves out what has no value, so the record stays. An invite to
another server copes with that: it looks for the member. An invite to the recorded server does
not, and succeeds without adding the bot.

What the bot is sent to read encrypted channels is left out.
-/

namespace Company

open Request Company.Task Route

/-- The server that is recorded for an AI companion. Other bots may be
anywhere. -/
def BotDocument.boundServer (bot : BotDocument) : Option String :=
  if bot.botType == .aiCompanion then bot.joinedServerId else none

def companionServerLimit (botId : String) : Failure :=
  .error (.aiCompanionServerLimit ("AI Companion bot '" ++ botId ++ "' is already in a server. " ++
    "It can only be in 1 server at a time. Remove it from the current server first."))

/-- The companion may still be in the recorded server. If it is not, the record
is cleared, as far as a partial update does so. -/
def checkCompanionLimit (bot : BotDocument) : Task Unit :=
  match bot.boundServer with
  | some current => do
    let member ← result (ofRoute (Route.fetch fun db => db.fetchMember current bot.id))
    ensure (!member.isOk) (companionServerLimit bot.id)
    write fun backend => .ok (backend.updateBotJoinedServer bot.id none)
  | none => return ()

variable (readSeconds : Timestamp → Option Timestamp) (now : Timestamp) (user : User)
variable (target serverId : String)

def addBot (bot : BotDocument) (botUser : User) (server : Server) : Task Unit := do
  let created ← result (createMember readSeconds now server.id botUser.id)
  onlyIf (created.isOk && bot.botType == .aiCompanion) <|
    write fun backend => .ok (backend.updateBotJoinedServer bot.id (some server.id))
  match created with
  | .ok _ => return ()
  | .error e => fail e

def inviteToServer (bot : BotDocument) (botUser : User) (server : Server) : Task Unit := do
  checkCompanionLimit bot
  let (permissions, _) ← ofRoute (Route.ask
    (fun db => (DatabasePermissionQuery.new db now user).withServer server)
    PermissionQuery.calculateServerPermissions)
  ofRoute (Route.lift (permissions.throwIfLackingChannelPermission .manageServer))
  addBot readSeconds now bot botUser server

/-- `POST /bots/<target>/invite` with a server as the destination. -/
def inviteBot : Task Unit := do
  ensure user.bot.isNone (.error .isBot)
  let bot ← attempt fun backend => (backend.fetchBot target).mapError .error
  ensure (bot.isPublic || bot.owner == user.id) (.error .botIsPrivate)
  let botUser ← ofRoute (Route.fetch fun db => db.fetchUser bot.id)
  let server ← ofRoute (Route.fetch fun db => db.fetchServer serverId)
  if bot.boundServer == some server.id then return ()
  else inviteToServer readSeconds now user bot botUser server

inductive CompanionEvent where
  | invite (now : Timestamp) (user : User) (serverId : String)
  | leave (now : Timestamp) (serverId : String)
  | kick (services : VoiceServices) (user : User) (serverId : String)
  | ban (services : VoiceServices) (user : User) (serverId : String) (data : DataBanCreate)

def CompanionEvent.run
    (describe : DataBanCreate → String) (target : String) : CompanionEvent → Task Unit
  | invite now user serverId => inviteBot readSeconds now user target serverId
  | leave now serverId => do
    let member ← ofRoute (Route.fetch fun db => db.fetchMember serverId target)
    removeMember now member.id
  | kick services user serverId => kickMember services user serverId target
  | ban services user serverId data => do
    let _ ← banUser describe services user serverId target data

structure InvitePasses (user : User) (target serverId : String) (backend : Backend)
    (bot : BotDocument) (botUser : User) (server : Server) : Prop where
  human : user.bot.isNone
  botStored : backend.bots.find target = some bot
  visible : (bot.isPublic || bot.owner == user.id)
  userStored : backend.db.users.find target = some botUser
  serverStored : backend.db.servers.find serverId = some server

/-- The user may invite the bot, and the bot may come. -/
structure MayInvite (now : Timestamp) (user : User) (target serverId : String) (backend : Backend)
    (bot : BotDocument) (botUser : User) (server : Server) : Prop extends
    InvitePasses user target serverId backend bot botUser server where
  manages : (serverPermissions now server user
    (backend.db.memberOf server user)).hasChannelPermission .manageServer
  unbanned : (backend.fetchBan serverId target).isOk = false
  absent : (backend.db.fetchMember serverId target).isOk = false
  /-- A companion that was removed from its server. -/
  free : ∀ current, bot.boundServer = some current →
    (backend.db.fetchMember current target).isOk = false

section Inviting

variable {readSeconds : Timestamp → Option Timestamp} {now : Timestamp} {user botUser : User}
variable {target serverId : String} {bot : BotDocument} {server : Server}
variable {backend backend' : Backend} {member : Member}

theorem createMember_run :
    createMember readSeconds now serverId target backend =
      ofRoute (Member.create readSeconds now (backend.fetchBan serverId target).isOk serverId
        target) backend := by
  rw [createMember, bind_of_ok (result_attempt_run ..), isOk_mapError]

theorem createMember_of_room (unbanned : (backend.fetchBan serverId target).isOk = false)
    (absent : (backend.db.fetchMember serverId target).isOk = false)
    (room : backend.db.HasRoom readSeconds now { server := serverId, user := target }) :
    (createMember readSeconds now serverId target backend).1.isOk = true := by
  rw [createMember_run, unbanned]
  exact Member.create_of_room absent room

theorem recordServer_keeps {P : Backend → Prop} (botId : String) (joined : Option String)
    (kept : ∀ (backend : Backend) bots, P backend → P { backend with bots }) :
    Keeps P (write fun backend => .ok (backend.updateBotJoinedServer botId joined) :
      Task Unit) := by
  apply keeps_write
  rintro stored _ held ⟨⟩
  exact kept stored _ held

theorem addBot_ok (ran : addBot readSeconds now bot botUser server backend = (.ok (), backend')) :
    backend.db.HasRoom readSeconds now { server := server.id, user := botUser.id } ∧
      (backend'.db.fetchMember server.id botUser.id).isOk = true := by
  obtain ⟨created, middle, read, ran⟩ := of_bind_eq_ok ran
  obtain ⟨_, last, recorded, returned⟩ := of_bind_eq_ok ran
  have same : last.db = middle.db :=
    (recordServer_keeps (P := fun stored => stored.db = middle.db) bot.id (some server.id)
      fun _ _ held => held).onlyIf.of_ran rfl recorded
  cases created with
  | error e => cases returned
  | ok member =>
    cases returned
    obtain ⟨room, fetched⟩ := (Member.create_ok (of_ofRoute_eq (of_result_eq read)).1).2
    rw [same, fetched]
    exact ⟨room, rfl⟩

theorem addBot_of_created
    (created : (createMember readSeconds now server.id botUser.id backend).1.isOk) :
    (addBot readSeconds now bot botUser server backend).1 = .ok () := by
  obtain ⟨member, ran⟩ := exists_of_isOk created
  have read : result (createMember readSeconds now server.id botUser.id) backend =
      (.ok (.ok member), (createMember readSeconds now server.id botUser.id backend).2) := by
    rw [result, ran]
  rw [addBot, bind_of_ok read]
  cases bot.botType with
  | regular | aiCompanion => rfl

theorem checkCompanionLimit_run {current : String} (bound : bot.boundServer = some current) :
    checkCompanionLimit bot backend =
      if (backend.db.fetchMember current bot.id).isOk then
        (.error (companionServerLimit bot.id), backend)
      else (.ok (), backend.updateBotJoinedServer bot.id none) := by
  have looked : result (ofRoute (fetch fun db => db.fetchMember current bot.id))
      backend = (.ok ((backend.db.fetchMember current bot.id).mapError .error), backend) := rfl
  rw [checkCompanionLimit, bound]
  dsimp only
  rw [bind_of_ok looked, isOk_mapError]
  cases (backend.db.fetchMember current bot.id).isOk <;> rfl

/-- The record is left as it was, and nothing else is written. -/
theorem checkCompanionLimit_ok (ran : checkCompanionLimit bot backend = (.ok (), backend')) :
    backend'.db = backend.db ∧ backend'.bans = backend.bans := by
  cases bound : bot.boundServer with
  | none =>
    rw [checkCompanionLimit, bound] at ran
    cases ran
    exact ⟨rfl, rfl⟩
  | some current =>
    rw [checkCompanionLimit_run bound] at ran
    split at ran
    · cases ran
    · cases ran
      exact ⟨rfl, rfl⟩

section

variable (free : ∀ current, bot.boundServer = some current →
  (backend.db.fetchMember current bot.id).isOk = false)

include free

theorem checkCompanionLimit_of_free : (checkCompanionLimit bot backend).1 = .ok () := by
  cases bound : bot.boundServer with
  | none =>
    rw [checkCompanionLimit, bound]
    rfl
  | some current =>
    rw [checkCompanionLimit_run bound, free current bound]
    rfl

omit free in
theorem inviteToServer_ok
    (ran : inviteToServer readSeconds now user bot botUser server backend = (.ok (), backend')) :
    backend.db.HasRoom readSeconds now { server := server.id, user := botUser.id } ∧
      (backend'.db.fetchMember server.id botUser.id).isOk = true := by
  obtain ⟨_, middle, checked, ran⟩ := of_bind_eq_ok ran
  obtain ⟨_, _, ran⟩ := of_ofRoute_bind_eq_ok (readOnly_attempt _) ran
  obtain ⟨_, _, ran⟩ := of_ofRoute_bind_eq_ok (readOnly_attempt _) ran
  have added := addBot_ok ran
  rwa [(checkCompanionLimit_ok checked).1] at added

theorem inviteToServer_of_may (manages : (serverPermissions now server user
      (backend.db.memberOf server user)).hasChannelPermission .manageServer)
    (unbanned : (backend.fetchBan server.id botUser.id).isOk = false)
    (absent : (backend.db.fetchMember server.id botUser.id).isOk = false)
    (room : backend.db.HasRoom readSeconds now { server := server.id, user := botUser.id }) :
    (inviteToServer readSeconds now user bot botUser server backend).1 = .ok () := by
  have checked : checkCompanionLimit bot backend = (.ok (), (checkCompanionLimit bot backend).2) :=
    Prod.ext (checkCompanionLimit_of_free free) rfl
  obtain ⟨db, bans⟩ := checkCompanionLimit_ok checked
  rw [inviteToServer, bind_of_ok checked]
  generalize (checkCompanionLimit bot backend).2 = middle at db bans
  have asked : ofRoute (ask
      (fun db => (DatabasePermissionQuery.new db now user).withServer server)
      PermissionQuery.calculateServerPermissions) middle =
        (.ok (serverPermissions now server user (middle.db.memberOf server user),
          (middle.db.serverQuery now user server).afterServer server), middle) := by
    apply ofRoute_run
    rw [ask, attempt]
    exact congrArg (fun answer => (ofQuery answer, middle.db))
      (MongoDb.serverQuery_run middle.db now user server)
  have permitted : ofRoute (lift ((serverPermissions now server user
      (middle.db.memberOf server user)).throwIfLackingChannelPermission .manageServer)) middle =
        (.ok (), middle) := by
    apply ofRoute_run
    rw [lift, attempt, PermissionValue.throwIfLackingChannelPermission, db, if_pos manages]
    rfl
  rw [bind_of_ok asked]
  dsimp only
  rw [bind_of_ok permitted]
  apply addBot_of_created
  apply createMember_of_room
  · rwa [Backend.fetchBan, bans]
  · rwa [db]
  · rwa [db]

end

section

variable (passes : InvitePasses user target serverId backend bot botUser server)

include passes

theorem InvitePasses.ids : bot.id = target ∧ botUser.id = target ∧ server.id = serverId := by
  have key : bot.key = target := Collection.key_of_find passes.botStored
  exact ⟨key, Collection.key_of_find passes.userStored, Collection.key_of_find passes.serverStored⟩

/-- An invite that passes the first checks depends on the record. -/
theorem InvitePasses.run : inviteBot readSeconds now user target serverId backend =
      if bot.boundServer = some serverId then (.ok (), backend)
      else inviteToServer readSeconds now user bot botUser server backend := by
  obtain ⟨botId, userId, sameServer⟩ := passes.ids
  have fetched : (attempt fun backend : Backend =>
      (backend.fetchBot target).mapError Failure.error) backend = (.ok bot, backend) := by
    rw [attempt, Backend.fetchBot, passes.botStored]
    rfl
  have account : ofRoute (fetch fun db => db.fetchUser bot.id) backend =
      (.ok botUser, backend) := by
    rw [botId]
    exact fetch_run (orNotFound_eq_ok.mpr passes.userStored)
  have stored : ofRoute (fetch fun db => db.fetchServer serverId) backend =
      (.ok server, backend) := fetch_run (orNotFound_eq_ok.mpr passes.serverStored)
  rw [inviteBot, ensure_bind_of_met passes.human, bind_of_ok fetched,
    ensure_bind_of_met passes.visible, bind_of_ok account, bind_of_ok stored, sameServer]
  by_cases bound : bot.boundServer = some serverId
  · rw [if_pos bound, bound]
    simp only [beq_self_eq_true, if_true]
    rfl
  · rw [if_neg bound, if_neg (by simpa using bound)]

end

theorem inviteBot_passes
    (ran : inviteBot readSeconds now user target serverId backend = (.ok (), backend')) :
    ∃ bot botUser server, InvitePasses user target serverId backend bot botUser server := by
  obtain ⟨human, ran⟩ := of_ensure_bind_eq_ok ran
  obtain ⟨bot, fetched, ran⟩ := of_readOnly_bind_eq_ok (readOnly_attempt _) ran
  obtain ⟨visible, ran⟩ := of_ensure_bind_eq_ok ran
  obtain ⟨botUser, account, ran⟩ := of_ofRoute_bind_eq_ok (readOnly_attempt _) ran
  obtain ⟨server, stored, _⟩ := of_ofRoute_bind_eq_ok (readOnly_attempt _) ran
  have botStored : backend.bots.find target = some bot :=
    orNotFound_eq_ok.mp (mapError_eq_ok.mp (congrArg Prod.fst fetched))
  have key : bot.key = target := Collection.key_of_find botStored
  have userStored : backend.db.users.find bot.key = some botUser :=
    orNotFound_eq_ok.mp (mapError_eq_ok.mp (congrArg Prod.fst account))
  rw [key] at userStored
  exact ⟨bot, botUser, server, human, botStored, visible, userStored,
    orNotFound_eq_ok.mp (mapError_eq_ok.mp (congrArg Prod.fst stored))⟩

end Inviting

/-! ## Where a companion is -/

/-- An invite that succeeds makes the bot a member, and a bot that may come can
be invited. -/
structure Placement (backend : Backend) : Prop where
  placed : (inviteBot readSeconds now user target serverId backend).1 = .ok () →
    ((inviteBot readSeconds now user target serverId backend).2.db.fetchMember serverId target).isOk
  invitable : ∀ bot botUser server, MayInvite now user target serverId backend bot botUser server →
    (inviteBot readSeconds now user target serverId backend).1 = .ok ()

/-- The bot is a member of the server that is recorded, if that is the one it is
invited to, and a document that is left of it can be taken back. -/
structure Placeable (backend : Backend) : Prop where
  recorded : ∀ bot botUser server, InvitePasses user target serverId backend bot botUser server →
    bot.boundServer = some serverId → (backend.db.fetchMember serverId target).isOk
  room : ∀ bot botUser server, MayInvite now user target serverId backend bot botUser server →
    backend.db.HasRoom readSeconds now { server := serverId, user := target }

section Placing

variable {readSeconds : Timestamp → Option Timestamp} {now : Timestamp} {user : User}
variable {target serverId : String} {backend : Backend}

theorem Placement.placeable (placement : Placement readSeconds now user target serverId backend) :
    Placeable readSeconds now user target serverId backend := by
  have recorded : ∀ bot botUser server,
      InvitePasses user target serverId backend bot botUser server →
        bot.boundServer = some serverId →
          (backend.db.fetchMember serverId target).isOk = true := by
    intro bot botUser server passes bound
    have idle : inviteBot readSeconds now user target serverId backend = (.ok (), backend) :=
      passes.run.trans (if_pos bound)
    have member := placement.placed (by rw [idle])
    rwa [idle] at member
  refine ⟨recorded, fun bot botUser server may => ?_⟩
  have elsewhere : bot.boundServer ≠ some serverId := by
    intro bound
    exact Bool.false_ne_true
      (may.absent.symm.trans (recorded bot botUser server may.toInvitePasses bound))
  have accepted := placement.invitable bot botUser server may
  rw [may.toInvitePasses.run, if_neg elsewhere] at accepted
  obtain ⟨_, userId, serverId⟩ := may.ids
  rw [← userId, ← serverId]
  exact (inviteToServer_ok (Prod.ext accepted rfl)).1

theorem Placeable.placement (placeable : Placeable readSeconds now user target serverId backend) :
    Placement readSeconds now user target serverId backend := by
  constructor
  · intro accepted
    obtain ⟨bot, botUser, server, passes⟩ := inviteBot_passes (Prod.ext accepted rfl)
    obtain ⟨_, userId, sameServer⟩ := passes.ids
    rw [passes.run] at accepted ⊢
    split at accepted
    next bound =>
      rw [if_pos bound]
      exact placeable.recorded bot botUser server passes bound
    next elsewhere =>
      rw [if_neg elsewhere, ← userId, ← sameServer]
      exact (inviteToServer_ok (Prod.ext accepted rfl)).2
  · intro bot botUser server may
    obtain ⟨botId, userId, sameServer⟩ := may.ids
    rw [may.run]
    split
    · rfl
    · subst userId sameServer
      refine inviteToServer_of_may ?_ may.manages may.unbanned may.absent
        (placeable.room bot botUser server may)
      rw [botId]
      exact may.free

end Placing

/-- The bot is a member of the server that is recorded for it, and this is not
the given one. -/
def Backend.PlacedApart (target : String) (apart : Option String) (backend : Backend) : Prop :=
  ∀ bot current, backend.bots.find target = some bot → bot.boundServer = some current →
    some current ≠ apart ∧ (backend.db.fetchMember current target).isOk

/-- The server that an event takes the bot out of. -/
def CompanionEvent.takesFrom : CompanionEvent → Option String
  | invite .. => none
  | leave _ serverId | kick _ _ serverId | ban _ _ serverId _ => some serverId

section Events

variable {readSeconds : Timestamp → Option Timestamp} {describe : DataBanCreate → String}
variable {now : Timestamp} {user : User} {target serverId : String} {backend : Backend}
variable {services : VoiceServices}

theorem Backend.PlacedApart.of_eq {backend' : Backend} {apart : Option String}
    (placed : backend.PlacedApart target apart)
    (bots : backend'.bots.find target = backend.bots.find target)
    (members : ∀ current, some current ≠ apart →
      backend'.db.fetchMember current target = backend.db.fetchMember current target) :
    backend'.PlacedApart target apart := by
  intro bot current found bound
  obtain ⟨other, member⟩ := placed bot current (bots ▸ found) bound
  exact ⟨other, members current other ▸ member⟩

/-- The member document of another server stays, and so does the record of the
bot. -/
theorem removeMember_placedApart (now : Timestamp) (serverId userId : String) :
    Keeps (Backend.PlacedApart target (some serverId))
      (removeMember now { server := serverId, user := userId }) := by
  refine Keeps.bind ?_ fun _ => ?_
  · intro backend placed
    refine placed.of_eq rfl fun current other => ?_
    have ne : ({ server := current, user := target } : MemberCompositeKey) ≠
        { server := serverId, user := userId } := by
      rintro ⟨⟩
      exact other rfl
    have kept := softDeleteMember_keeps (P := fun db => db.serverMembers.find _ =
      backend.db.serverMembers.find _) now _
        (fun db _ held => (MongoDb.find_dropMember_ne db ne).trans held) backend.db rfl
    rw [MongoDb.fetchMember, MongoDb.fetchMember, ofRoute, kept]
  · refine (readOnly_attempt _).result.keeps.bind fun fetched => ?_
    cases fetched with
    | error e => exact keeps_pure ()
    | ok bot =>
      apply Keeps.onlyIf
      apply keeps_write
      rintro backend _ placed ⟨⟩
      refine placed.of_eq ?_ fun _ _ => rfl
      by_cases same : target = bot.id
      · rw [same, Backend.updateBotJoinedServer, Collection.find_update]
        cases backend.bots.find bot.id <;> rfl
      · rw [Backend.updateBotJoinedServer, Collection.find_update_ne same]

theorem removeFromCall_placedApart (userId serverId : String) {apart : Option String} :
    Keeps (Backend.PlacedApart target apart) (removeFromCall services userId serverId) := by
  intro backend placed
  have quiet : Quiet (removeFromCall services userId serverId) := by
    refine (quiet_readVoice _).bind fun channel => ?_
    cases channel with
    | none => exact quiet_pure ()
    | some channelId => exact removeUserFromVoiceChannel_quiet services channelId userId
  exact placed.of_eq (by rw [(quiet backend).bots]) fun _ _ => by rw [(quiet backend).db]

section Keeping

variable {α : Type} {P : Backend → Prop}

theorem moderatedServer_keeps {f : Server × DatabasePermissionQuery → Task α}
    {permission : ChannelPermission}
    (rest : ∀ server query, server.id = serverId → Keeps P (f (server, query))) :
    Keeps P (ofRoute (moderatedServer now user serverId target permission) >>= f) := by
  intro backend held
  apply Outcome.readOnly_ran_bind (Q := fun _ => P)
    (ofRoute_readOnly (moderatedServer_readOnly _ _ _ _ _)) _ fun _ => held
  rintro ⟨server, query⟩ moderated
  exact rest server query (moderatedServer_id (of_ofRoute_eq moderated).1) backend held

theorem fetchMember_keeps {f : Member → Task α}
    (rest : ∀ member, member.id = { server := serverId, user := target } → Keeps P (f member)) :
    Keeps P (ofRoute (fetch fun db => db.fetchMember serverId target) >>= f) := by
  intro backend held
  apply Outcome.fetched_bind (Q := fun _ => P) _ fun _ => held
  intro member fetched
  exact rest member (MongoDb.fetchMember_id fetched) backend held

end Keeping

theorem kickMember_placedApart (user : User) :
    Keeps (Backend.PlacedApart target (some serverId))
      (kickMember services user serverId target) := by
  refine moderatedServer_keeps fun server query same => ?_
  subst same
  refine fetchMember_keeps fun member id => ?_
  rw [id]
  refine (ofRoute_readOnly (ensureBelow_readOnly _ _)).keeps.bind fun _ => ?_
  exact (removeMember_placedApart _ _ _).bind fun _ => removeFromCall_placedApart _ _

theorem banUser_placedApart (user : User) (data : DataBanCreate) :
    Keeps (Backend.PlacedApart target (some serverId))
      (banUser describe services user serverId target data) := by
  refine (readOnly_ensure _ _).keeps.bind fun _ => ?_
  refine moderatedServer_keeps fun server query same => ?_
  subst same
  intro backend placed
  apply Outcome.readOnly_ran_bind (Q := fun _ => Backend.PlacedApart target (some server.id))
    (ofRoute_readOnly (readOnly_attempt _)).result _ fun _ => placed
  intro fetched read
  refine Keeps.bind ?_ (fun _ => ServerBan.create_keeps _ _ _ fun _ _ held => held) backend placed
  cases fetched with
  | error e => exact keeps_pure ()
  | ok member =>
    have found : backend.db.fetchMember server.id target = .ok member :=
      mapError_eq_ok.mp (congrArg Prod.fst (of_ofRoute_eq (of_result_eq read)).1)
    rw [removeBanned, MongoDb.fetchMember_id found]
    refine (ofRoute_readOnly (ensureBelow_readOnly _ _)).keeps.bind fun _ => ?_
    exact (removeMember_placedApart _ _ _).bind fun _ => removeFromCall_placedApart _ _

/-- A bot for which no server is recorded is recorded where it is added. -/
theorem addBot_placed {bot : BotDocument} {botUser : User}
    (found : backend.bots.find target = some bot) (unbound : bot.boundServer = none)
    (account : botUser.id = target) (server : Server) :
    Outcome (addBot readSeconds now bot botUser server) backend
      fun _ backend' => backend'.PlacedApart target none := by
  have key : bot.id = target := (Collection.key_of_find found : bot.key = target)
  have kept : ∀ db : MongoDb, Backend.PlacedApart target none { backend with db } := by
    intro db bot' current found' bound
    cases found.symm.trans found'
    cases unbound.symm.trans bound
  apply Outcome.result_bind (Outcome.intro fun _ _ read => read)
  intro created middle read
  rw [createMember_run] at read
  obtain ⟨ran, same⟩ := of_ofRoute_eq read
  cases created with
  | error e =>
    rw [same]
    exact kept _
  | ok member =>
    refine Outcome.bind (R := fun _ => Backend.PlacedApart target none) ?_
      (fun _ _ placed => placed) fun _ _ placed => placed
    apply Outcome.onlyIf
    · intro _ bot' current recorded bound
      have written : bot' = bot.withJoinedServer (some server.id) := by
        change (middle.updateBotJoinedServer bot.id _).bots.find target = some bot' at recorded
        rw [Backend.updateBotJoinedServer, key, same, Collection.find_update, found] at recorded
        exact (Option.some.inj recorded).symm
      have current : current = server.id := by
        rw [written, BotDocument.boundServer] at bound
        split at bound
        · exact (Option.some.inj bound).symm
        · cases bound
      have joined := (Member.create_ok ran).2.2
      rw [account] at joined
      refine ⟨Option.some_ne_none _, ?_⟩
      rw [current]
      exact joined ▸ rfl
    · intro _
      rw [same]
      exact kept _

/-- An invite adds a companion without a server only, and records the server. -/
theorem inviteBot_placed (now : Timestamp) (user : User) (serverId : String) :
    Keeps (Backend.PlacedApart target none) (inviteBot readSeconds now user target serverId) := by
  intro backend placed
  change Outcome (inviteBot readSeconds now user target serverId) backend
    fun _ backend' => backend'.PlacedApart target none
  apply Outcome.ensure_bind _ fun _ => placed
  intro _
  apply Outcome.attempt_mapError_bind _ fun _ => placed
  intro bot fetched
  have found : backend.bots.find target = some bot := orNotFound_eq_ok.mp fetched
  have key : bot.id = target := (Collection.key_of_find found : bot.key = target)
  apply Outcome.ensure_bind _ fun _ => placed
  intro _
  apply Outcome.fetched_bind _ fun _ => placed
  intro botUser account
  have userId : botUser.id = bot.id := Collection.key_of_find (orNotFound_eq_ok.mp account)
  apply Outcome.fetched_bind _ fun _ => placed
  intro server _
  split
  · exact placed
  cases bound : bot.boundServer with
  | some current =>
    obtain ⟨_, member⟩ := placed bot current found bound
    have refused : checkCompanionLimit bot backend =
        (.error (companionServerLimit bot.id), backend) := by
      rw [checkCompanionLimit_run bound, if_pos (key ▸ member)]
    rw [inviteToServer, Outcome, bind_of_error refused]
    exact placed
  | none =>
    rw [inviteToServer, checkCompanionLimit, bound]
    apply Outcome.readOnly_bind (ofRoute_readOnly (readOnly_attempt _)) _ fun _ => placed
    intro _
    apply Outcome.readOnly_bind (ofRoute_readOnly (readOnly_attempt _)) _ fun _ => placed
    intro _
    exact addBot_placed found bound (userId.trans key) server

/-- The bot stays where it is recorded, unless it is removed from there. -/
theorem CompanionEvent.run_placed (event : CompanionEvent)
    (placed : backend.PlacedApart target event.takesFrom) :
    (event.run readSeconds describe target backend).2.PlacedApart target none := by
  have kept : (event.run readSeconds describe target backend).2.PlacedApart target
      event.takesFrom := by
    cases event with
    | invite now user serverId => exact inviteBot_placed now user serverId backend placed
    | kick services user serverId => exact kickMember_placedApart user backend placed
    | ban services user serverId data =>
      exact ((banUser_placedApart user data).bind fun _ => keeps_pure _) backend placed
    | leave now serverId =>
      refine fetchMember_keeps (fun member id => ?_) backend placed
      rw [id]
      exact removeMember_placedApart now serverId target
  intro bot current found bound
  exact ⟨Option.some_ne_none current, (kept bot current found bound).2⟩

end Events

/-- Whatever the invites and removals that a bot has been through, an invite
that succeeds makes it a member, and one that it may follow succeeds, exactly if
the server is not recorded without the bot being a member there and a document
that is left of the bot can be taken back. The first is the case after a run
from a state where the bot is a member of the server that is recorded, if no
event removes it from the server that is recorded at the time. -/
theorem companion_placed_iff (readSeconds : Timestamp → Option Timestamp)
    (describe : DataBanCreate → String) (target : String) (start : Backend)
    (events : List CompanionEvent) (now : Timestamp) (user : User) (serverId : String) :
    (Placement readSeconds now user target serverId
        (session (CompanionEvent.run readSeconds describe target) events start) ↔
      Placeable readSeconds now user target serverId
        (session (CompanionEvent.run readSeconds describe target) events start)) ∧
    (start.PlacedApart target none →
      Along (CompanionEvent.run readSeconds describe target)
        (fun backend event => ∀ bot, backend.bots.find target = some bot →
          bot.boundServer = none ∨ bot.boundServer ≠ event.takesFrom) start events →
      (session (CompanionEvent.run readSeconds describe target) events start).PlacedApart
        target none) := by
  refine ⟨⟨Placement.placeable, Placeable.placement⟩, fun placed along => ?_⟩
  refine along.session_invariant placed fun backend event placed spares => ?_
  refine event.run_placed fun bot current found bound => ⟨?_, (placed bot current found bound).2⟩
  obtain unbound | other := spares bot found
  · cases unbound.symm.trans bound
  · exact bound ▸ other

/-! The owner of a server invites a companion, which leaves, and invites it again. -/

def companionBot : BotDocument where
  id := "companion"
  owner := "owner"
  isPublic := false
  botType := .aiCompanion

def companionBackend : Backend :=
  { callBackend with
    db := { callBackend.db with
      users := .ofDocuments [{ id := "owner" },
        { id := "companion", bot := some { owner := "owner" } }] }
    bots := .ofDocuments [companionBot] }

def inviteCompanion : CompanionEvent := .invite 0 { id := "owner" } "server"

def leftCompanion : Backend :=
  session (CompanionEvent.run some (fun _ => "") "companion")
    [inviteCompanion, .leave 0 "server"] companionBackend

/-- A companion has left its server, and the record of the server stays. The
second invite succeeds, and the companion is not in the server. -/
theorem companion_not_readmitted :
    ((inviteCompanion.run some (fun _ => "") "companion" companionBackend).2.db.fetchMember "server"
        "companion").isOk ∧
      (inviteBot some 0 { id := "owner" } "companion" "server" leftCompanion).1 = .ok () ∧
      (inviteBot some 0 { id := "owner" } "companion" "server" leftCompanion).2.db.fetchMember
        "server" "companion" = .error .notFound ∧
      ¬Placement some 0 { id := "owner" } "companion" "server" leftCompanion := by
  refine ⟨rfl, rfl, rfl, fun placement => ?_⟩
  have member := placement.placed rfl
  cases member

end Company
