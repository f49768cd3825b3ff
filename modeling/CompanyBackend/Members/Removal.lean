import CompanyBackend.Voice.Calls

/-!
# Kicks and bans

The routes that remove a member: a kick, and a ban, which also keeps the user from coming back.
Both check that the member is below the moderator, delete the member document, release an AI
companion from its server, and take the user out of the call that they are in.

Removing a member asks the store to clear the server that an AI companion has joined. The
update is a partial one, and a partial update never clears a field.
-/

namespace Company

open Request

/-- Record which server a bot has joined. A field without a value is left out of
the update. -/
def BotDocument.withJoinedServer (serverId : Option String) (bot : BotDocument) : BotDocument :=
  { bot with joinedServerId := serverId <|> bot.joinedServerId }

theorem BotDocument.withJoinedServer_key (serverId : Option String) (bot : BotDocument) :
    (bot.withJoinedServer serverId).key = bot.key := rfl

variable (backend : Backend)

def Backend.updateBotJoinedServer (botId : String) (serverId : Option String) : Backend :=
  { backend with
    bots := backend.bots.update botId (.withJoinedServer serverId)
      (BotDocument.withJoinedServer_key serverId) }

def Backend.fetchBot (botId : String) : Result BotDocument :=
  orNotFound (backend.bots.find botId)

/-- An AI companion that is removed from the server it has joined is
released. -/
def releaseCompanion (id : MemberCompositeKey) : Task Unit := do
  match ← result (attempt fun backend => (backend.fetchBot id.user).mapError .error) with
  | .ok bot =>
    onlyIf (bot.botType == .aiCompanion && bot.joinedServerId == some id.server) <|
      write fun backend => .ok (backend.updateBotJoinedServer bot.id none)
  | .error _ => return ()

def removeMember (now : Timestamp) (id : MemberCompositeKey) : Task Unit := do
  Task.ofRoute (softDeleteMember now id)
  releaseCompanion id

variable (services : VoiceServices)

/-- Take a user out of the call that they are in on a server. -/
def removeFromCall (userId serverId : String) : Task Unit := do
  match ← Task.readVoice (·.getUserVoiceChannelInServer userId serverId) with
  | some channelId => removeUserFromVoiceChannel services channelId userId
  | none => return ()

def moderatedServer (now : Timestamp) (user : User) (serverId targetId : String)
    (permission : ChannelPermission) : Route (Server × DatabasePermissionQuery) := do
  let server ← Route.fetch fun db => db.fetchServer serverId
  ensure (targetId != user.id) (.error .cannotRemoveYourself)
  ensure (targetId != server.owner) (.error .invalidOperation)
  let (permissions, query) ← Route.ask
    (fun db => (DatabasePermissionQuery.new db now user).withServer server)
    PermissionQuery.calculateServerPermissions
  Route.lift (permissions.throwIfLackingChannelPermission permission)
  return (server, query)

def ensureBelow (query : DatabasePermissionQuery) (member : Member) : Route Unit := do
  let rank ← Route.memberRank query
  match query.server with
  | some server => ensure (!decide (member.getRanking server ≤ rank)) (.error .notElevated)
  | none => fail (.panic "called `Option::unwrap()` on a `None` value")

/-- `DELETE /servers/<target>/members/<member>`. The voice subsystem is asked
about `target`, which is the server. -/
def kickMember (user : User) (target memberId : String) : Task Unit := do
  let (server, query) ← Task.ofRoute
    (moderatedServer services.now user target memberId .kickMembers)
  let member ← Task.ofRoute (Route.fetch fun db => db.fetchMember server.id memberId)
  Task.ofRoute (ensureBelow query member)
  removeMember services.now member.id
  removeFromCall services target server.id

structure DataBanCreate where
  reason : Option String := none
  deriving DecidableEq, Repr

def DataBanCreate.valid (data : DataBanCreate) : Bool := lengthWithin 0 1024 data.reason

def Backend.insertBan (ban : ServerBan) : Result Backend :=
  if (backend.bans.find ban.id).isSome then .error (.databaseError "insert_one" "server_bans")
  else .ok { backend with bans := backend.bans.insert ban }

def ServerBan.create (server : Server) (user : String) (reason : Option String) :
    Task ServerBan := do
  let ban : ServerBan := { id := { server := server.id, user }, reason }
  write fun backend => (backend.insertBan ban).mapError .error
  return ban

def Backend.fetchBan (serverId userId : String) : Result ServerBan :=
  orNotFound (backend.bans.find { server := serverId, user := userId })

/-- `Member::create`: the ban is looked up first. -/
def createMember (readSeconds : Timestamp → Option Timestamp) (now : Timestamp)
    (serverId userId : String) : Task Member := do
  let ban ← result (attempt fun backend => (backend.fetchBan serverId userId).mapError .error)
  Task.ofRoute (Member.create readSeconds now ban.isOk serverId userId)

def removeBanned (query : DatabasePermissionQuery) (server : Server)
    (target : String) : Except Failure Member → Task Unit
  | .ok member => do
    Task.ofRoute (ensureBelow query member)
    removeMember services.now member.id
    removeFromCall services target server.id
  | .error _ => return ()

/-- `PUT /servers/<server>/bans/<target>` -/
def banUser (describe : DataBanCreate → String) (services : VoiceServices) (user : User)
    (serverId target : String) (data : DataBanCreate) : Task ServerBan := do
  ensure data.valid (.error (.failedValidation (describe data)))
  let (server, query) ← Task.ofRoute (moderatedServer services.now user serverId target .banMembers)
  let fetched ← result (Task.ofRoute (Route.fetch fun db => db.fetchMember server.id target))
  removeBanned services query server target fetched
  ServerBan.create server target data.reason

/-- Nothing about calls has changed, and no channel. -/
structure Backend.SameCalls (backend backend' : Backend) : Prop where
  voice : backend'.voice = backend.voice
  issued : backend'.issued = backend.issued
  channels : backend'.db.channels = backend.db.channels

section Removing

variable {backend backend' backend'' : Backend} {services : VoiceServices} {user : User}

theorem Backend.SameCalls.refl (backend : Backend) : backend.SameCalls backend := ⟨rfl, rfl, rfl⟩

theorem Backend.SameCalls.trans (first : backend.SameCalls backend')
    (second : backend'.SameCalls backend'') : backend.SameCalls backend'' :=
  ⟨second.voice.trans first.voice, second.issued.trans first.issued,
    second.channels.trans first.channels⟩

/-- A member document is dropped, or nothing is written. -/
theorem softDeleteMember_keeps {P : MongoDb → Prop} (now : Timestamp) (id : MemberCompositeKey)
    (kept : ∀ db timeout, P db → P (db.dropMember now id timeout)) :
    Keeps P (softDeleteMember now id) := by
  have fetch : ReadOnly (result (Route.fetch fun db => db.fetchMember id.server id.user)) :=
    fun _ => rfl
  refine fetch.keeps.bind fun fetched => ?_
  cases fetched with
  | error e => exact (readOnly_fail _).keeps
  | ok member =>
    apply keeps_write
    rintro db _ held ⟨⟩
    exact kept db member.timeout held

theorem softDeleteMember_channels (now : Timestamp) (id : MemberCompositeKey)
    (channels : Collection String Channel Channel.id) :
    Keeps (fun db : MongoDb => db.channels = channels) (softDeleteMember now id) :=
  softDeleteMember_keeps now id fun db _ held =>
    MongoDb.dropMember_keeps (P := fun db => db.channels = channels) db fun _ => held

variable {P : Backend → Prop}

theorem releaseCompanion_keeps (id : MemberCompositeKey)
    (kept : ∀ (backend : Backend) bots, P backend → P { backend with bots }) :
    Keeps P (releaseCompanion id) := by
  refine (readOnly_attempt _).result.keeps.bind fun fetched => ?_
  cases fetched with
  | error e => exact (readOnly_pure ()).keeps
  | ok bot =>
    apply Keeps.onlyIf
    apply keeps_write
    rintro middle _ held ⟨⟩
    exact kept middle _ held

theorem releaseCompanion_sameCalls (id : MemberCompositeKey) (backend : Backend) :
    backend.SameCalls (releaseCompanion id backend).2 :=
  releaseCompanion_keeps id (fun _ _ same => same.trans ⟨rfl, rfl, rfl⟩) backend (.refl backend)

variable {now : Timestamp}

theorem removeMember_sameCalls {id : MemberCompositeKey} {r : Except Failure Unit}
    (ran : removeMember now id backend = (r, backend')) : backend.SameCalls backend' := by
  have kept : Keeps backend.SameCalls (removeMember now id) :=
    Keeps.bind
      (fun middle same => same.trans ⟨rfl, rfl, softDeleteMember_channels now id _ middle.db rfl⟩)
      fun _ middle same => same.trans (releaseCompanion_sameCalls id middle)
  have held := kept backend (.refl backend)
  rwa [ran] at held

theorem moderatedServer_readOnly (now : Timestamp) (user : User) (serverId targetId : String)
    (permission : ChannelPermission) :
    ReadOnly (moderatedServer now user serverId targetId permission) := by
  refine .read fun server => ?_
  refine (readOnly_ensure _ _).bind fun _ => ?_
  refine (readOnly_ensure _ _).bind fun _ => ?_
  refine .read fun permissions => ?_
  exact .read fun _ => readOnly_pure _

theorem ensureBelow_readOnly (query : DatabasePermissionQuery) (member : Member) :
    ReadOnly (ensureBelow query member) := by
  refine .read fun rank => ?_
  split
  · exact readOnly_ensure _ _
  · exact readOnly_fail _

open ServerBan

theorem ServerBan.create_keeps (server : Server) (target : String) (reason : Option String)
    (kept : ∀ (backend : Backend) bans, P backend → P { backend with bans }) :
    Keeps P (create server target reason) := by
  refine Keeps.bind ?_ fun _ => keeps_pure _
  apply keeps_write
  intro middle last held inserted
  have stored := mapError_eq_ok.mp inserted
  rw [Backend.insertBan] at stored
  split at stored
  · cases stored
  · cases stored
    exact kept middle _ held

theorem ServerBan.create_sameCalls {server : Server} {target : String} {reason : Option String}
    {r : Except Failure ServerBan} (ran : create server target reason backend = (r, backend')) :
    backend.SameCalls backend' := by
  have kept : Keeps backend.SameCalls (create server target reason) :=
    create_keeps server target reason fun _ _ same => same.trans ⟨rfl, rfl, rfl⟩
  exact kept.of_ran (.refl backend) ran

/-- The server of an accepted request is the one that it names. -/
theorem moderatedServer_id {serverId targetId : String} {db db' : MongoDb}
    {permission : ChannelPermission} {moderated : Server × DatabasePermissionQuery}
    (ran : moderatedServer now user serverId targetId permission db = (.ok moderated, db')) :
    moderated.1.id = serverId := by
  have outcome : Outcome (moderatedServer now user serverId targetId permission) db fun r _ =>
      ∀ moderated, r = .ok moderated → moderated.1.id = serverId := by
    have refused : ∀ (e : Failure) (moderated : Server × DatabasePermissionQuery),
        (.error e : Except Failure _) = .ok moderated → moderated.1.id = serverId := by
      rintro e _ ⟨⟩
    rw [moderatedServer]
    apply Outcome.fetch_bind _ refused
    intro server fetched
    apply Outcome.ensure_bind _ fun _ => refused _
    intro _
    apply Outcome.ensure_bind _ fun _ => refused _
    intro _
    apply Outcome.ask_any_bind _ refused
    intro permissions query _
    apply Outcome.lift_bind _ refused
    rintro _ _ _ ⟨⟩
    exact Collection.key_of_find (orNotFound_eq_ok.mp fetched)
  exact outcome.elim ran moderated rfl

/-- The call of the server itself is looked up. -/
theorem kickMember_ok {serverId memberId : String}
    (ran : kickMember services user serverId memberId backend = (.ok (), backend')) :
    ∃ middle, backend.SameCalls middle ∧
      removeFromCall services serverId serverId middle = (.ok (), backend') := by
  obtain ⟨⟨server, query⟩, moderated, ran⟩ :=
    Task.of_ofRoute_bind_eq_ok (moderatedServer_readOnly _ _ _ _ _) ran
  have same : server.id = serverId := moderatedServer_id moderated
  obtain ⟨member, _, ran⟩ := Task.of_ofRoute_bind_eq_ok (readOnly_attempt _) ran
  obtain ⟨_, _, ran⟩ := Task.of_ofRoute_bind_eq_ok (ensureBelow_readOnly query member) ran
  obtain ⟨_, middle, removed, ran⟩ := of_bind_eq_ok ran
  rw [same] at ran
  exact ⟨middle, removeMember_sameCalls removed, ran⟩

/-- A ban acts on the call of a member only. -/
theorem banUser_ok {describe : DataBanCreate → String} {serverId target : String}
    {data : DataBanCreate} {ban : ServerBan}
    (ran : banUser describe services user serverId target data backend = (.ok ban, backend')) :
    (∃ middle last, (backend.db.fetchMember serverId target).isOk ∧
        backend.SameCalls middle ∧ removeFromCall services target serverId middle = (.ok (), last) ∧
        last.SameCalls backend') ∨
      (backend.db.fetchMember serverId target).isOk = false ∧ backend.SameCalls backend' := by
  replace ran := (of_ensure_bind_eq_ok ran).2
  obtain ⟨⟨server, query⟩, moderated, rest⟩ :=
    Task.of_ofRoute_bind_eq_ok (moderatedServer_readOnly _ _ _ _ _) ran
  have same : server.id = serverId := moderatedServer_id moderated
  obtain ⟨_, _, read, rest⟩ := of_bind_eq_ok rest
  rw [← same]
  cases found : backend.db.fetchMember server.id target with
  | error e =>
    rw [result, Route.fetch, Task.ofRoute, attempt, found] at read
    cases read
    exact .inr ⟨rfl, create_sameCalls rest⟩
  | ok member =>
    rw [result, Task.fetch_run found] at read
    cases read
    obtain ⟨_, last, removed, created⟩ := of_bind_eq_ok rest
    obtain ⟨_, _, removed⟩ := Task.of_ofRoute_bind_eq_ok (ensureBelow_readOnly query member) removed
    obtain ⟨_, middle, removed, left⟩ := of_bind_eq_ok removed
    exact .inl ⟨middle, last, rfl, removeMember_sameCalls removed, left, create_sameCalls created⟩

end Removing

end Company
