import CompanyBackend.Library.Chunks
import CompanyBackend.Members.Queries
import CompanyBackend.Messages.Acknowledgement
import CompanyBackend.Presence.Sessions

/-!
# Mass mentions in the push daemon

A batch of messages that mention everyone or roles arrives with the server it is for. The members
are read in chunks. If everyone is mentioned, all of a chunk get a mention in their unread channels
and those who are offline get a push notification. If roles are mentioned, the members with one of
the roles are read, the permissions of a chunk are calculated at once, and those who can see the
channel and are offline get a push notification.

The daemon works through a schedule of pairs of a message and a chunk, which is known from the
start: a batch that is handled has had the effect of the whole schedule, and one that fails that of
a part of it.

The queues of the three services take what is published for them; what they make of it is not
modelled.
-/

namespace Company

open Request Chunks BulkDatabasePermissionQuery Outcome List MemberDocument

structure WebPushSubscription where
  endpoint : String
  p256dh : String
  auth : String

/-- A session of the authentication service. -/
structure AuthSession where
  id : String
  userId : String
  subscription : Option WebPushSubscription := none

inductive PushQueue where
  | apn | fcm | vapid
  deriving DecidableEq, Repr

structure PayloadToService where
  queue : PushQueue
  notification : PushNotification
  token : String
  userId : String
  sessionId : String
  extras : List (String × String) := []

def WebPushSubscription.queue (subscription : WebPushSubscription) : PushQueue :=
  if subscription.endpoint == "apn" then .apn
  else if subscription.endpoint == "fcm" then .fcm
  else .vapid

def WebPushSubscription.extras (subscription : WebPushSubscription) : List (String × String) :=
  if subscription.queue = .vapid then
    [("p265dh", subscription.p256dh), ("endpoint", subscription.endpoint)]
  else []

def AuthSession.payload (push : PushNotification) (session : AuthSession)
    (subscription : WebPushSubscription) : PayloadToService where
  queue := subscription.queue
  notification := push
  token := subscription.auth
  userId := session.userId
  sessionId := session.id
  extras := subscription.extras

structure MassMessageSentPayload where
  notifications : List PushNotification
  serverId : String

structure MassMentionServices where
  now : Timestamp
  /-- Redis can be reached. -/
  connected : Bool := true
  upserted : UpsertedUser
  massMentionChunkSize : Nat
  /-- A round that reads nothing would never come to the end of the members. -/
  reads : 0 < massMentionChunkSize

structure PushBackend where
  db : MongoDb
  unreads : ChannelUnreads
  redis : Redis
  sessions : List AuthSession
  published : List PayloadToService := []

abbrev PushTask (α : Type) := Request PushBackend Failure α

/-- What is published for the sessions of some users that have a
subscription. -/
def PushBackend.notices (backend : PushBackend) (push : PushNotification) (users : List String) :
    List PayloadToService :=
  backend.sessions.filterMap fun session =>
    if users.contains session.userId then session.subscription.map (session.payload push) else none

def fireNotificationForUsers (push : PushNotification) (users : List String) : PushTask Unit :=
  write fun backend => .ok
    { backend with published := backend.published ++ backend.notices push users }

namespace PushNotification

variable (push : PushNotification)

def mentionsEveryone : Bool :=
  MessageFlagsValue.has (push.message.flags.getD 0) .mentionsEveryone

def existingMentions : List String := push.message.mentions.getD []

end PushNotification

variable (services : MassMentionServices) (query : BulkDatabasePermissionQuery)

def PushBackend.isListedOnline (backend : PushBackend) (userId : String) : Bool :=
  services.connected && decide (userId ∈ backend.redis.smembers onlineSet)

def PushBackend.offline (connected : Bool) (backend : PushBackend) (userIds : List String) :
    List String :=
  userIds.filter fun id => !decide (id ∈ filterOnline connected userIds backend.redis)

def everyoneTargets (push : PushNotification)
    (backend : PushBackend) (userIds : List String) : List String :=
  (backend.offline services.connected userIds).filter fun id => !push.existingMentions.contains id

def viewingMembers (push : PushNotification) (seen : HashMap String Bool) : List String :=
  seen.entries.filterMap fun entry =>
    if entry.2 && !push.existingMentions.contains entry.1 then some entry.1 else none

def everyoneChunk (push : PushNotification) (chunk : List MemberDocument) : PushTask Unit := do
  let members ← attempt fun _ => drainMembers chunk
  let userIds := members.map fun member => member.id.user
  -- The id that is added is the one of the channel.
  write fun backend => .ok
    { backend with
      unreads := backend.unreads.addMentionToManyUnreads services.upserted push.channel.id userIds
        [push.channel.id] }
  let targets ← attempt fun backend => .ok (everyoneTargets services push backend userIds)
  fireNotificationForUsers push targets

def roleChunk (push : PushNotification) (chunk : List MemberDocument) : PushTask Unit := do
  let members ← attempt fun _ => drainMembers chunk
  let seen ← attempt fun _ => Route.ofQuery <|
    (membersCanSeeChannel.run (query.withMembers members)).map Prod.fst
  let targets ← attempt fun backend =>
    .ok (backend.offline services.connected (viewingMembers push seen))
  fireNotificationForUsers push targets

/-- The members that are read for a message, as they are stored. -/
def MongoDb.mentioned (db : MongoDb) (serverId : String) (push : PushNotification) :
    List MemberDocument :=
  if push.mentionsEveryone then db.matching (MemberDocument.ofServer serverId)
  else
    match push.message.roleMentions with
    | some roles =>
      db.matching fun document => document.ofServer serverId && document.hasRole roles
    | none => []

/-- A message that mentions neither everyone nor roles is passed over. -/
def consumePush (serverId : String)
    (query : BulkDatabasePermissionQuery) (push : PushNotification) : PushTask Unit :=
  if push.mentionsEveryone then do
    let documents ← attempt fun backend => .ok (backend.db.mentioned serverId push)
    forEach (everyoneChunk services push) (chunks services.massMentionChunkSize documents)
  else
    match push.message.roleMentions with
    | some _ => do
      let documents ← attempt fun backend => .ok (backend.db.mentioned serverId push)
      forEach (roleChunk services query push) (chunks services.massMentionChunkSize documents)
    | none => return ()

def PushBackend.bulkQuery (backend : PushBackend) (services : MassMentionServices) (server : Server)
    (channel : Channel) : BulkDatabasePermissionQuery :=
  (BulkDatabasePermissionQuery.new backend.db services.now server).withChannel channel

/-- The query is made once, for the channel of the first message. -/
def massMentionQuery (serverId channelId : String) : PushTask BulkDatabasePermissionQuery :=
  attempt fun backend =>
    match backend.db.fetchServer serverId with
    | .error _ => .error (.panic "called `Result::unwrap()` on an `Err` value")
    | .ok server =>
      match backend.db.fetchChannel channelId with
      | .error _ => .error (.panic "Valid channel id")
      | .ok channel => .ok (backend.bulkQuery services server channel)

/-- `MassMessageConsumer::consume_event` -/
def consumeEvent (payload : MassMessageSentPayload) : PushTask Unit :=
  match payload.notifications with
  | [] => return ()
  | first :: _ => do
    let query ← massMentionQuery services payload.serverId first.channel.id
    forEach (consumePush services payload.serverId query) payload.notifications

/-! ## The schedule -/

/-- Who gets a notification for a message, of a chunk. -/
def PushBackend.targets
    (backend : PushBackend) (push : PushNotification) (members : List Member) : List String :=
  if push.mentionsEveryone then
    everyoneTargets services push backend (members.map fun member => member.id.user)
  else
    match membersCanSeeChannel.run (query.withMembers members) with
    | .ok (seen, _) => backend.offline services.connected (viewingMembers push seen)
    | .error _ => []

/-- What is done for a message and a chunk. -/
def PushBackend.handle
    (backend : PushBackend) (step : PushNotification × List MemberDocument) : PushBackend :=
  let members := step.2.filterMap MemberDocument.toMember
  { backend with
    unreads :=
      if step.1.mentionsEveryone then
        backend.unreads.addMentionToManyUnreads services.upserted step.1.channel.id
          (members.map fun member => member.id.user) [step.1.channel.id]
      else backend.unreads
    published := backend.published ++
      backend.notices step.1 (backend.targets services query step.1 members) }

/-- The chunks in which the members are read for a message. -/
def MongoDb.steps (db : MongoDb) (size : Nat) (serverId : String) (push : PushNotification) :
    List (PushNotification × List MemberDocument) :=
  if push.mentionsEveryone || push.message.roleMentions.isSome then
    (chunks size (db.mentioned serverId push)).map fun chunk => (push, chunk)
  else []

/-- What is left to be done for a batch at its start. -/
def PushBackend.schedule (backend : PushBackend) (services : MassMentionServices)
    (payload : MassMessageSentPayload) : List (PushNotification × List MemberDocument) :=
  payload.notifications.flatMap (backend.db.steps services.massMentionChunkSize payload.serverId)

open PushBackend MongoDb

variable {services : MassMentionServices} {payload : MassMessageSentPayload}
variable {push : PushNotification} {backend : PushBackend}

section Schedule

variable {query : BulkDatabasePermissionQuery} {chunk : List MemberDocument}

theorem drainMembers_eq_ok {documents : List MemberDocument} {members : List Member}
    (drained : drainMembers documents = .ok members) : members = documents.filterMap toMember := by
  rw [drainMembers_eq] at drained
  split at drained
  · exact (Except.ok.inj drained).symm
  · cases drained

theorem everyoneChunk_edits (everyone : push.mentionsEveryone) :
    Outcome (everyoneChunk services push chunk) backend
      (Edits (handle services query) [(push, chunk)] backend) := by
  apply attempt_bind
  · intro members drained
    change _ = backend.handle services query (push, chunk)
    rw [handle, targets, everyone, drainMembers_eq_ok drained]
    rfl
  · intro e _
    exact ⟨[], nil_subset _, rfl⟩

theorem roleChunk_edits (roles : push.mentionsEveryone = false) :
    Outcome (roleChunk services query push chunk) backend
      (Edits (handle services query) [(push, chunk)] backend) := by
  apply attempt_bind
  · intro members drained
    apply attempt_bind
    · intro seen answered
      change _ = backend.handle services query (push, chunk)
      rw [handle, targets, roles, ← drainMembers_eq_ok drained]
      have ran := mapError_eq_ok.mp answered
      cases calculated : membersCanSeeChannel.run
          (query.withMembers members) with
      | error e =>
        rw [calculated] at ran
        cases ran
      | ok value =>
        rw [calculated] at ran
        cases ran
        rfl
    · intro e _
      exact ⟨[], nil_subset _, rfl⟩
  · intro e _
    exact ⟨[], nil_subset _, rfl⟩

/-- The members are gone through chunk by chunk. -/
theorem forEach_chunk_edits {action : List MemberDocument → PushTask Unit}
    (each : ∀ chunk backend, Outcome (action chunk) backend
      (Edits (handle services query) [(push, chunk)] backend))
    (chunks : List (List MemberDocument)) :
    Outcome (forEach action chunks) backend (Edits (handle services query)
      (chunks.map fun chunk => (push, chunk)) backend) := by
  rw [map_eq_flatMap]
  exact forEach_edits (P := fun _ => True) (fun _ _ _ => trivial)
    (fun chunk backend _ => each chunk backend) trivial

theorem consumePush_edits (serverId : String) (push : PushNotification) (backend : PushBackend) :
    Outcome (consumePush services serverId query push) backend
      (Edits (handle services query)
        (backend.db.steps services.massMentionChunkSize serverId push) backend) := by
  rw [consumePush, steps]
  cases everyone : push.mentionsEveryone with
  | true =>
    apply attempt_ok_bind rfl
    exact forEach_chunk_edits (fun _ _ => everyoneChunk_edits everyone) _
  | false =>
    cases push.message.roleMentions with
    | none => exact (rfl : backend = _)
    | some roles =>
      apply attempt_ok_bind rfl
      exact forEach_chunk_edits (fun _ _ => roleChunk_edits everyone) _

/-- A batch is worked off along its schedule, unless its server or its channel
is not found. -/
theorem consumeEvent_edits {first : PushNotification}
    {rest : List PushNotification} (batch : payload.notifications = first :: rest) :
    (∃ e, consumeEvent services payload backend = (.error e, backend)) ∨
      ∃ server channel, backend.db.servers.find payload.serverId = some server ∧
        backend.db.channels.find first.channel.id = some channel ∧
        Outcome (consumeEvent services payload) backend
          (Edits (handle services (backend.bulkQuery services server channel))
            (backend.schedule services payload) backend) := by
  rw [consumeEvent, batch]
  cases servers : backend.db.servers.find payload.serverId with
  | none =>
    refine .inl ⟨.panic "called `Result::unwrap()` on an `Err` value", bind_of_error ?_⟩
    rw [massMentionQuery, attempt, fetchServer, servers]
    rfl
  | some server =>
    cases channels : backend.db.channels.find first.channel.id with
    | none =>
      refine .inl ⟨.panic "Valid channel id", bind_of_error ?_⟩
      rw [massMentionQuery, attempt, fetchServer, servers, fetchChannel, channels]
      rfl
    | some channel =>
      refine .inr ⟨server, channel, rfl, rfl, ?_⟩
      have queried : massMentionQuery services payload.serverId first.channel.id backend =
          (.ok (backend.bulkQuery services server channel), backend) := by
        rw [massMentionQuery, attempt, fetchServer, servers, fetchChannel, channels]
        rfl
      apply ran_bind queried
      rw [schedule, batch]
      refine forEach_edits (P := fun backend' => backend'.db = backend.db) ?_ ?_ rfl
      · intro backend' step same
        exact same
      · intro push backend' same
        rw [← same]
        exact consumePush_edits payload.serverId push backend'

end Schedule

section Members

variable {db : MongoDb} {serverId : String} {size : Nat}

def memberUsers (documents : List MemberDocument) : List String :=
  (documents.filterMap MemberDocument.toMember).map fun member => member.id.user

theorem memberUsers_flatten (chunks : List (List MemberDocument)) :
    memberUsers chunks.flatten = (chunks.map memberUsers).flatten := by
  rw [memberUsers, filterMap_flatten, map_flatten, List.map_map]
  rfl

theorem memberUsers_sublist (documents : List MemberDocument) :
    (memberUsers documents).Sublist (documents.map fun document => document.id.user) := by
  induction documents with
  | nil => exact .slnil
  | cons document documents ih =>
    rw [memberUsers, filterMap_cons, map_cons]
    cases decoded : document.toMember with
    | none => exact ih.cons _
    | some member =>
      rw [← (toMember_eq_some decoded).1]
      exact ih.cons_cons _

variable {document : MemberDocument}

theorem mem_mentioned (read : document ∈ db.mentioned serverId push) :
    document ∈ db.serverMembers.documents ∧ document.id.server = serverId := by
  rw [mentioned] at read
  split at read
  · simpa [matching, ofServer] using read
  · split at read
    · simp only [matching, ofServer, mem_filter, Bool.and_eq_true, beq_iff_eq] at read
      exact ⟨read.1, read.2.1⟩
    · cases read

theorem mentioned_sublist (db : MongoDb) (serverId : String) (push : PushNotification) :
    (db.mentioned serverId push).Sublist db.serverMembers.documents := by
  rw [mentioned]
  split
  · exact filter_sublist
  · split
    · exact filter_sublist
    · exact nil_sublist _

/-- The members that are read for a message are distinct users, as they are of
one server. -/
theorem nodup_mentioned (db : MongoDb) (serverId : String) (push : PushNotification) :
    (memberUsers (db.mentioned serverId push)).Nodup := by
  apply (memberUsers_sublist _).nodup
  have keys : ((db.mentioned serverId push).map MemberDocument.id).Nodup :=
    ((mentioned_sublist db serverId push).map _).nodup db.serverMembers.nodup_keys
  apply (nodup_map_iff_inj_on (List.Nodup.of_map _ keys)).mpr
  intro document read document' read' sameUser
  apply inj_on_of_nodup_map keys read read'
  have sameServer := (mem_mentioned read).2.trans (mem_mentioned read').2.symm
  have same : (⟨document.id.server, document.id.user⟩ : MemberCompositeKey) =
      ⟨document'.id.server, document'.id.user⟩ :=
    congrArg₂ MemberCompositeKey.mk sameServer sameUser
  exact same

theorem nodup_chunks (positive : 0 < size) :
    ((chunks size (db.mentioned serverId push)).map memberUsers).flatten.Nodup := by
  rw [← memberUsers_flatten, flatten_chunks positive]
  exact nodup_mentioned db serverId push

variable {step : PushNotification × List MemberDocument}

theorem mem_steps :
    step ∈ db.steps size serverId push ↔
      (push.mentionsEveryone || push.message.roleMentions.isSome) ∧ step.1 = push ∧
        step.2 ∈ chunks size (db.mentioned serverId push) := by
  rw [steps]
  split
  next mentions =>
    rw [List.mem_map]
    constructor
    · rintro ⟨chunk, read, rfl⟩
      exact ⟨mentions, rfl, read⟩
    · rintro ⟨_, rfl, read⟩
      exact ⟨step.2, read, rfl⟩
  next none =>
    constructor
    · rintro ⟨⟩
    · rintro ⟨mentions, _⟩
      exact absurd mentions none

/-- Nobody is read for a message without a mass mention. -/
theorem mentions_of_mem_mentioned (read : document ∈ db.mentioned serverId push) :
    (push.mentionsEveryone || push.message.roleMentions.isSome) := by
  rw [mentioned] at read
  split at read
  next everyone => rw [everyone, Bool.true_or]
  next =>
    split at read
    next roles => simp [roles]
    next => cases read

theorem mem_schedule :
    step ∈ backend.schedule services payload ↔ step.1 ∈ payload.notifications ∧
      (step.1.mentionsEveryone || step.1.message.roleMentions.isSome) ∧
      step.2 ∈ chunks services.massMentionChunkSize
        (backend.db.mentioned payload.serverId step.1) := by
  simp only [schedule, mem_flatMap, mem_steps]
  constructor
  · rintro ⟨push, listed, mentions, rfl, read⟩
    exact ⟨listed, mentions, read⟩
  · rintro ⟨listed, mentions, read⟩
    exact ⟨step.1, listed, mentions, rfl, read⟩

/-- The members of a step are members that are read for its message. -/
theorem mentioned_of_mem_schedule (scheduled : step ∈ backend.schedule services payload)
    (inside : document ∈ step.2) : document ∈ backend.db.mentioned payload.serverId step.1 := by
  have whole := flatten_chunks services.reads (backend.db.mentioned payload.serverId step.1)
  rw [← whole]
  exact mem_flatten_of_mem (mem_schedule.mp scheduled).2.2 inside

/-- All members that are read for a message have a step. -/
theorem exists_step_of_mentioned (listed : push ∈ payload.notifications)
    (read : document ∈ backend.db.mentioned payload.serverId push) :
    ∃ chunk, (push, chunk) ∈ backend.schedule services payload ∧ document ∈ chunk := by
  have whole := flatten_chunks services.reads (backend.db.mentioned payload.serverId push)
  have inside := read
  rw [← whole, mem_flatten] at inside
  obtain ⟨chunk, chunkRead, inside⟩ := inside
  exact ⟨chunk, mem_schedule.mpr ⟨listed, mentions_of_mem_mentioned read, chunkRead⟩, inside⟩

theorem nodup_of_mem_schedule (scheduled : step ∈ backend.schedule services payload) :
    (memberUsers step.2).Nodup :=
  (nodup_flatten.mp (nodup_chunks services.reads)).1 _
    (mem_map_of_mem (mem_schedule.mp scheduled).2.2)

end Members

def staffChannel : TextChannel where
  id := "channel"
  server := "server"
  rolePermissions := HashMap.ofPairs
    [("guest", { a := 0, d := ChannelPermission.viewChannel.toU64.toInt64 })]

/-- The guest has an unread channel, is offline and has subscribed to
notifications. -/
def staffBackend : PushBackend where
  db := { sampleStore with channels := .ofDocuments [.textChannel staffChannel] }
  unreads := .ofDocuments [{ id := { channel := "channel", user := "guest-user" } }]
  redis := {}
  sessions :=
    [{ id := "session", userId := "guest-user",
       subscription := some { endpoint := "fcm", p256dh := "", auth := "token" } }]

theorem noneUpserted_listed (channel : String) (users : List String) (created : String)
    (upserted : (fun (_ : String) (_ : List String) => (none : Option String)) channel users =
      some created) : created ∈ users := by
  cases upserted

def staffServices : MassMentionServices where
  now := 0
  upserted := { user := fun _ _ => none, listed := noneUpserted_listed }
  massMentionChunkSize := 200
  reads := Nat.succ_pos 199

def staffPush (message : SentMessage) : MassMessageSentPayload where
  notifications := [{ message, channel := .textChannel staffChannel }]
  serverId := "server"

def everyoneMessage : SentMessage where
  id := "01H"
  channel := "channel"
  author := "staff-user"
  flags := some (finalFlags false true false)

end Company
