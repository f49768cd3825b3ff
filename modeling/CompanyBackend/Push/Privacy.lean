import CompanyBackend.Push.MassMention

/-!
# Who is notified of a mass mention

A notification shows the text of a message, so it should only go to users who can view the channel.
The members with a mentioned role are filtered by the permissions that are calculated for them.
Where everyone is mentioned there is no filter, and the notification goes to all members who are
offline, whether they can view the channel or not.

The permissions for role mentions are those in the channel of the first message of a batch. In a
batch of one channel of the server they are the permissions of the member in that channel.
-/

namespace Company

open Request Chunks List

/-- The user can view the channel, as the permission calculation for one user
has it. -/
def MongoDb.CanView (db : MongoDb) (now : Timestamp) (channelId userId : String) : Prop :=
  ∃ user channel value, db.users.find userId = some user ∧
    db.channels.find channelId = some channel ∧ db.CalculatesChannel now user channel value ∧
    value.hasChannelPermission .viewChannel = true

namespace PushBackend

variable (services : MassMentionServices) (backend : PushBackend)

/-- The user has a session that can be notified. -/
def isSubscribed (userId : String) : Bool :=
  backend.sessions.any fun session => session.userId == userId && session.subscription.isSome

/-- The user is offline, is not named in the message and can be notified. -/
structure Reachable (push : PushNotification) (userId : String) : Prop where
  offline : backend.isListedOnline services userId = false
  unnamed : userId ∉ push.existingMentions
  subscribed : backend.isSubscribed userId

/-- The member can see the channel of the first message of the batch. -/
def SeesFirst (payload : MassMessageSentPayload) (member : Member) : Prop :=
  ∃ first ∈ payload.notifications.head?, ∃ server channel user,
    backend.db.servers.find payload.serverId = some server ∧
    backend.db.channels.find first.channel.id = some (.textChannel channel) ∧
    backend.db.users.find member.id.user = some user ∧
    (textChannelPermissions PermissionQuery.wipeUnlessViewable services.now server channel user
      (some member)).hasChannelPermission .viewChannel = true

end PushBackend

open PushBackend

variable {payload : MassMessageSentPayload} {services : MassMentionServices}
variable {query : BulkDatabasePermissionQuery} {channel : TextChannel} {member : Member}

section Targets

variable {backend : PushBackend} {push : PushNotification} {members : List Member} {userId : String}

theorem mem_offline {userIds : List String} :
    userId ∈ backend.offline services.connected userIds ↔
      userId ∈ userIds ∧ backend.isListedOnline services userId = false := by
  rw [offline, mem_filter]
  apply and_congr_right
  intro listed
  have some : userIds.isEmpty = false := isEmpty_eq_false_iff.mpr (ne_nil_of_mem listed)
  rw [filterOnline, some, isListedOnline]
  cases services.connected <;> simp [listed]

theorem mem_viewingMembers {seen : HashMap String Bool} :
    userId ∈ viewingMembers push seen ↔
      seen.lookup userId = some true ∧ userId ∉ push.existingMentions := by
  rw [viewingMembers, mem_filterMap, ← HashMap.mem_entries_iff]
  constructor
  · rintro ⟨⟨id, views⟩, listed, kept⟩
    simp only [Option.ite_none_right_eq_some, Bool.and_eq_true, Bool.not_eq_true',
      contains_eq_mem, decide_eq_false_iff_not, Option.some.injEq] at kept
    obtain ⟨⟨rfl, unnamed⟩, rfl⟩ := kept
    exact ⟨listed, unnamed⟩
  · rintro ⟨listed, unnamed⟩
    exact ⟨⟨userId, true⟩, listed, by simp [unnamed]⟩

variable {users : List String}

theorem mem_notices {sent : PayloadToService} :
    sent ∈ backend.notices push users ↔ ∃ session ∈ backend.sessions, ∃ subscription,
      session.userId ∈ users ∧ session.subscription = some subscription ∧
        sent = session.payload push subscription := by
  simp only [notices, mem_filterMap, Option.ite_none_right_eq_some,
    contains_eq_mem, decide_eq_true_eq, Option.map_eq_some_iff]
  constructor
  · rintro ⟨session, listed, targeted, subscription, subscribed, rfl⟩
    exact ⟨session, listed, subscription, targeted, subscribed, rfl⟩
  · rintro ⟨session, listed, subscription, targeted, subscribed, rfl⟩
    exact ⟨session, listed, targeted, subscription, subscribed, rfl⟩

/-- What is sent goes to a user who is among the targets and has a subscription,
and every such user is sent something. -/
theorem forall_notices {P : PushNotification → String → Prop} :
    (∀ sent ∈ backend.notices push users, P sent.notification sent.userId) ↔
      ∀ userId ∈ users, backend.isSubscribed userId → P push userId := by
  simp only [mem_notices, isSubscribed, any_eq_true, Bool.and_eq_true,
    beq_iff_eq, Option.isSome_iff_exists]
  constructor
  · rintro all userId targeted ⟨session, listed, rfl, subscription, subscribed⟩
    exact all _ ⟨session, listed, subscription, targeted, subscribed, rfl⟩
  · rintro all _ ⟨session, listed, subscription, targeted, subscribed, rfl⟩
    exact all _ targeted ⟨session, listed, rfl, subscription, subscribed⟩

theorem mem_targets_everyone (everyone : push.mentionsEveryone) :
    userId ∈ backend.targets services query push members ↔
      (∃ member ∈ members, member.id.user = userId) ∧
        backend.isListedOnline services userId = false ∧ userId ∉ push.existingMentions := by
  rw [targets, if_pos everyone, everyoneTargets, mem_filter, mem_offline, List.mem_map, and_assoc]
  simp

variable {server : Server}

theorem mem_targets_roles (distinct : (members.map fun member => member.id.user).Nodup)
    (roles : push.mentionsEveryone = false) :
    userId ∈ backend.targets services (backend.bulkQuery services server (.textChannel channel))
        push members ↔
      (∃ member ∈ members, ∃ user, member.id.user = userId ∧
        backend.db.users.find userId = some user ∧
        (textChannelPermissions PermissionQuery.wipeUnlessViewable services.now server channel user
          (some member)).hasChannelPermission .viewChannel) ∧
        backend.isListedOnline services userId = false ∧ userId ∉ push.existingMentions := by
  obtain ⟨seen, final, ran, views⟩ :=
    @BulkDatabasePermissionQuery.membersCanSeeChannel_seen backend.db services.now server channel
      members fun _ listed _ listed' => inj_on_of_nodup_map distinct listed listed'
  rw [targets, roles, bulkQuery, ran]
  change userId ∈ backend.offline services.connected (viewingMembers push seen) ↔ _
  rw [mem_offline, mem_viewingMembers, views, and_assoc, and_comm (a := userId ∉ _)]

section Batch

variable {first : PushNotification} {channel : Channel}
  (head : payload.notifications.head? = some first)
  (foundServer : backend.db.servers.find payload.serverId = some server)
  (foundChannel : backend.db.channels.find first.channel.id = some channel)

include head foundServer foundChannel

theorem seesFirst_iff :
    backend.SeesFirst services payload member ↔ ∃ text user, channel = .textChannel text ∧
      backend.db.users.find member.id.user = some user ∧
      (textChannelPermissions PermissionQuery.wipeUnlessViewable services.now server text user
        (some member)).hasChannelPermission .viewChannel := by
  constructor
  · rintro ⟨first', head', server', text, user, foundServer', foundChannel', foundUser, views⟩
    cases head.symm.trans head'
    cases foundServer.symm.trans foundServer'
    exact ⟨text, user, Option.some.inj (foundChannel.symm.trans foundChannel'), foundUser, views⟩
  · rintro ⟨text, user, rfl, foundUser, views⟩
    exact ⟨first, head, server, text, user, foundServer, foundChannel, foundUser, views⟩

variable (distinct : (members.map fun member => member.id.user).Nodup)

include distinct

/-- The targets in a batch: members who are mentioned with everyone, or can see
the channel of the first message, without those who are online or named. -/
theorem mem_targets :
    userId ∈ backend.targets services (backend.bulkQuery services server channel) push members ↔
      (∃ member ∈ members, member.id.user = userId ∧
        (push.mentionsEveryone ∨ backend.SeesFirst services payload member)) ∧
      backend.isListedOnline services userId = false ∧ userId ∉ push.existingMentions := by
  cases everyone : push.mentionsEveryone with
  | true =>
    rw [mem_targets_everyone everyone]
    simp
  | false =>
    simp only [Bool.false_eq_true, false_or, seesFirst_iff head foundServer foundChannel]
    cases channel with
    | textChannel channel =>
      rw [mem_targets_roles distinct everyone]
      apply and_congr_left'
      constructor
      · rintro ⟨member, listed, user, rfl, foundUser, views⟩
        exact ⟨member, listed, rfl, channel, user, rfl, foundUser, views⟩
      · rintro ⟨member, listed, rfl, _, user, ⟨⟩, foundUser, views⟩
        exact ⟨member, listed, user, rfl, foundUser, views⟩
    | savedMessages | directMessage | group =>
      -- The permissions of members are only calculated in channels of a server.
      rw [targets, everyone]
      constructor
      · rintro ⟨⟩
      · rintro ⟨⟨_, _, _, _, _, ⟨⟩, _⟩, _⟩

/-- The notifications of a chunk are private if those whom they reach can view
the channel. -/
theorem notices_private_iff : (∀ sent ∈ backend.notices push (backend.targets services
          (backend.bulkQuery services server channel) push members),
        backend.db.CanView services.now sent.notification.message.channel sent.userId) ↔
      ∀ member ∈ members,
        (push.mentionsEveryone ∨ backend.SeesFirst services payload member) →
        backend.Reachable services push member.id.user →
        backend.db.CanView services.now push.message.channel member.id.user := by
  rw [forall_notices
    (P := fun push userId => backend.db.CanView services.now push.message.channel userId)]
  constructor
  · intro all member listed mentioned reachable
    have targeted : member.id.user ∈ backend.targets services
        (backend.bulkQuery services server channel) push members :=
      (mem_targets head foundServer foundChannel distinct).mpr
        ⟨⟨member, listed, rfl, mentioned⟩, reachable.offline, reachable.unnamed⟩
    exact all _ targeted reachable.subscribed
  · intro all userId targeted subscribed
    obtain ⟨⟨member, listed, rfl, mentioned⟩, offline, unnamed⟩ :=
      (mem_targets head foundServer foundChannel distinct).mp targeted
    exact all member listed mentioned ⟨offline, unnamed, subscribed⟩

end Batch

/-- What is published along a schedule. Nothing that it depends on changes on
the way. -/
theorem published_foldl_handle (query : BulkDatabasePermissionQuery) (backend : PushBackend)
    (steps : List (PushNotification × List MemberDocument)) :
    (steps.foldl (handle services query) backend).published =
      backend.published ++ steps.flatMap fun step => backend.notices step.1
        (backend.targets services query step.1 (step.2.filterMap MemberDocument.toMember)) := by
  induction steps generalizing backend with
  | nil => exact (append_nil _).symm
  | cons step steps ih =>
    rw [foldl_cons, ih, flatMap_cons, ← append_assoc]
    rfl

end Targets

/-! ## Privacy -/

/-- What was sent went to users who can view the channel of the message. -/
def PushBackend.Private (services : MassMentionServices) (before after : PushBackend) : Prop :=
  ∀ sent ∈ after.published.drop before.published.length,
    before.db.CanView services.now sent.notification.message.channel sent.userId

/-- Those whom a mention reaches can view the channel of the message. A mention
of everyone reaches all members, and a mention of roles those who have one and
can see the channel of the first message in the batch. -/
def PushBackend.ReachesViewers (services : MassMentionServices) (payload : MassMessageSentPayload)
    (before : PushBackend) : Prop :=
  ∀ push ∈ payload.notifications, ∀ document ∈ before.db.mentioned payload.serverId push,
    ∀ member, document.toMember = some member →
      (push.mentionsEveryone = true ∨ before.SeesFirst services payload member) →
      before.Reachable services push member.id.user →
      before.db.CanView services.now push.message.channel member.id.user

variable {before : PushBackend}

section Batches

theorem PushBackend.private_of_unpublished (services : MassMentionServices) {after : PushBackend}
    (same : after.published = before.published) : before.Private services after := by
  intro sent listed
  rw [same, drop_length] at listed
  cases listed

/-- The effect of steps of a schedule is private if each step is. -/
theorem private_foldl_iff {steps : List (PushNotification × List MemberDocument)} :
    before.Private services (steps.foldl (handle services query) before) ↔
      ∀ step ∈ steps, ∀ sent ∈ before.notices step.1
        (before.targets services query step.1 (step.2.filterMap MemberDocument.toMember)),
        before.db.CanView services.now sent.notification.message.channel sent.userId := by
  rw [Private, published_foldl_handle, drop_left]
  simp only [mem_flatMap, forall_exists_index, and_imp]
  exact ⟨fun all step listed sent mem => all sent step listed mem,
    fun all sent step listed mem => all step listed sent mem⟩

/-- A batch sends nothing to users who cannot view the channel of a message if
all whom its mentions reach can view it. Only then a batch that is handled to
its end is private. -/
theorem massMention_private_iff (services : MassMentionServices) (payload : MassMessageSentPayload)
    (before : PushBackend) :
    (before.ReachesViewers services payload →
        before.Private services (consumeEvent services payload before).2) ∧
      ((consumeEvent services payload before).1 = .ok () →
        before.Private services (consumeEvent services payload before).2 →
        before.ReachesViewers services payload) := by
  cases batch : payload.notifications with
  | nil =>
    have idle : consumeEvent services payload before = (.ok (), before) := by
      rw [consumeEvent, batch]
      rfl
    rw [idle]
    refine ⟨fun _ => before.private_of_unpublished services rfl, fun _ _ push listed => ?_⟩
    rw [batch] at listed
    cases listed
  | cons first rest =>
    have head : payload.notifications.head? = some first := by
      rw [batch]
      rfl
    obtain ⟨e, failed⟩ | ⟨server, channel, foundServer, foundChannel, edits⟩ :=
      @consumeEvent_edits services payload before first rest batch
    · rw [failed]
      refine ⟨fun _ => before.private_of_unpublished services rfl, ?_⟩
      rintro ⟨⟩
    · constructor
      · intro viewers
        obtain ⟨part, inside, after⟩ := edits.exists_part
        rw [after, private_foldl_iff]
        intro step listed
        have scheduled := inside listed
        apply (notices_private_iff head foundServer foundChannel
          (nodup_of_mem_schedule scheduled)).mpr
        intro member memberListed
        obtain ⟨document, documentListed, decoded⟩ := mem_filterMap.mp memberListed
        exact viewers step.1 (mem_schedule.mp scheduled).1 document
          (mentioned_of_mem_schedule scheduled documentListed) member decoded
      · intro handled
        rw [Outcome, handled] at edits
        rw [edits, private_foldl_iff]
        intro all push listed document read member decoded
        obtain ⟨chunk, scheduled, inside⟩ := exists_step_of_mentioned listed read
        exact (notices_private_iff head foundServer foundChannel
          (nodup_of_mem_schedule scheduled)).mp (all _ scheduled) member
          (mem_filterMap.mpr ⟨document, inside, decoded⟩)

end Batches

/-- The batch is of one channel of its server, and nobody has left the
server. -/
structure PushBackend.OneChannel (before : PushBackend) (payload : MassMessageSentPayload)
    (channel : TextChannel) : Prop where
  stored : before.db.channels.find channel.id = some (.textChannel channel)
  located : channel.server = payload.serverId
  pushed : ∀ push ∈ payload.notifications, push.channel.id = channel.id
  sent : ∀ push ∈ payload.notifications, push.message.channel = channel.id
  visible : ∀ document ∈ before.db.serverMembers.documents, document.visible

section OneChannel

/-- In such a batch, members who see the channel of the first message can view
it. -/
theorem canView_of_seesFirst (one : before.OneChannel payload channel) {document : MemberDocument}
    (listed : document ∈ before.db.serverMembers.documents)
    (ofServer : document.id.server = payload.serverId) (decoded : document.toMember = some member)
    (sees : before.SeesFirst services payload member) :
    before.db.CanView services.now channel.id member.id.user := by
  obtain ⟨first, head, server, text, user, foundServer, foundChannel, foundUser, views⟩ := sees
  rw [one.pushed first (mem_of_mem_head? head), one.stored] at foundChannel
  cases foundChannel
  have same : member.id = document.id := (MemberDocument.toMember_eq_some decoded).1
  have fetched : before.db.fetchMember payload.serverId member.id.user = .ok member := by
    have found := Collection.mem_documents.mp listed
    have unmarked : document.pendingDeletionAt = none :=
      Option.isNone_iff_eq_none.mp (one.visible document listed)
    rw [← ofServer, same]
    exact MongoDb.fetchMember_eq_ok.mpr ⟨_, found, unmarked, decoded⟩
  have known : before.db.memberOf server user = some member := by
    rw [MongoDb.memberOf, Collection.key_of_find foundServer, Collection.key_of_find foundUser,
      fetched]
    rfl
  refine ⟨user, .textChannel channel, _, foundUser, one.stored, ?_, views⟩
  have stored : before.db.servers.find channel.server = some server := by
    rw [one.located, foundServer]
  exact (MongoDb.calculatesChannel_iff_text stored).mpr (by rw [known])

/-- Only mentions of everyone reach others than viewers. -/
theorem reachesViewers_iff_everyone (one : before.OneChannel payload channel) :
    before.ReachesViewers services payload ↔
      ∀ push ∈ payload.notifications, push.mentionsEveryone →
        ∀ document ∈ before.db.mentioned payload.serverId push, ∀ member,
          document.toMember = some member → before.Reachable services push member.id.user →
            before.db.CanView services.now push.message.channel member.id.user := by
  constructor
  · intro viewers push listed everyone document read member decoded
    exact viewers push listed document read member decoded (.inl everyone)
  · intro viewers push listed document read member decoded mentioned reachable
    rcases mentioned with everyone | sees
    · exact viewers push listed everyone document read member decoded reachable
    · rw [one.sent push listed]
      obtain ⟨stored, ofServer⟩ := mem_mentioned read
      exact canView_of_seesFirst one stored ofServer decoded sees

end OneChannel

def staffMessage : SentMessage where
  id := "01H"
  channel := "channel"
  author := "owner"
  roleMentions := some ["staff"]
  flags := some 0

/-- A member of the staff is offline and has subscribed to notifications. -/
def subscribedBackend : PushBackend :=
  { staffBackend with
    unreads := .ofDocuments [{ id := { channel := "channel", user := "staff-user" } }]
    sessions :=
      [{ id := "session", userId := "staff-user",
         subscription := some { endpoint := "fcm", p256dh := "", auth := "token" } }] }

theorem staffMessage_oneChannel :
    subscribedBackend.OneChannel (staffPush staffMessage) staffChannel where
  stored := rfl
  located := rfl
  pushed push listed := by
    obtain rfl := mem_singleton.mp listed
    rfl
  sent push listed := by
    obtain rfl := mem_singleton.mp listed
    rfl
  visible := by decide +kernel

/-- The staff member gets the message, and can view its channel. -/
theorem massMention_private_iff_staff :
    (consumeEvent staffServices (staffPush staffMessage) subscribedBackend).2.published.map
        (fun sent => sent.userId) = ["staff-user"] ∧
      subscribedBackend.Private staffServices
        (consumeEvent staffServices (staffPush staffMessage) subscribedBackend).2 := by
  refine ⟨by decide +kernel, ?_⟩
  apply (massMention_private_iff staffServices (staffPush staffMessage) subscribedBackend).1
  apply (reachesViewers_iff_everyone staffMessage_oneChannel).mpr
  intro push listed everyone
  obtain rfl := mem_singleton.mp listed
  exact absurd everyone (by decide +kernel)

theorem guest_cannot_view : ¬ staffBackend.db.CanView 0 "channel" "guest-user" := by
  rintro ⟨user, channel, value, foundUser, foundChannel, calculated, views⟩
  cases foundUser
  cases foundChannel
  have stored : staffBackend.db.servers.find staffChannel.server = some sampleServer := rfl
  rw [(MongoDb.calculatesChannel_iff_text stored).mp calculated] at views
  revert views
  decide +kernel

/-- A mention of everyone is sent to all members of the server: the guest gets
the message of a channel that they cannot view. -/
theorem everyoneMention_notifies_guest :
    (consumeEvent staffServices (staffPush everyoneMessage) staffBackend).1 = .ok () ∧
      ¬ staffBackend.Private staffServices
        (consumeEvent staffServices (staffPush everyoneMessage) staffBackend).2 := by
  refine ⟨rfl, fun isPrivate => guest_cannot_view ?_⟩
  exact isPrivate _ mem_cons_self

end Company
