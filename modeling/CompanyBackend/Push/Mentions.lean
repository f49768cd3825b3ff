import CompanyBackend.Push.MassMention

/-!
# Unread mentions of a mass mention

Those whom a mass mention addresses should find the message among their unread mentions. Where
everyone is mentioned, the daemon adds the id of the channel in place of the id of the message, and
only for members who have a document for the channel already, or for one member of a chunk of whom
none has. For role mentions it adds nothing. So the message is listed afterwards if it was before,
or if it has the id of its channel.

Whether a chunk reaches a member is known from the documents at the start: what is added for other
chunks and other channels does not matter, and a second round of the same chunk reaches the same
members as the first.
-/

namespace Company

open Request Chunks ChannelUnreads Collection List

variable {messageIds : List String} {upserted : UpsertedUser}

namespace ChannelUnreads

variable {unreads unreads' : ChannelUnreads} {channelId : String}
  {userIds : List String}

theorem any_selects : (unreads.documents.any fun unread => selects channelId userIds unread.id) =
    userIds.any fun userId => (unreads.fetchUnread userId channelId).isSome := by
  rw [Bool.eq_iff_iff, any_eq_true, any_eq_true]
  constructor
  · rintro ⟨unread, stored, selected⟩
    rw [selects, Bool.and_eq_true, beq_iff_eq, contains_iff_mem] at selected
    have found := mem_documents.mp stored
    refine ⟨unread.id.user, selected.2, Option.isSome_iff_exists.mpr ⟨unread, ?_⟩⟩
    rw [fetchUnread, ← selected.1]
    exact found
  · rintro ⟨userId, listed, some⟩
    obtain ⟨unread, found⟩ := Option.isSome_iff_exists.mp some
    have key := key_of_find found
    exact ⟨unread, mem_documents.mpr (key ▸ found), key ▸ selects_of_mem listed⟩

variable {userId : String}

theorem recorded_congr (listed : userId ∈ userIds)
    (same : ∀ userId ∈ userIds, (unreads'.fetchUnread userId channelId).isSome =
      (unreads.fetchUnread userId channelId).isSome) :
    unreads'.recorded upserted channelId userIds userId =
      unreads.recorded upserted channelId userIds userId := by
  have any : (userIds.any fun userId => (unreads'.fetchUnread userId channelId).isSome) =
      userIds.any fun userId => (unreads.fetchUnread userId channelId).isSome := by
    rw [Bool.eq_iff_iff, any_eq_true, any_eq_true]
    apply exists_congr
    intro userId
    apply and_congr_right
    intro listed
    rw [same userId listed]
  rw [recorded, recorded, any_selects, any_selects, same userId listed, any]

theorem isSome_addMentionToManyUnreads (listed : userId ∈ userIds) :
    ((unreads.addMentionToManyUnreads upserted channelId userIds messageIds).fetchUnread userId
      channelId).isSome = unreads.recorded upserted channelId userIds userId := by
  rw [find_addMentionToManyUnreads listed]
  cases unreads.recorded upserted channelId userIds userId <;> rfl

/-- A chunk reaches the same members when it comes again. -/
theorem recorded_addMentionToManyUnreads (listed : userId ∈ userIds) :
    (unreads.addMentionToManyUnreads upserted channelId userIds messageIds).recorded upserted
        channelId userIds userId =
      unreads.recorded upserted channelId userIds userId := by
  cases reached : unreads.recorded upserted channelId userIds userId with
  | true => rw [recorded, isSome_addMentionToManyUnreads listed, reached, Bool.true_or]
  | false =>
    rw [recorded, isSome_addMentionToManyUnreads listed, reached, Bool.false_or, any_selects]
    cases created : upserted.user channelId userIds == some userId with
    | false => rw [Bool.and_false]
    | true =>
      -- The user would have been reached if nobody of the chunk had a document.
      rw [recorded, created, any_selects, Bool.and_true, Bool.or_eq_false_iff,
        Bool.not_eq_false'] at reached
      obtain ⟨other, otherListed, some⟩ := any_eq_true.mp reached.2
      rw [Bool.and_true, Bool.not_eq_false', any_eq_true]
      refine ⟨other, otherListed, ?_⟩
      rw [isSome_addMentionToManyUnreads otherListed, recorded, some, Bool.true_or]

end ChannelUnreads

def mentionStep (services : MassMentionServices) (unreads : ChannelUnreads)
    (step : PushNotification × List MemberDocument) : ChannelUnreads :=
  if step.1.mentionsEveryone then
    unreads.addMentionToManyUnreads services.upserted step.1.channel.id (memberUsers step.2)
      [step.1.channel.id]
  else unreads

def mentionsIn (channelId : String) (step : PushNotification × List MemberDocument) : Bool :=
  step.1.mentionsEveryone && step.1.channel.id == channelId

def ChannelUnreads.lists (unreads : ChannelUnreads) (channelId userId messageId : String) : Bool :=
  (unreads.fetchUnread userId channelId).any (·.lists messageId)

variable {services : MassMentionServices} {messageId : String}

section Steps

variable {unreads : ChannelUnreads} {channelId userId : String}
  {step : PushNotification × List MemberDocument}

/-- A step leaves those alone who are not in its chunk or in its channel. -/
theorem fetchUnread_mentionStep_of_not
    (other : mentionsIn channelId step → userId ∉ memberUsers step.2) :
    (mentionStep services unreads step).fetchUnread userId channelId =
      unreads.fetchUnread userId channelId := by
  rw [mentionStep]
  cases everyone : step.1.mentionsEveryone with
  | false => rfl
  | true =>
    apply find_addMentionToManyUnreads_of_not
    rw [ChannelUnreads.selects]
    by_cases same : step.1.channel.id = channelId
    · have outside := other (by simp [mentionsIn, everyone, same])
      simp [outside]
    · simp [Ne.symm same]

/-- The chunk of a step is a given one or has nobody in common with it. -/
def SameOrApart (users : List String) (step : PushNotification × List MemberDocument) : Prop :=
  memberUsers step.2 = users ∨ List.Disjoint (memberUsers step.2) users

variable {users : List String}

theorem mentionStep_of_same (inChannel : mentionsIn channelId step)
    (same : memberUsers step.2 = users) : mentionStep services unreads step =
      unreads.addMentionToManyUnreads services.upserted channelId users [channelId] := by
  rw [mentionsIn, Bool.and_eq_true, beq_iff_eq] at inChannel
  rw [mentionStep, inChannel.1, inChannel.2, same]
  rfl

variable (listed : userId ∈ users)

include listed

/-- Whom a chunk reaches does not change. -/
theorem recorded_mentionStep (chunk : mentionsIn channelId step → SameOrApart users step) :
    (mentionStep services unreads step).recorded services.upserted channelId users userId =
      unreads.recorded services.upserted channelId users userId := by
  have untouched : (mentionsIn channelId step = true → List.Disjoint (memberUsers step.2) users) →
      (mentionStep services unreads step).recorded services.upserted channelId users userId =
        unreads.recorded services.upserted channelId users userId := by
    intro apart
    apply recorded_congr listed
    intro other otherListed
    rw [fetchUnread_mentionStep_of_not fun inChannel inside => apart inChannel inside otherListed]
  cases inChannel : mentionsIn channelId step with
  | false =>
    apply untouched
    rw [inChannel]
    rintro ⟨⟩
  | true =>
    rcases chunk inChannel with same | apart
    · rw [mentionStep_of_same inChannel same]
      exact recorded_addMentionToManyUnreads listed
    · exact untouched fun _ => apart

/-- A chunk lists the new ids for those whom it reaches. -/
theorem ChannelUnreads.lists_addMentionToManyUnreads :
    (unreads.addMentionToManyUnreads upserted channelId users messageIds).lists channelId userId
        messageId ↔
      unreads.lists channelId userId messageId ∨
        messageId ∈ messageIds ∧ unreads.recorded upserted channelId users userId := by
  rw [lists, lists, find_addMentionToManyUnreads listed]
  cases reached : unreads.recorded upserted channelId users userId with
  | false =>
    have absent : unreads.fetchUnread userId channelId = none := by
      rw [recorded, Bool.or_eq_false_iff] at reached
      exact Option.not_isSome_iff_eq_none.mp (Bool.eq_false_iff.mp reached.1)
    rw [absent]
    simp
  | true =>
    cases unreads.fetchUnread userId channelId with
    | none => simp [ChannelUnread.lists, ChannelUnread.pushMentions]
    | some unread => simp

/-- A step lists the id of the channel for those whom it reaches. -/
theorem lists_mentionStep (chunk : mentionsIn channelId step → SameOrApart users step) :
    (mentionStep services unreads step).lists channelId userId messageId ↔
      unreads.lists channelId userId messageId ∨
        (mentionsIn channelId step ∧ userId ∈ memberUsers step.2) ∧
          messageId = channelId ∧
          unreads.recorded services.upserted channelId users userId := by
  by_cases touched : mentionsIn channelId step = true ∧ userId ∈ memberUsers step.2
  · obtain same | apart := chunk touched.1
    · rw [mentionStep_of_same touched.1 same, lists_addMentionToManyUnreads listed, mem_singleton]
      simp only [touched, and_self, true_and]
    · exact absurd listed (apart touched.2)
  · have kept := @fetchUnread_mentionStep_of_not services unreads channelId userId step
      fun inChannel inside => touched ⟨inChannel, inside⟩
    rw [ChannelUnreads.lists, ChannelUnreads.lists, kept]
    simp only [touched, false_and, or_false]

/-- After all steps the id of the channel is listed for those whom their chunk
has reached. -/
theorem lists_foldl_mentionStep {steps : List (PushNotification × List MemberDocument)}
    (apart : ∀ step ∈ steps, mentionsIn channelId step → SameOrApart users step) :
    (steps.foldl (mentionStep services) unreads).lists channelId userId messageId ↔
      unreads.lists channelId userId messageId ∨
        (∃ step ∈ steps, mentionsIn channelId step ∧ userId ∈ memberUsers step.2) ∧
          messageId = channelId ∧
          unreads.recorded services.upserted channelId users userId := by
  induction steps generalizing unreads with
  | nil => simp
  | cons step steps ih =>
    obtain ⟨first, rest⟩ := forall_mem_cons.mp apart
    rw [foldl_cons, ih rest, lists_mentionStep listed first, recorded_mentionStep listed first]
    simp only [exists_mem_cons_iff]
    tauto

end Steps

def PushNotification.mentionsOnline (push : PushNotification) : Bool :=
  MessageFlagsValue.has (push.message.flags.getD 0) .mentionsOnline

namespace PushBackend

variable (services : MassMentionServices) (payload : MassMessageSentPayload)
  (before : PushBackend)

/-- The message addresses a member other than its author: it mentions everyone,
it mentions those who are online and the member is, or it mentions a role of the
member. -/
def Addresses (push : PushNotification) (userId : String) : Prop :=
  userId ≠ push.message.author ∧
    ∃ document, before.db.serverMembers.find { server := payload.serverId, user := userId } =
        some document ∧ document.visible = true ∧
      (push.mentionsEveryone = true ∨
        push.mentionsOnline = true ∧ before.isListedOnline services userId = true ∨
        ∃ roles, push.message.roleMentions = some roles ∧ document.hasRole roles = true)

/-- A mention of everyone in the channel reaches the user: they are in a chunk
and have a document, or are the one of the chunk for whom it is created. -/
def Reaches (channelId userId : String) : Prop :=
  ∃ step ∈ before.schedule services payload, mentionsIn channelId step = true ∧
    userId ∈ memberUsers step.2 ∧
    before.unreads.recorded services.upserted channelId (memberUsers step.2) userId = true

end PushBackend

section Batches

variable {payload : MassMessageSentPayload} {before after : PushBackend} {channelId userId : String}

theorem unreads_of_handled (handled : consumeEvent services payload before = (.ok (), after)) :
    after.unreads = (before.schedule services payload).foldl (mentionStep services)
      before.unreads := by
  cases batch : payload.notifications with
  | nil =>
    rw [consumeEvent, batch] at handled
    cases handled
    rw [PushBackend.schedule, batch]
    rfl
  | cons first rest =>
    obtain ⟨e, failed⟩ | ⟨server, channel, _, _, edits⟩ :=
      @consumeEvent_edits services payload before first rest batch
    · cases failed.symm.trans handled
    · rw [edits.elim handled]
      exact (foldl_hom PushBackend.unreads fun _ _ => rfl).symm

/-- Chunks of members for whom everyone is mentioned are the same or have nobody
in common. -/
theorem sameOrApart_of_scheduled {step step' : PushNotification × List MemberDocument}
    (scheduled : step ∈ before.schedule services payload) (inChannel : mentionsIn channelId step)
    (scheduled' : step' ∈ before.schedule services payload)
    (inChannel' : mentionsIn channelId step') : SameOrApart (memberUsers step.2) step' := by
  rw [mentionsIn, Bool.and_eq_true] at inChannel inChannel'
  have all : before.db.mentioned payload.serverId step'.1 =
      before.db.mentioned payload.serverId step.1 := by
    rw [MongoDb.mentioned, MongoDb.mentioned, inChannel.1, inChannel'.1]
    rfl
  have read := (mem_schedule.mp scheduled).2.2
  have read' := (mem_schedule.mp scheduled').2.2
  rw [all] at read'
  have apart := (nodup_flatten.mp (@nodup_chunks step.1 before.db payload.serverId
    services.massMentionChunkSize services.reads)).2
  by_cases same : memberUsers step'.2 = memberUsers step.2
  · exact .inl same
  · have symmetric : Std.Symm (@List.Disjoint String) := ⟨fun _ _ => List.Disjoint.symm⟩
    exact .inr (apart.forall (mem_map_of_mem read') (mem_map_of_mem read) same)

/-- What a member has listed after a batch. -/
theorem lists_of_handled_iff (handled : consumeEvent services payload before = (.ok (), after)) :
    after.unreads.lists channelId userId messageId ↔
      before.unreads.lists channelId userId messageId ∨
        messageId = channelId ∧ before.Reaches services payload channelId userId := by
  rw [unreads_of_handled handled]
  by_cases touched : ∃ step ∈ before.schedule services payload,
      mentionsIn channelId step = true ∧ userId ∈ memberUsers step.2
  · obtain ⟨step, scheduled, inChannel, inside⟩ := touched
    rw [lists_foldl_mentionStep inside fun step' scheduled' inChannel' =>
      sameOrApart_of_scheduled scheduled inChannel scheduled' inChannel']
    apply or_congr_right
    constructor
    · rintro ⟨_, same, reached⟩
      exact ⟨same, step, scheduled, inChannel, inside, reached⟩
    · rintro ⟨same, step', scheduled', inChannel', inside', reached⟩
      refine ⟨⟨step, scheduled, inChannel, inside⟩, same, ?_⟩
      rcases sameOrApart_of_scheduled scheduled inChannel scheduled' inChannel' with chunk | apart
      · rwa [chunk] at reached
      · exact absurd inside (apart inside')
  · rw [lists_foldl_mentionStep (mem_singleton.mpr rfl) fun step scheduled inChannel => .inr
      (disjoint_singleton.mpr fun inside => touched ⟨step, scheduled, inChannel, inside⟩)]
    apply or_congr_right
    constructor
    · rintro ⟨reached, _⟩
      exact absurd reached touched
    · rintro ⟨_, step, scheduled, inChannel, inside, _⟩
      exact absurd ⟨step, scheduled, inChannel, inside⟩ touched

/-- The members whom the messages of a batch address have the messages listed if
they had before, or if a message has the id of its channel and the mention
reaches the member. -/
theorem massMention_listed_iff (handled : consumeEvent services payload before = (.ok (), after)) :
    (∀ push ∈ payload.notifications, ∀ userId, before.Addresses services payload push userId →
        after.unreads.lists push.message.channel userId push.message.id) ↔
      ∀ push ∈ payload.notifications, ∀ userId, before.Addresses services payload push userId →
        before.unreads.lists push.message.channel userId push.message.id ∨
          push.message.id = push.message.channel ∧
            before.Reaches services payload push.message.channel userId := by
  simp only [lists_of_handled_iff handled]

end Batches

def listedBackend : PushBackend :=
  { staffBackend with
    unreads := .ofDocuments
      [{ id := { channel := "channel", user := "guest-user" }, mentions := some ["01H"] }] }

theorem addressed_guest {userId : String} {push : PushNotification}
    (author : push.message.author = "staff-user")
    (addressed : listedBackend.Addresses staffServices (staffPush everyoneMessage) push userId) :
    userId = "guest-user" := by
  obtain ⟨other, document, found, _⟩ := addressed
  have members : ∀ document ∈ listedBackend.db.serverMembers.documents,
      document.id.user = "staff-user" ∨ document.id.user = "guest-user" := by
    decide +kernel
  have key := key_of_find found
  have user : document.id.user = userId := congrArg MemberCompositeKey.user key
  rw [author] at other
  rcases members document (mem_documents.mpr (key ▸ found)) with staff | guest
  · exact absurd (user.symm.trans staff) other
  · exact user.symm.trans guest

theorem guest_addressed (unreads : ChannelUnreads) :
    PushBackend.Addresses staffServices (staffPush everyoneMessage) { staffBackend with unreads }
      { message := everyoneMessage, channel := .textChannel staffChannel } "guest-user" :=
  ⟨by decide, .ofMember guestMember, rfl, rfl, .inl (by decide +kernel)⟩

theorem massMention_listed_iff_sample :
    (consumeEvent staffServices (staffPush everyoneMessage) listedBackend).2.unreads.lists
      "channel" "guest-user" "01H" := by
  have handled : consumeEvent staffServices (staffPush everyoneMessage) listedBackend =
      (.ok (), (consumeEvent staffServices (staffPush everyoneMessage) listedBackend).2) := rfl
  refine (massMention_listed_iff handled).mpr ?_ _ mem_cons_self "guest-user" (guest_addressed _)
  intro push listed userId addressed
  obtain rfl := mem_singleton.mp listed
  obtain rfl := addressed_guest rfl addressed
  exact .inl (by decide +kernel)

/-- The guest, who has a document for the channel, gets the id of the channel
listed in place of that of the message. -/
theorem everyoneMention_unlisted :
    (consumeEvent staffServices (staffPush everyoneMessage) staffBackend).1 = .ok () ∧
      staffBackend.Addresses staffServices (staffPush everyoneMessage)
        { message := everyoneMessage, channel := .textChannel staffChannel } "guest-user" ∧
      (consumeEvent staffServices (staffPush everyoneMessage) staffBackend).2.unreads.lists
        "channel" "guest-user" "01H" = false ∧
      (consumeEvent staffServices (staffPush everyoneMessage) staffBackend).2.unreads.lists
        "channel" "guest-user" "channel" = true :=
  ⟨rfl, guest_addressed _, by decide +kernel, by decide +kernel⟩

end Company
