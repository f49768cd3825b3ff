import CompanyBackend.Messages.Sending
import CompanyBackend.Messages.Unreads

/-!
# The acknowledgement worker

Messages that mention somebody are queued for a worker. It adds the mention to the unread channels
of the recipients and publishes push notifications. A message that mentions everyone or roles is
published a second time, for the members of the server, and the worker panics if the channel of
the message is not one of a server.

Mass mentions are not limited to servers: a text mentions everyone in saved messages as well. So a
message that is accepted may bring the worker down.

What is published may be lost on the way; the worker goes on.
-/

namespace Company

open Request List

inductive AmqpEvent where
  | ackMessage (userId channelId messageId : String)
  | messageSent (recipients : List String) (push : PushNotification)
  | massMentionMessageSent (serverId : String) (pushes : List PushNotification)

structure AckBackend where
  db : MongoDb
  unreads : ChannelUnreads
  published : List AmqpEvent := []

abbrev AckTask (α : Type) := Request AckBackend Failure α

namespace AckTask

def publish (event : AmqpEvent) : AckTask Unit :=
  write fun backend => .ok { backend with published := backend.published ++ [event] }

def addMentionToUnread (channelId userId : String) (messageIds : List String) : AckTask Unit :=
  write fun backend => .ok
    { backend with unreads := backend.unreads.addMentionToUnread channelId userId messageIds }

def acknowledgeMessage (channelId userId messageId : String) : AckTask ChannelUnread :=
  fun backend =>
    let (unread, unreads) := backend.unreads.acknowledgeMessage channelId userId messageId
    (.ok unread, { backend with unreads })

end AckTask

/-- The notification that is published for a message. -/
def QueuedMessage.pushed (queued : QueuedMessage) : Option PushNotification :=
  if queued.silenced || (queued.recipients.isEmpty && !queued.message.containsMassPushMention) then
    none
  else queued.push

def QueuedMessage.massPushed (queued : QueuedMessage) : Option PushNotification :=
  if queued.message.containsMassPushMention then queued.pushed else none

def messageIdsFor (messages : List QueuedMessage) (user : String) : List String :=
  messages.filterMap fun queued =>
    if queued.recipients.contains user then some queued.message.id else none

def publishMassMentions : List PushNotification → AckTask Unit
  | [] => return ()
  | first :: rest => do
    match ← result (attempt fun backend =>
        (backend.db.fetchChannel first.message.channel).mapError .error) with
    | .error _ => fail (.panic "Failed to fetch channel from db")
    | .ok (.textChannel channel) =>
      AckTask.publish (.massMentionMessageSent channel.server (first :: rest))
    | .ok _ => fail (.panic "Unknown channel type when sending mass mention event")

def processMessages (channel : String) (messages : List QueuedMessage) : AckTask Unit := do
  forEach (fun user =>
      onlyIf (!(messageIdsFor messages user).isEmpty) <|
        AckTask.addMentionToUnread channel user (messageIdsFor messages user))
    (messages.flatMap QueuedMessage.recipients).eraseDups
  forEach (fun queued =>
      match queued.pushed with
      | some push => AckTask.publish (.messageSent queued.recipients push)
      | none => return ())
    messages
  publishMassMentions (messages.filterMap QueuedMessage.massPushed)

def handleAckEvent (event : AckEvent) (user : Option String) (channel : String) : AckTask Unit :=
  match event, user with
  | .ackMessage _, none => fail (.panic "called `Option::unwrap()` on a `None` value")
  | .ackMessage id, some user => do
    let unread ← attempt fun backend => .ok (backend.unreads.fetchUnread user channel)
    let updated ← AckTask.acknowledgeMessage channel user id
    match unread with
    | some before => do
      let beforeMentions := (before.mentions.getD []).length
      let afterMentions := (updated.mentions.getD []).length
      ensure (decide (afterMentions ≤ beforeMentions)) (.panic "attempt to subtract with overflow")
      onlyIf (decide (0 < beforeMentions - afterMentions)) <|
        AckTask.publish (.ackMessage user channel id)
    | none => return ()
  | .processMessage [], _ =>
    -- The log line reads the first message.
    fail (.panic "index out of bounds: the len is 0 but the index is 0")
  | .processMessage messages, _ => processMessages channel messages

/-- The handling does not come to an end. -/
def Panics (x : AckTask Unit) (backend : AckBackend) : Prop :=
  ∃ message, (x backend).1 = .error (.panic message)

open QueuedMessage

section Handling

variable {channelId : String} {messages : List QueuedMessage} {backend : AckBackend}
  {stored : Channel}

theorem publishMassMentions_result {pushes : List PushNotification}
    (ofChannel : ∀ push ∈ pushes, push.message.channel = channelId)
    (found : backend.db.channels.find channelId = some stored) :
    (publishMassMentions pushes backend).1 =
      if !pushes.isEmpty && stored.server.isNone then
        .error (.panic "Unknown channel type when sending mass mention event")
      else .ok () := by
  cases pushes with
  | nil => rfl
  | cons first rest =>
    rw [publishMassMentions, bind_of_ok (result_attempt_run ..), ofChannel first mem_cons_self,
      MongoDb.fetchChannel, found]
    cases stored <;> rfl

/-- What comes before the mass mentions succeeds and leaves the documents
alone. -/
theorem processMessages_outcome {Q : Except Failure Unit → AckBackend → Prop}
    (published : ∀ backend' : AckBackend, backend'.db = backend.db →
      Outcome (publishMassMentions (messages.filterMap massPushed)) backend' Q) :
    Outcome (processMessages channelId messages) backend Q := by
  rw [processMessages]
  apply Outcome.succeeds_bind (Outcome.forEach_keeps
    (P := fun backend' : AckBackend => backend'.db = backend.db) ?_ rfl)
  · intro _ added same
    apply Outcome.succeeds_bind (Outcome.forEach_keeps
      (P := fun backend' : AckBackend => backend'.db = backend.db) ?_ same)
    · intro _ sent same'
      exact published sent same'
    · intro queued backend' _ same'
      cases queued.pushed with
      | none | some push => exact ⟨(), rfl, same'⟩
  · intro user backend' _ same
    apply Outcome.onlyIf
    · intro _
      exact ⟨(), rfl, same⟩
    · intro _
      exact ⟨(), rfl, same⟩

/-- A batch with a mass mention panics outside of servers, and every other batch
is handled. -/
theorem processMessages_panics_iff
    (ofChannel : ∀ push ∈ messages.filterMap massPushed, push.message.channel = channelId)
    (found : backend.db.channels.find channelId = some stored) :
    Panics (processMessages channelId messages) backend ↔
      stored.server = none ∧ ∃ queued ∈ messages, queued.massPushed.isSome := by
  have ended : Outcome (processMessages channelId messages) backend fun r _ => r =
      if !(messages.filterMap massPushed).isEmpty && stored.server.isNone then
        .error (.panic "Unknown channel type when sending mass mention event")
      else .ok () := by
    apply processMessages_outcome
    intro backend' same
    exact publishMassMentions_result ofChannel (same ▸ found)
  have massive : (messages.filterMap massPushed).isEmpty = false ↔
      ∃ queued ∈ messages, queued.massPushed.isSome := by
    rw [isEmpty_eq_false_iff, ← length_pos_iff, length_pos_iff_exists_mem]
    simp only [mem_filterMap, Option.isSome_iff_exists]
    exact ⟨fun ⟨push, queued, member, pushed⟩ => ⟨queued, member, push, pushed⟩,
      fun ⟨queued, member, push, pushed⟩ => ⟨push, queued, member, pushed⟩⟩
  rw [Panics, ended, ← massive]
  cases (messages.filterMap massPushed).isEmpty <;> cases stored.server <;> simp

end Handling

theorem SentMessage.massPushed_queued (message : SentMessage) (channel : Channel) :
    (message.queued channel).massPushed =
      if message.containsMassPushMention then some { message, channel } else none := by
  rw [massPushed, pushed, queued]
  cases message.containsMassPushMention <;> simp

/-- The channel is still stored, and it has not changed servers. -/
def AckBackend.Holds (backend : AckBackend) (channel : Channel) : Prop :=
  ∃ stored, backend.db.channels.find channel.id = some stored ∧ stored.server = channel.server

/-- What a request has queued is handled without a panic unless it is a mass
mention outside of servers. There the text or the flags mention everyone, or the
text mentions roles that are not dropped because users are mentioned in a
conversation. -/
theorem acceptedMessage_handled_iff {request : MessageRequest} {message : SentMessage}
    {backend backend' : MessageBackend} {later : AckBackend}
    (enabled : request.config.massMentionsEnabled)
    (accepted : createFromApi request backend = (.ok message, backend'))
    (holds : later.Holds request.channel) :
    (∀ task ∈ backend'.queue.drop backend.queue.length,
        ¬Panics (handleAckEvent task.event task.user task.channel) later) ↔
      ¬(request.channel.server = none ∧ backend.queue.length < 10000 ∧
        request.pushesMassMention backend.toMessageStore) := by
  obtain ⟨addressed, massive⟩ := createFromApi_ok enabled accepted
  obtain ⟨stored, found, sameServer⟩ := holds
  have panics : Panics (handleAckEvent (.processMessage [message.queued request.channel]) none
      request.channel.id) later ↔
      request.channel.server = none ∧ message.containsMassPushMention = true := by
    have ofChannel : ∀ push ∈ [message.queued request.channel].filterMap massPushed,
        push.message.channel = request.channel.id := by
      intro push listed
      simp only [mem_filterMap, mem_singleton, exists_eq_left,
        SentMessage.massPushed_queued, Option.ite_none_right_eq_some] at listed
      obtain ⟨_, ⟨⟩⟩ := listed
      exact addressed
    refine (processMessages_panics_iff ofChannel found).trans ?_
    rw [sameServer]
    simp only [mem_singleton, exists_eq_left, SentMessage.massPushed_queued]
    cases message.containsMassPushMention <;> simp
  rw [createFromApi_queue accepted, drop_left]
  constructor
  · rintro safe ⟨outside, room, pushes⟩
    have mass : message.containsMassPushMention = true := (massive outside).trans pushes
    exact safe ⟨request.channel.id, none, .processMessage [message.queued request.channel]⟩
      (by simp [mass, room]) (panics.mpr ⟨outside, mass⟩)
  · intro safe task listed panicked
    split at listed
    next condition =>
      obtain rfl := mem_singleton.mp listed
      obtain ⟨outside, mass⟩ := panics.mp panicked
      rw [Bool.and_eq_true, decide_eq_true_eq] at condition
      exact safe ⟨outside, condition.2, (massive outside).symm.trans mass⟩
    next => cases listed

def noteRequest (content : String) : MessageRequest where
  config :=
    { massMentionsEnabled := true, messageReplies := 5, messageEmbeds := 5, messageLength := 2000,
      messageAttachments := 5 }
  now := 0
  messageId := "01H"
  channel := .savedMessages { id := "notes", user := "alice" }
  data := { content := some content }
  author := .user { id := "alice" }
  user := some { id := "alice" }
  key := "key"

def noteStore : MongoDb :=
  { MongoDb.empty with
    users := .ofDocuments [{ id := "alice" }]
    channels := .ofDocuments [.savedMessages { id := "notes", user := "alice" }] }

def noteBackend : MessageBackend := { db := noteStore, messages := .empty }

def announcement : MessageRequest :=
  { noteRequest "@everyone" with
    channel := .textChannel sampleChannel
    author := .user { id := "owner" }
    user := some { id := "owner" } }

def announcedBackend : MessageBackend := { db := sampleStore, messages := .empty }

/-- The mass mention of a server is queued, and handled. -/
theorem acceptedMessage_handled_iff_announced :
    (createFromApi announcement announcedBackend).1.isOk ∧
      ((createFromApi announcement announcedBackend).2.queue.drop
        announcedBackend.queue.length).length = 1 ∧
      ∀ task ∈ (createFromApi announcement announcedBackend).2.queue.drop
          announcedBackend.queue.length,
        ¬Panics (handleAckEvent task.event task.user task.channel)
          { db := sampleStore, unreads := .empty } := by
  have isOk : (createFromApi announcement announcedBackend).1.isOk = true := by decide +kernel
  obtain ⟨message, accepted⟩ := exists_of_isOk isOk
  refine ⟨isOk, by decide +kernel, ?_⟩
  refine (acceptedMessage_handled_iff rfl accepted ⟨.textChannel sampleChannel, rfl, rfl⟩).mpr ?_
  rintro ⟨⟨⟩, _⟩

/-- A mention of everyone among the saved messages is accepted and queued, and
the worker panics over it. -/
theorem savedMention_panics :
    (createFromApi (noteRequest "@everyone") noteBackend).1.isOk ∧
      AckBackend.Holds { db := noteStore, unreads := .empty } (noteRequest "@everyone").channel ∧
      ∃ task ∈ (createFromApi (noteRequest "@everyone") noteBackend).2.queue.drop
          noteBackend.queue.length,
        Panics (handleAckEvent task.event task.user task.channel)
          { db := noteStore, unreads := .empty } := by
  refine ⟨by decide +kernel, ⟨.savedMessages { id := "notes", user := "alice" }, rfl, rfl⟩, ?_⟩
  exact ⟨_, mem_cons_self, "Unknown channel type when sending mass mention event", rfl⟩

end Company
