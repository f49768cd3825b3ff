import CompanyBackend.Messages.Sending

/-!
# Suppressed notifications

A request asks with a flag that its message sends no notifications. The flag passes through four
places: the range of the word is checked, the flags are read from it, a new word is made from
them, and before a notification is queued the flag is looked up again.

Three of these take a flag for the number of a bit. The range is that of the flags as they were
before, when the highest bit was missing, and the last place looks at a bit that no flag has. So
the request is not heeded, and a word with the last flag is refused.
-/

namespace Company

open Request

def DataMessageSend.suppressesNotifications (data : DataMessageSend) : Bool :=
  data.flags.any fun flags => MessageFlagsValue.has flags .suppressNotifications

/-- The message mentions a user, a role, everyone or those who are online. -/
def SentMessage.isMention (message : SentMessage) : Bool :=
  message.mentions.isSome || message.containsMassPushMention ||
    message.flags.any fun flags => MessageFlagsValue.has flags .mentionsOnline

/-- The last task of the queue is a push notification for the message. -/
def QueuesNotification (message : SentMessage) (before after : MessageBackend) : Prop :=
  ∃ task queued, after.queue = before.queue ++ [task] ∧ task.event = .processMessage [queued] ∧
    queued.message = message ∧ queued.push.isSome = true

theorem queuesNotification_iff {request : MessageRequest} {message : SentMessage}
    {backend backend' : MessageBackend}
    (accepted : createFromApi request backend = (.ok message, backend')) :
    QueuesNotification message backend backend' ↔
      (message.mentions.isSome || message.containsMassPushMention) ∧
        backend.queue.length < 10000 := by
  have queued := createFromApi_queue accepted
  by_cases pushes : (message.mentions.isSome || message.containsMassPushMention) = true ∧
      backend.queue.length < 10000
  · rw [pushes.1, decide_eq_true pushes.2, Bool.true_and, if_pos rfl] at queued
    exact iff_of_true ⟨_, _, queued, rfl, rfl, rfl⟩ pushes
  · refine iff_of_false ?_ pushes
    rintro ⟨task, _, appended, _⟩
    have skipped : ((message.mentions.isSome || message.containsMassPushMention) &&
        decide (backend.queue.length < 10000)) = false := by
      rw [← Bool.not_eq_true, Bool.and_eq_true, decide_eq_true_eq]
      exact pushes
    rw [appended, skipped] at queued
    simp at queued

/-- Only the range check answers with this error. -/
theorem resolveFlags_invalidProperty_iff (allowMentions : Bool) (user : Option ApiUser)
    (raw : UInt32) :
    resolveFlags allowMentions user (some raw) = .error .invalidProperty ↔ raw > 7 := by
  rw [resolveFlags]
  dsimp only
  by_cases large : raw > 7
  · simp [large]
  · rw [if_neg large]
    refine iff_of_false ?_ large
    split
    · rintro ⟨⟩
    · split
      · rintro ⟨⟩
      · rintro ⟨⟩

/-- A mention of users, roles or everyone is pushed as asked for exactly if the
queue has room and the request does not suppress it, or neither; one of those
who are online exactly if it is suppressed; and of the words that are made of
flags, those with the last one are out of range. -/
theorem notifications_follow_flags_iff (request : MessageRequest) (message : SentMessage)
    (backend backend' : MessageBackend) :
    (createFromApi request backend = (.ok message, backend') →
      (message.mentions.isSome || message.containsMassPushMention) →
      ((QueuesNotification message backend backend' ↔
          request.data.suppressesNotifications = false) ↔
        (backend.queue.length < 10000 ↔ request.data.suppressesNotifications = false))) ∧
    (createFromApi request backend = (.ok message, backend') → message.isMention →
      (message.mentions.isSome || message.containsMassPushMention) = false →
      ((QueuesNotification message backend backend' ↔
          request.data.suppressesNotifications = false) ↔
        request.data.suppressesNotifications)) ∧
    ∀ (allowMentions : Bool) (user : Option ApiUser) (suppress everyone online : Bool),
      resolveFlags allowMentions user (some (finalFlags suppress everyone online)) ≠
          .error .invalidProperty ↔
        online = false := by
  refine ⟨?_, ?_, ?_⟩
  · intro accepted pushed
    rw [queuesNotification_iff accepted, and_iff_right pushed]
  · intro accepted _ online
    rw [queuesNotification_iff accepted, online]
    simp
  · intro allowMentions user suppress everyone online
    rw [Ne, resolveFlags_invalidProperty_iff]
    cases suppress <;> cases everyone <;> cases online <;> decide

def answer (flags : Option UInt32) : MessageRequest where
  config :=
    { massMentionsEnabled := true, messageReplies := 5, messageEmbeds := 5, messageLength := 2000,
      messageAttachments := 5 }
  now := 0
  messageId := "01J"
  channel := .group { id := "friends", owner := "alice", recipients := ["alice", "bob"] }
  data := { content := some "hi", replies := some [{ id := "01H", mention := true }], flags }
  author := .user { id := "alice" }
  user := some { id := "alice" }
  key := "key"

def question : MessageBackend where
  db :=
    { MongoDb.empty with
      users := .ofDocuments [{ id := "alice" }, { id := "bob" }]
      channels := .ofDocuments
        [.group { id := "friends", owner := "alice", recipients := ["alice", "bob"] }] }
  messages := .ofDocuments [{ id := "01H", channel := "friends", author := "bob" }]

theorem notifications_follow_flags_iff_answer :
    ∃ message backend', createFromApi (answer none) question = (.ok message, backend') ∧
      message.isMention ∧
      (QueuesNotification message question backend' ↔
        (answer none).data.suppressesNotifications = false) := by
  refine ⟨_, _, rfl, by decide, ?_⟩
  exact ((notifications_follow_flags_iff _ _ _ _).1 rfl (by decide)).mpr (by decide)

/-- The request asks for no notifications, and one is queued; and a word of the
last flag alone is refused. -/
theorem suppression_ignored :
    (answer (some 2)).data.suppressesNotifications ∧
    (∃ message backend', createFromApi (answer (some 2)) question = (.ok message, backend') ∧
      message.isMention ∧ QueuesNotification message question backend') ∧
    finalFlags false false true = 8 ∧
    resolveFlags true none (some 8) = .error .invalidProperty := by
  refine ⟨by decide, ⟨_, _, rfl, by decide, ?_⟩, by decide, rfl⟩
  exact ⟨_, _, rfl, rfl, rfl, rfl⟩

end Company
