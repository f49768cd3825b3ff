import CompanyBackend.Library.Collection

/-!
# Unread channels

For each user and channel a document holds the last message that the user has read and the
messages that mention the user. Mentions are added for one user, whose document is created if
there is none, or for many users at once. There the documents of all of them are edited if one of
them has a document. If none has, at most one document is created.
-/

namespace Company

open Collection

structure ChannelCompositeKey where
  channel : String
  user : String
  deriving DecidableEq, Repr

structure ChannelUnread where
  id : ChannelCompositeKey
  lastId : Option String := none
  mentions : Option (List String) := none
  deriving DecidableEq, Repr

namespace ChannelUnread

def pushMentions (messageIds : List String) (unread : ChannelUnread) : ChannelUnread :=
  { unread with mentions := some (unread.mentions.getD [] ++ messageIds) }

/-- Mentions up to the message are dropped. -/
def acknowledge (messageId : String) (unread : ChannelUnread) : ChannelUnread :=
  { unread with
    lastId := some messageId
    mentions := unread.mentions.map fun mentions =>
      mentions.filter fun mention => !decide (mention ≤ messageId) }

def lists (messageId : String) (unread : ChannelUnread) : Bool :=
  (unread.mentions.getD []).contains messageId

@[simp] theorem lists_pushMentions {messageId : String} {messageIds : List String}
    {unread : ChannelUnread} : (unread.pushMentions messageIds).lists messageId =
      (unread.lists messageId || messageIds.contains messageId) := by
  simp [lists, pushMentions]

end ChannelUnread

abbrev ChannelUnreads := Collection ChannelCompositeKey ChannelUnread ChannelUnread.id

/-- The document that an upsert for many users creates. It is for one of them,
or it has no user, and then nothing finds it. -/
structure UpsertedUser where
  user : (channel : String) → (users : List String) → Option String
  listed : ∀ channel users created, user channel users = some created → created ∈ users

namespace ChannelUnreads

variable (unreads : ChannelUnreads)

def fetchUnread (userId channelId : String) : Option ChannelUnread :=
  unreads.find { channel := channelId, user := userId }

/-- The document afterwards is returned. -/
def acknowledgeMessage (channelId userId messageId : String) : ChannelUnread × ChannelUnreads :=
  let fresh : ChannelUnread := { id := { channel := channelId, user := userId } }
  (((unreads.find fresh.id).getD fresh).acknowledge messageId,
    unreads.upsert fresh (ChannelUnread.acknowledge messageId))

def addMentionToUnread (channelId userId : String) (messageIds : List String) : ChannelUnreads :=
  unreads.upsert { id := { channel := channelId, user := userId } }
    (ChannelUnread.pushMentions messageIds)

variable (channelId : String) (userIds messageIds : List String) (unread : ChannelUnread)

def selects (userIds : List String) (id : ChannelCompositeKey) : Bool :=
  id.channel == channelId && userIds.contains id.user

def pushSelected : ChannelUnread :=
  if selects channelId userIds unread.id then unread.pushMentions messageIds else unread

theorem pushSelected_id : (pushSelected channelId userIds messageIds unread).id = unread.id := by
  rw [pushSelected]
  split <;> rfl

def addMentionToManyUnreads (upserted : UpsertedUser) (channelId : String)
    (userIds messageIds : List String) : ChannelUnreads :=
  if unreads.documents.any fun unread => selects channelId userIds unread.id then
    unreads.updateMany (pushSelected channelId userIds messageIds)
      (pushSelected_id channelId userIds messageIds)
  else
    match upserted.user channelId userIds with
    | some userId =>
      unreads.insert (ChannelUnread.pushMentions messageIds
        { id := { channel := channelId, user := userId } })
    | none => unreads

section Many

variable {unreads} {upserted : UpsertedUser} {channelId : String} {userIds messageIds : List String}

/-- The user has a document after mentions were added for many users, of whom
they are one. -/
def recorded (unreads : ChannelUnreads) (upserted : UpsertedUser) (channelId : String)
    (userIds : List String) (userId : String) : Bool :=
  (unreads.fetchUnread userId channelId).isSome ||
    (!(unreads.documents.any fun unread => selects channelId userIds unread.id) &&
      upserted.user channelId userIds == some userId)

variable {userId : String}

theorem selects_of_mem (listed : userId ∈ userIds) :
    selects channelId userIds { channel := channelId, user := userId } = true := by
  simp [selects, listed]

theorem find_addMentionToManyUnreads_of_not {id : ChannelCompositeKey}
    (other : selects channelId userIds id = false) :
    (unreads.addMentionToManyUnreads upserted channelId userIds messageIds).find id =
      unreads.find id := by
  rw [addMentionToManyUnreads]
  split
  · rw [find_updateMany]
    cases found : unreads.find id with
    | none => rfl
    | some unread =>
      have key := key_of_find found
      rw [Option.map_some, pushSelected, key, other]
      rfl
  · cases created : upserted.user channelId userIds with
    | none => rfl
    | some userId =>
      refine find_insert_ne ?_
      rintro rfl
      have selected := @selects_of_mem channelId userIds userId (upserted.listed _ _ _ created)
      exact Bool.false_ne_true (other.symm.trans selected)

/-- The mentions reach those who have a document, and at most one who has
none. -/
theorem find_addMentionToManyUnreads (listed : userId ∈ userIds) :
    (unreads.addMentionToManyUnreads upserted channelId userIds messageIds).fetchUnread
        userId channelId =
      if unreads.recorded upserted channelId userIds userId then
        some (((unreads.fetchUnread userId channelId).getD
          { id := { channel := channelId, user := userId } }).pushMentions messageIds)
      else none := by
  have selected := @selects_of_mem channelId userIds userId listed
  rw [addMentionToManyUnreads, recorded]
  split
  next any =>
    unfold fetchUnread
    rw [find_updateMany, any]
    cases found : unreads.find ⟨channelId, userId⟩ with
    | none => rfl
    | some unread =>
      rw [Option.map_some, pushSelected, key_of_find found, selected]
      rfl
  next none =>
    have absent : unreads.fetchUnread userId channelId = Option.none := by
      cases found : unreads.fetchUnread userId channelId with
      | none => rfl
      | some unread =>
        have key := key_of_find found
        exact absurd (List.any_eq_true.mpr ⟨unread, mem_documents.mpr (key ▸ found),
          key ▸ selected⟩) none
    rw [Bool.not_eq_true] at none
    rw [absent, none]
    cases upserted.user channelId userIds with
    | none => exact absent
    | some other =>
      by_cases same : other = userId
      · subst same
        rw [BEq.rfl]
        exact find_insert
      · have apart : (some other == some userId) = false := by
          simp [same]
        rw [apart]
        refine Eq.trans (find_insert_ne ?_) absent
        intro key
        exact same (congrArg ChannelCompositeKey.user key).symm

end Many

end ChannelUnreads

end Company
