import CompanyBackend.Files.Deletion
import CompanyBackend.Routes.Groups

/-!
# Deletion of messages

A message claims its files: the row of a file names the message as what the file is used for.
Messages are deleted on five paths, and each marks the rows of some files. A single message marks
the files that it lists. The other paths look for rows that carry the id of a message, a field
which claims do not write, or for files of the channel or the server, or for nothing.

Each path is a sweep: it deletes the messages that it selects, marks the rows that pass its filter,
and leaves all other messages and rows alone. So the files of deleted messages are released if and
only if they pass the filter.
-/

namespace Company

open Request Collection Outcome MongoDb List

structure MessageDocument where
  id : String
  channel : String
  author : String
  attachments : Option (List File) := none
  deriving DecidableEq, Repr

structure MessageStore where
  db : MongoDb
  messages : Collection String MessageDocument MessageDocument.id

abbrev MessageTask (α : Type) := Request MessageStore Failure α

namespace MessageTask

variable {α : Type}

def fetch (f : MessageStore → Result α) : MessageTask α :=
  attempt fun store => (f store).mapError .error

def modify (f : MessageStore → MessageStore) : MessageTask Unit := write fun store => .ok (f store)

def ask (x : Route α) : MessageTask α := attempt fun store => (x store.db).1

end MessageTask

namespace MongoDb

variable (db : MongoDb)

theorem rolesKeyed_erase (id : String) :
    ∀ server ∈ (db.servers.erase id).documents, RolesKeyed server.roles := by
  intro server member
  have found := mem_documents.mp member
  have ne : server.id ≠ id := by
    intro same
    rw [same, find_erase] at found
    cases found
  rw [find_erase_ne ne] at found
  exact db.rolesKeyed server (mem_documents.mpr found)

def channelsOf (server : String) : List String :=
  (db.channels.documents.filter fun channel => channel.server == some server).map Channel.id

/-- Delete a server whose messages have been deleted, with its channels and
members. Emojis, bans, invites, unreads and webhooks are not modelled. -/
def deleteServer (id : String) : MongoDb :=
  let db := { db with
    channels := db.channels.retain fun channel => channel.server != some id
    serverMembers := db.serverMembers.retain fun member => member.id.server != id }
  let db := db.deleteManyAttachments fun file => file.usedFor.any fun usedFor => usedFor.id == id
  { db with servers := db.servers.erase id, rolesKeyed := db.rolesKeyed_erase id }

end MongoDb

namespace MessageStore

variable (store : MessageStore)

def row (id : String) : Option File := store.db.attachments.find id

def fetchMessage (id : String) : Result MessageDocument := orNotFound (store.messages.find id)

def asMessageInChannel (id channel : String) : Result MessageDocument := do
  let message ← store.fetchMessage id
  if message.channel != channel then .error .notFound else .ok message

def fetchMessagesById (ids : List String) : List MessageDocument :=
  store.messages.documents.filter fun message => ids.contains message.id

def markAttachmentsAsDeleted (ids : List String) : MessageStore :=
  { store with db := store.db.deleteManyAttachments fun file => ids.contains file.id }

def deleteMessage (id : String) : MessageStore :=
  { store with messages := store.messages.erase id }

def deleteMessages (channel : String) (ids : List String) : MessageStore :=
  { store with
    messages := store.messages.retain fun message =>
      !(message.channel == channel && ids.contains message.id) }

def attached (filter : MessageDocument → Bool) : List String :=
  (store.messages.documents.filter fun message =>
    filter message && message.attachments.isSome).map MessageDocument.id

def deleteBulkMessages (filter : MessageDocument → Bool) : MessageStore where
  db :=
    if (store.attached filter).isEmpty then store.db
    else store.db.deleteMessageAttachments (store.attached filter)
  messages := store.messages.retain fun message => !filter message

end MessageStore

open MessageStore

open MessageTask

/-- `Message::delete` -/
def MessageDocument.delete (message : MessageDocument) : MessageTask Unit := do
  let fileIds := (message.attachments.getD []).map File.id
  onlyIf (!fileIds.isEmpty) <| modify fun store =>
    store.markAttachmentsAsDeleted fileIds
  modify fun store => store.deleteMessage message.id

/-- `Message::bulk_delete` -/
def bulkDelete (channel : String) (ids : List String) : MessageTask Unit := do
  let validIds ← attempt fun store => .ok (((store.fetchMessagesById ids).filter fun message =>
    message.channel == channel).map MessageDocument.id)
  modify fun store => store.deleteMessages channel validIds

/-- The clock, the time of an id, and the text of a validation error. -/
structure MessageServices where
  now : Timestamp
  ulidTimestamp : String → Option Timestamp
  describeBulkDelete : (ids : List String) → String

variable (services : MessageServices) (user : User)

/-- Messages of others take a permission. -/
def ensureMayManage (channel : Channel) : MessageTask Unit :=
  ask do
    let permissions ← Route.channelPermissions services.now user channel
    Route.lift (permissions.throwIfLackingChannelPermission .manageMessages)

/-- `DELETE /channels/<target>/messages/<msg>` -/
def deleteMessage (target msg : String) : MessageTask Unit := do
  let message ← fetch fun store => store.asMessageInChannel msg target
  onlyIf (message.author != user.id) do
    let channel ← fetch fun store => store.db.fetchChannel target
    ensureMayManage services user channel
  message.delete

/-- The message has been sent within the past week. -/
def MessageServices.ensureRecent (id : String) : MessageTask Unit :=
  match services.ulidTimestamp id with
  | none => fail (.error .invalidOperation)
  | some sent =>
    ensure (decide (((sent - services.now).tdiv (24 * 60 * 60 * 1000)).natAbs ≤ 7))
      (.error .invalidOperation)

/-- `DELETE /channels/<target>/messages/bulk` -/
def bulkDeleteMessages (target : String) (ids : List String) : MessageTask Unit := do
  ensure (decide (1 ≤ ids.length) && decide (ids.length ≤ 100))
    (.error (.failedValidation (services.describeBulkDelete ids)))
  forEach services.ensureRecent ids
  let channel ← fetch fun store => store.db.fetchChannel target
  ensureMayManage services user channel
  bulkDelete target ids

/-- Who may purge depends on the type of the channel. -/
def ensureMayPurge : Channel → MessageTask Unit
  | .savedMessages channel => ensure (channel.user == user.id) (.error .notFound)
  | .directMessage channel => ensure (channel.recipients.contains user.id) (.error .notFound)
  | .group channel =>
    ensure (user.id == channel.owner || channel.moderators.contains user.id)
      (.error (.missingPermission "ManageMessages"))
  | .textChannel channel => ensureMayManage services user (.textChannel channel)

/-- `DELETE /channels/<target>/messages/purge/<before_id>`. What follows the
deletion, a new epoch of the channel and its token, does not fail. -/
def purgeBefore (target beforeId : String) : MessageTask Unit := do
  let channel ← fetch fun store => store.db.fetchChannel target
  ensureMayPurge services user channel
  let projection := fun message : MessageDocument =>
    message.channel == target && decide (message.id ≤ beforeId)
  let count ← attempt fun store => .ok (store.messages.documents.filter projection).length
  onlyIf (decide (0 < count)) <| modify fun store => store.deleteBulkMessages projection

/-- `delete_channel`. The attachments of its messages are dealt with when the
messages are deleted. -/
def deleteChannelMessages (channel : Channel) : MessageTask Unit := do
  modify fun store =>
    store.deleteBulkMessages fun message => message.channel == channel.id
  write fun store => ((store.db.deleteChannel [] channel).mapError .error).map fun db =>
    { store with db := db }

/-- `delete_server` -/
def deleteServerMessages (id : String) : MessageTask Unit := do
  let channels ← attempt fun store => .ok (store.db.channelsOf id)
  modify fun store =>
    store.deleteBulkMessages fun message => channels.contains message.channel
  modify fun store => { store with db := store.db.deleteServer id }

/-- The paths on which messages are deleted, with their arguments. -/
inductive MessagePath where
  | delete (services : MessageServices) (user : User) (target msg : String)
  | bulkDelete (services : MessageServices) (user : User) (target : String) (ids : List String)
  | purgeBefore (services : MessageServices) (user : User) (target beforeId : String)
  | deleteChannel (channel : Channel)
  | deleteServer (id : String)

namespace MessagePath

def run : MessagePath → MessageTask Unit
  | .delete services user target msg => Company.deleteMessage services user target msg
  | .bulkDelete services user target ids => bulkDeleteMessages services user target ids
  | .purgeBefore services user target beforeId => Company.purgeBefore services user target beforeId
  | .deleteChannel channel => deleteChannelMessages channel
  | .deleteServer id => deleteServerMessages id

def selects (store : MessageStore) : MessagePath → MessageDocument → Bool
  | .delete _ _ _ msg, message => message.id == msg
  | .bulkDelete _ _ target ids, message => message.channel == target && ids.contains message.id
  | .purgeBefore _ _ target beforeId, message =>
    message.channel == target && decide (message.id ≤ beforeId)
  | .deleteChannel channel, message => message.channel == channel.id
  | .deleteServer id, message => (store.db.channelsOf id).contains message.channel

def marks (store : MessageStore) (path : MessagePath) (file : File) : Bool :=
  match path with
  | .delete _ _ _ msg =>
    (store.messages.find msg).any fun message =>
      ((message.attachments.getD []).map File.id).contains file.id
  | .bulkDelete _ _ _ _ => false
  | .purgeBefore _ _ _ _ => file.messageId.any (store.attached (path.selects store)).contains
  | .deleteChannel channel =>
    file.messageId.any (store.attached (path.selects store)).contains ||
      file.usedFor.any fun usedFor => usedFor.id == channel.id
  | .deleteServer id =>
    file.messageId.any (store.attached (path.selects store)).contains ||
      file.usedFor.any fun usedFor => usedFor.id == id

end MessagePath

/-- The messages that are selected are deleted, the rows that pass the filter
are marked, and nothing else happens to messages and rows. -/
structure MessageStore.Sweeps (before : MessageStore) (selects : MessageDocument → Bool)
    (marks : File → Bool) (after : MessageStore) : Prop where
  messages : ∀ id, after.messages.find id =
    (before.messages.find id).filter fun message => !selects message
  rows : ∀ id, after.row id = (before.row id).map fun file =>
    if marks file then { file with deleted := some true } else file

variable {filter : MessageDocument → Bool} {marks : File → Bool} {after : MessageStore}
variable {channel : Channel}

namespace MessageStore

variable {store before middle : MessageStore} {selects selects' : MessageDocument → Bool}
variable {marks' : File → Bool}

theorem Sweeps.refl (store : MessageStore) :
    store.Sweeps (fun _ => false) (fun _ => false) store where
  messages id := by
    cases store.messages.find id <;> rfl
  rows id := by
    cases store.row id <;> rfl

/-- One sweep after the other. Whether a row passes the filter does not depend
on its mark. -/
theorem Sweeps.trans (first : before.Sweeps selects marks middle)
    (second : middle.Sweeps selects' marks' after)
    (unmarked : ∀ file, marks' { file with deleted := some true } = marks' file) :
    before.Sweeps (fun message => selects message || selects' message)
      (fun file => marks file || marks' file) after where
  messages id := by
    rw [second.messages, first.messages]
    cases before.messages.find id with
    | none => rfl
    | some message =>
      cases chosen : selects message <;> cases chosen' : selects' message <;>
        simp [Option.filter, chosen, chosen']
  rows id := by
    rw [second.rows, first.rows, Option.map_map]
    congr 1
    funext file
    cases passed : marks file <;> cases passed' : marks' file <;>
      simp [passed, passed', unmarked]

theorem Sweeps.congr (sweeps : before.Sweeps selects marks after)
    (sameMessages : ∀ message, before.messages.find message.id = some message →
      selects message = selects' message) (sameRows : ∀ file, marks file = marks' file) :
    before.Sweeps selects' marks' after where
  messages id := by
    rw [sweeps.messages]
    cases found : before.messages.find id with
    | none => rfl
    | some message =>
      have same := sameMessages message (by rw [key_of_find found, found])
      simp [Option.filter, same]
  rows id := by
    rw [sweeps.rows]
    congr 1
    funext file
    rw [sameRows]

theorem deleteMessage_sweeps (id : String) :
    store.Sweeps (fun message => message.id == id) (fun _ => false) (store.deleteMessage id) where
  messages other := by
    by_cases same : other = id
    · subst same
      rw [deleteMessage, find_erase]
      cases found : store.messages.find other with
      | none => rfl
      | some message => simp [Option.filter, key_of_find found]
    · rw [deleteMessage, find_erase_ne same]
      cases found : store.messages.find other with
      | none => rfl
      | some message => simp [Option.filter, key_of_find found, same]
  rows := (Sweeps.refl store).rows

theorem deleteMessages_sweeps (channel : String) (ids : List String) :
    store.Sweeps (fun message => message.channel == channel && ids.contains message.id)
      (fun _ => false) (store.deleteMessages channel ids) where
  messages _ := find_retain
  rows := (Sweeps.refl store).rows

theorem markAttachmentsAsDeleted_sweeps (ids : List String) :
    store.Sweeps (fun _ => false) (fun file => ids.contains file.id)
      (store.markAttachmentsAsDeleted ids) where
  messages := (Sweeps.refl store).messages
  rows := store.db.find_deleteManyAttachments _

theorem find_of_asMessageInChannel {id channel : String} {message : MessageDocument}
    (fetched : store.asMessageInChannel id channel = .ok message) :
    store.messages.find id = some message := by
  obtain ⟨found, read, checked⟩ := bind_eq_ok.mp fetched
  split at checked
  · cases checked
  · cases checked
    exact orNotFound_eq_ok.mp read

theorem any_contains_nil (id : Option String) : id.any ([] : List String).contains = false := by
  cases id <;> rfl

theorem attached_eq_nil
    (none : store.messages.documents.filter filter = []) : store.attached filter = [] := by
  rw [attached, map_eq_nil_iff, filter_eq_nil_iff]
  intro message member
  rw [Bool.and_eq_true]
  rintro ⟨passed, _⟩
  exact filter_eq_nil_iff.mp none message member passed

theorem deleteBulkMessages_sweeps (filter : MessageDocument → Bool) :
    store.Sweeps filter (fun file => file.messageId.any (store.attached filter).contains)
      (store.deleteBulkMessages filter) where
  messages _ := find_retain
  rows id := by
    rw [row, deleteBulkMessages]
    split
    · next empty =>
      rw [isEmpty_iff.mp empty]
      simp only [any_contains_nil]
      exact (Sweeps.refl store).rows id
    · exact store.db.find_deleteManyAttachments _ id

/-- Of what remains of the deletion of a channel, messages do not notice
anything, and rows only whether they belong to the channel. -/
theorem deleteChannel_sweeps {db : MongoDb} (deleted : store.db.deleteChannel [] channel = .ok db) :
    store.Sweeps (fun _ => false)
      (fun file => file.usedFor.any fun usedFor => usedFor.id == channel.id)
      { store with db := db } where
  messages := (Sweeps.refl store).messages
  rows id := by
    have unlinked : (store.db.deleteMessageAttachments []).attachments.find id =
        store.db.attachments.find id := by
      rw [deleteMessageAttachments, find_deleteManyAttachments]
      simp only [any_contains_nil]
      exact ((Sweeps.refl store).rows id).symm
    rw [row, (deleteChannel_eq_ok deleted).2, find_deleteManyAttachments, unlinked]
    rfl

theorem deleteServer_sweeps (id : String) :
    store.Sweeps (fun _ => false) (fun file => file.usedFor.any fun usedFor => usedFor.id == id)
      { store with db := store.db.deleteServer id } where
  messages := (Sweeps.refl store).messages
  rows other := by
    rw [row, deleteServer]
    exact find_deleteManyAttachments _ _ other

end MessageStore

/-! ## What the paths do -/

/-- The path sweeps if it succeeds. -/
def MessageStore.SweepsIfOk (store : MessageStore) (selects : MessageDocument → Bool)
    (marks : File → Bool) (r : Except Failure Unit) (after : MessageStore) : Prop :=
  r = .ok () → store.Sweeps selects marks after

variable {selects : MessageDocument → Bool}

theorem MessageStore.SweepsIfOk.error {store : MessageStore} (e : Failure) :
    store.SweepsIfOk selects marks (.error e) after := by
  rintro ⟨⟩

section Paths

variable {store : MessageStore} {services : MessageServices} {user : User}

theorem MessageDocument.delete_sweeps (message : MessageDocument) :
    Outcome message.delete store (store.SweepsIfOk (fun other => other.id == message.id)
      fun file => ((message.attachments.getD []).map File.id).contains file.id) := by
  refine Outcome.bind (R := fun r middle => r = .ok () ∧ store.Sweeps (fun _ => false)
    (fun file => ((message.attachments.getD []).map File.id).contains file.id) middle) ?_ ?_ ?_
  · apply Outcome.onlyIf
    · intro _
      exact ⟨rfl, store.markAttachmentsAsDeleted_sweeps _⟩
    · intro empty
      have none := isEmpty_iff.mp ((Bool.not_eq_false' _).mp empty)
      refine ⟨rfl, (MessageStore.Sweeps.refl store).congr (fun _ _ => rfl) ?_⟩
      intro file
      rw [none]
      rfl
  · rintro _ middle ⟨_, marked⟩ _
    refine (marked.trans (middle.deleteMessage_sweeps message.id) fun _ => rfl).congr ?_ ?_
    · exact fun _ _ => Bool.false_or _
    · exact fun _ => Bool.or_false _
  · rintro _ _ ⟨⟨⟩, _⟩

theorem bulkDelete_sweeps (target : String) (ids : List String) :
    Outcome (bulkDelete target ids) store (store.SweepsIfOk
      (fun message => message.channel == target && ids.contains message.id) fun _ => false) := by
  refine attempt_ok_bind rfl ?_
  intro _
  refine (store.deleteMessages_sweeps target _).congr ?_ fun _ => rfl
  intro message found
  rw [Bool.eq_iff_iff, Bool.and_eq_true, Bool.and_eq_true]
  constructor
  · rintro ⟨inChannel, valid⟩
    obtain ⟨other, listed, same⟩ := List.mem_map.mp (contains_iff_mem.mp valid)
    have named := (mem_filter.mp (mem_filter.mp listed).1).2
    rw [same] at named
    exact ⟨inChannel, named⟩
  · rintro ⟨inChannel, named⟩
    refine ⟨inChannel, contains_iff_mem.mpr (List.mem_map.mpr ⟨message, ?_, rfl⟩)⟩
    have fetched : message ∈ store.fetchMessagesById ids :=
      mem_filter.mpr ⟨mem_documents.mpr found, named⟩
    exact mem_filter.mpr ⟨fetched, inChannel⟩

theorem ensureMayManage_readOnly : ReadOnly (ensureMayManage services user channel) :=
  readOnly_attempt _

theorem ensureMayPurge_readOnly : ReadOnly (ensureMayPurge services user channel) := by
  cases channel with
  | textChannel document => exact ensureMayManage_readOnly
  | _ => exact readOnly_ensure _ _

theorem ensureRecent_readOnly (id : String) : ReadOnly (services.ensureRecent id) := by
  unfold MessageServices.ensureRecent
  split
  · exact readOnly_fail _
  · exact readOnly_ensure _ _

theorem deleteMessage_sweeps (target msg : String) :
    Outcome (deleteMessage services user target msg) store (store.SweepsIfOk
      (fun message => message.id == msg) fun file => (store.messages.find msg).any fun message =>
        ((message.attachments.getD []).map File.id).contains file.id) := by
  refine attempt_mapError_bind (fun message fetched => ?_) .error
  have found := find_of_asMessageInChannel fetched
  have checks : ReadOnly (onlyIf (message.author != user.id) do
      let channel ← fetch fun store => store.db.fetchChannel target
      ensureMayManage services user channel) :=
    readOnly_onlyIf (.read fun _ => ensureMayManage_readOnly)
  refine readOnly_bind checks (fun _ => ?_) .error
  refine message.delete_sweeps.mono fun r after sweeps returned => ?_
  refine (sweeps returned).congr ?_ ?_
  · intro other _
    rw [key_of_find found]
  · intro file
    rw [found]
    rfl

theorem bulkDeleteMessages_sweeps (target : String) (ids : List String) :
    Outcome (bulkDeleteMessages services user target ids) store (store.SweepsIfOk
      (fun message => message.channel == target && ids.contains message.id) fun _ => false) := by
  refine readOnly_bind (readOnly_ensure _ _) (fun _ => ?_) .error
  refine readOnly_bind (.forEach ensureRecent_readOnly ids) (fun _ => ?_) .error
  refine readOnly_bind (readOnly_attempt _) (fun channel => ?_) .error
  refine readOnly_bind ensureMayManage_readOnly (fun _ => ?_) .error
  exact bulkDelete_sweeps target ids

/-- A purge that finds no message does not look at the rows, and none would pass
its filter. -/
theorem purgeBefore_sweeps {target beforeId : String} {purged : MessageDocument → Bool}
    (same : purged = fun message => message.channel == target && decide (message.id ≤ beforeId)) :
    Outcome (purgeBefore services user target beforeId) store (store.SweepsIfOk purged
      fun file => file.messageId.any (store.attached purged).contains) := by
  subst same
  refine readOnly_bind (readOnly_attempt _) (fun channel => ?_) .error
  refine readOnly_bind ensureMayPurge_readOnly (fun _ => ?_) .error
  refine attempt_ok_bind rfl ?_
  apply Outcome.onlyIf
  · intro _ _
    exact store.deleteBulkMessages_sweeps _
  · intro none _
    have none := length_eq_zero_iff.mp (Nat.eq_zero_of_not_pos (of_decide_eq_false none))
    refine (MessageStore.Sweeps.refl store).congr ?_ ?_
    · intro message found
      have passed := filter_eq_nil_iff.mp none message (mem_documents.mpr found)
      exact (Bool.eq_false_of_not_eq_true passed).symm
    · intro file
      rw [attached_eq_nil none, any_contains_nil]

/-- Deleting the messages of some channels marks rows of messages, and what
follows marks rows of the channel or the server. -/
theorem MessageStore.Sweeps.follow
    (sweeps : (store.deleteBulkMessages filter).Sweeps (fun _ => false) marks after)
    (unmarked : ∀ file, marks { file with deleted := some true } = marks file) :
    store.Sweeps filter
      (fun file => file.messageId.any (store.attached filter).contains || marks file) after := by
  refine ((store.deleteBulkMessages_sweeps filter).trans sweeps unmarked).congr ?_ fun _ => rfl
  exact fun _ _ => Bool.or_false _

theorem deleteChannelMessages_sweeps :
    Outcome (deleteChannelMessages channel) store (store.SweepsIfOk
      (fun message => message.channel == channel.id) fun file =>
        file.messageId.any
            (store.attached fun message => message.channel == channel.id).contains ||
          file.usedFor.any fun usedFor => usedFor.id == channel.id) := by
  refine write_bind ?_ fun e _ => .error e
  rintro middle ⟨⟩
  rw [Outcome, write]
  cases deleted : (store.deleteBulkMessages fun message =>
      message.channel == channel.id).db.deleteChannel [] channel with
  | error e => exact .error _
  | ok db => exact fun _ => (deleteChannel_sweeps deleted).follow fun _ => rfl

theorem deleteServerMessages_sweeps (id : String) :
    Outcome (deleteServerMessages id) store (store.SweepsIfOk
      (fun message => (store.db.channelsOf id).contains message.channel) fun file =>
        file.messageId.any (store.attached fun message =>
            (store.db.channelsOf id).contains message.channel).contains ||
          file.usedFor.any fun usedFor => usedFor.id == id) := by
  refine attempt_ok_bind rfl ?_
  refine write_bind ?_ fun e _ => .error e
  rintro middle ⟨⟩
  exact fun _ => (deleteServer_sweeps id).follow fun _ => rfl

theorem MessagePath.run_sweeps (path : MessagePath) :
    Outcome path.run store (store.SweepsIfOk (path.selects store) (path.marks store)) := by
  cases path with
  | delete services user target msg => exact deleteMessage_sweeps target msg
  | bulkDelete services user target ids => exact bulkDeleteMessages_sweeps target ids
  | purgeBefore services user target beforeId => exact purgeBefore_sweeps rfl
  | deleteChannel channel => exact deleteChannelMessages_sweeps
  | deleteServer id => exact deleteServerMessages_sweeps id

end Paths

def File.ClaimedBy (file : File) (message : MessageDocument) : Prop :=
  file.usedFor = some { objectType := .message, id := message.id }

/-- Every row that was claimed by a message which is gone is marked. -/
def MessageStore.Released (before after : MessageStore) : Prop :=
  ∀ message id row, before.messages.find message.id = some message →
    after.messages.find message.id = none → before.row id = some row → row.ClaimedBy message →
    ∃ row', after.row id = some row' ∧ row'.deleted = some true

/-- A sweep releases the files of the messages that it selects if it marks their
rows. -/
theorem MessageStore.Sweeps.released_iff {before : MessageStore}
    (sweeps : before.Sweeps selects marks after) :
    before.Released after ↔ ∀ message id row, before.messages.find message.id = some message →
      selects message → before.row id = some row → row.ClaimedBy message →
      row.deleted = some true ∨ marks row := by
  have gone : ∀ message, before.messages.find message.id = some message →
      (after.messages.find message.id = none ↔ selects message = true) := by
    intro message found
    rw [sweeps.messages, found]
    simp [Option.filter]
  have marked : ∀ id row, before.row id = some row →
      ((∃ row', after.row id = some row' ∧ row'.deleted = some true) ↔
        row.deleted = some true ∨ marks row = true) := by
    intro id row found
    rw [sweeps.rows, found]
    cases passed : marks row <;> simp [passed]
  constructor
  · intro released message id row found selected stored claimed
    exact (marked id row stored).mp
      (released message id row found ((gone message found).mpr selected) stored claimed)
  · intro covered message id row found deleted stored claimed
    exact (marked id row stored).mpr
      (covered message id row found ((gone message found).mp deleted) stored claimed)

/-- When a path has succeeded, the files of the messages that it has deleted are
marked, if and only if each of them was marked before or passes the filter of
the path. -/
theorem deleted_messages_release_iff (path : MessagePath) (store : MessageStore)
    (succeeded : (path.run store).1 = .ok ()) :
    store.Released (path.run store).2 ↔
      ∀ message id row, store.messages.find message.id = some message →
        path.selects store message → store.row id = some row → row.ClaimedBy message →
        row.deleted = some true ∨ path.marks store row :=
  (path.run_sweeps succeeded).released_iff

def attachedFile : File where
  id := "file"
  tag := "attachments"
  filename := "image.png"
  hash := some "hash"
  usedFor := some { objectType := .message, id := "01H" }
  uploaderId := some "alice"

def attachedServer : Server where
  id := "server"
  owner := "alice"
  channels := ["channel"]

def attachedChannel : Channel := .textChannel { id := "channel", server := "server" }

theorem attachedServers_keyed :
    ∀ server ∈ (ofDocuments [attachedServer] :
      Collection String Server Server.id).documents, RolesKeyed server.roles := by
  decide

def attachedMessage : MessageDocument where
  id := "01H"
  channel := "channel"
  author := "alice"
  attachments := some [attachedFile]

def attachedStore : MessageStore where
  db := {
    users := .empty
    servers := .ofDocuments [attachedServer]
    channels := .ofDocuments [attachedChannel]
    serverMembers := .empty
    attachments := .ofDocuments [attachedFile]
    rolesKeyed := attachedServers_keyed }
  messages := .ofDocuments [attachedMessage]

def MessageServices.sample : MessageServices where
  now := 0
  ulidTimestamp _ := some 0
  describeBulkDelete _ := ""

/-- The author deletes the message, and the file is released. -/
theorem deleted_messages_release_one :
    attachedStore.Released
      ((MessagePath.delete .sample { id := "alice" } "channel" "01H").run attachedStore).2 := by
  apply (deleted_messages_release_iff _ attachedStore (by decide +kernel)).mpr
  intro message id row _ _ stored _
  right
  have member : row ∈ attachedStore.db.attachments.documents := by
    obtain rfl := key_of_find stored
    exact mem_documents.mpr stored
  have marked : ∀ row ∈ attachedStore.db.attachments.documents,
      MessagePath.marks attachedStore (.delete .sample { id := "alice" } "channel" "01H") row =
        true := by
    decide +kernel
  exact marked row member

/-- The path succeeds, and a file of a message that it has deleted is not
marked. -/
def MessagePath.Leaks (path : MessagePath) (store : MessageStore) : Prop :=
  (path.run store).1 = .ok () ∧ ¬ store.Released (path.run store).2

theorem MessagePath.leaks_of_unmarked {path : MessagePath}
    (ran : (path.run attachedStore).1 = .ok () ∧
      (path.run attachedStore).2.messages.find "01H" = none ∧
      (path.run attachedStore).2.row "file" = some attachedFile) : path.Leaks attachedStore := by
  obtain ⟨succeeded, deleted, unmarked⟩ := ran
  refine ⟨succeeded, fun released => ?_⟩
  obtain ⟨row, found, marked⟩ := released attachedMessage "file" attachedFile (by decide +kernel)
    deleted (by decide +kernel) rfl
  rw [unmarked] at found
  cases found
  cases marked

/-- The owner of the server, who may do so, deletes the message with others,
purges the channel, deletes the channel or deletes the server. -/
theorem deleted_messages_leak :
    (MessagePath.bulkDelete .sample { id := "alice" } "channel" ["01H"]).Leaks attachedStore ∧
      (MessagePath.purgeBefore .sample { id := "alice" } "channel" "01H").Leaks attachedStore ∧
      (MessagePath.deleteChannel attachedChannel).Leaks attachedStore ∧
      (MessagePath.deleteServer "server").Leaks attachedStore := by
  refine ⟨?_, ?_, ?_, ?_⟩
  all_goals
    apply MessagePath.leaks_of_unmarked
    decide +kernel

end Company
