import CompanyBackend.Routes.ChannelPermissions
import CompanyBackend.Routes.ProfileEdit

/-!
# Groups

A group has an owner, recipients and moderators. They are stored in one document and changed
by separate updates: a new recipient is pushed to the list, a removed one is pulled from it,
and the owner and the moderators are set. When the owner leaves, the first other recipient
becomes the owner, and a group without any other recipient is deleted.

A group is sound if its owner and its moderators are recipients, no recipient is listed twice,
and the recipients are within the size that is configured. The methods are given the document
as it is stored; they keep all groups sound, with every single update.

The system messages that announce a change are sent after it and a failure to send one is
ignored. They are not part of the store here, and neither are invites, unread markers and
webhooks.
-/

namespace Company

open Request Channel MongoDb Collection List

/-- The system messages of a server that no longer go to a channel. -/
def SystemMessageChannels.without (id : String) (channels : SystemMessageChannels) :
    SystemMessageChannels where
  userJoined := channels.userJoined.filter (· != id)
  userLeft := channels.userLeft.filter (· != id)
  userKicked := channels.userKicked.filter (· != id)
  userBanned := channels.userBanned.filter (· != id)

def Server.withoutChannel (id : String) (server : Server) : Server :=
  { server with
    channels := server.channels.filter (· != id)
    systemMessages := server.systemMessages.map (SystemMessageChannels.without id) }

def Channel.mapRecipients (f : List String → List String) : Channel → Channel
  | .directMessage channel => .directMessage { channel with recipients := f channel.recipients }
  | .group channel => .group { channel with recipients := f channel.recipients }
  | channel => channel

theorem Channel.mapRecipients_id (f : List String → List String) (channel : Channel) :
    (channel.mapRecipients f).id = channel.id := by
  cases channel <;> rfl

namespace MongoDb

variable (db : MongoDb)

def insertChannel (channel : Channel) : Result MongoDb :=
  if (db.channels.find channel.id).isSome then
    .error (.databaseError "insert_one" "channels")
  else .ok { db with channels := db.channels.insert channel }

def updateRecipients (id : String) (f : List String → List String) : MongoDb :=
  { db with
    channels := db.channels.update id (mapRecipients f) (mapRecipients_id f) }

/-- `$push` -/
def addUserToGroup (channel user : String) : MongoDb :=
  db.updateRecipients channel (· ++ [user])

/-- `$pull` -/
def removeUserFromGroup (channel user : String) : MongoDb :=
  db.updateRecipients channel (List.filter (· != user))

/-- Delete a channel whose messages with attachments are given. -/
def deleteChannel (attached : List String) (channel : Channel) : Result MongoDb := do
  let db := db.deleteMessageAttachments attached
  let db ←
    match channel.server with
    | some serverId => do
      let server ← db.fetchServer serverId
      pure (db.modifyServer server.id (Server.withoutChannel channel.id) (fun _ => rfl)
        fun _ keyed => keyed)
    | none => pure db
  let db := db.deleteManyAttachments fun file =>
    file.usedFor.any fun usedFor => usedFor.id == channel.id
  pure { db with channels := db.channels.erase channel.id }

end MongoDb

abbrev HashSet (K : Type) := HashMap K Unit

structure DataCreateGroup where
  name : String
  description : Option String := none
  icon : Option String := none
  users : HashSet String := ∅
  nsfw : Option Bool := none

def File.useChannelIcon : (id parent uploaderId : String) → Route File :=
  useFor "icons" .channelIcon

namespace Channel

/-- Create a group under a new id. The owner is one of its recipients. -/
def createGroup (size : Nat) (id : String) (data : DataCreateGroup) (ownerId : String) :
    Route Channel := do
  let users : HashSet String := data.users.orInsert ownerId ()
  ensure (decide (users.size ≤ size)) (.error (.groupTooLarge size))
  let icon ← onPayload (fun icon => File.useChannelIcon icon id ownerId) data.icon
  let channel := Channel.group
    { id
      name := data.name
      owner := ownerId
      description := data.description
      recipients := users.keys
      icon
      nsfw := data.nsfw.getD false }
  Route.update fun db => db.insertChannel channel
  return channel

def addUserToGroup (size : Nat) (channel : Channel) (user : User) : Route Channel :=
  match channel with
  | .group document => do
    ensure (!document.recipients.contains user.id) (.error .alreadyInGroup)
    ensure (decide (document.recipients.length < size)) (.error (.groupTooLarge size))
    Route.update fun db => .ok (db.addUserToGroup document.id user.id)
    return .group { document with recipients := document.recipients ++ [user.id] }
  | _ => fail (.error .invalidOperation)

/-- Delete a channel, given the messages of each channel that have
attachments. -/
def delete (attached : String → List String) (channel : Channel) : Route Unit :=
  Route.update fun db => db.deleteChannel (attached channel.id) channel

end Channel

/-- Take a user who is no longer the owner from the moderators and the
recipients. -/
def Group.leave (group : Group) (user : User) : Route Unit := do
  onlyIf (group.moderators.contains user.id) <| Route.update fun db =>
    db.updateChannel group.id { moderators := some (group.moderators.filter (· != user.id)) } []
  Route.update fun db => .ok (db.removeUserFromGroup group.id user.id)

def Channel.removeUserFromGroup (attached : String → List String) (channel : Channel)
    (user : User) : Route Unit :=
  match channel with
  | .group document =>
    if user.id = document.owner then
      match document.recipients.find? (· != user.id) with
      | some newOwner => do
        Route.update fun db => db.updateChannel document.id { owner := some newOwner } []
        document.leave user
      | none => Channel.delete attached (.group document)
    else document.leave user
  | _ => fail (.error .invalidOperation)

/-! ## Soundness -/

structure Group.Sound (size : Nat) (group : Group) : Prop where
  owner : group.owner ∈ group.recipients
  moderators : ∀ id ∈ group.moderators, id ∈ group.recipients
  distinct : group.recipients.Nodup
  within : group.recipients.length ≤ size

def GroupsSound (size : Nat) (channels : Collection String Channel Channel.id) : Prop :=
  ∀ id group, channels.find id = some (.group group) → group.Sound size

variable {id : String} {group : Group}

section Sound

variable {size : Nat} {user : User} {db db' : MongoDb}
variable {channels : Collection String Channel Channel.id}

/-- A new recipient who was none keeps the group sound, if there is room. -/
theorem Group.Sound.add (sound : group.Sound size) (fresh : user.id ∉ group.recipients)
    (room : group.recipients.length < size) :
    Group.Sound size { group with recipients := group.recipients ++ [user.id] } where
  owner := mem_append_left _ sound.owner
  moderators id member := mem_append_left _ (sound.moderators id member)
  distinct := by
    rw [← concat_eq_append, nodup_concat]
    exact ⟨fresh, sound.distinct⟩
  within := by
    rw [length_append]
    exact room

/-- A recipient who is neither the owner nor a moderator can be removed. -/
theorem Group.Sound.remove (sound : group.Sound size) (owner : id ≠ group.owner)
    (moderators : id ∉ group.moderators) :
    Group.Sound size { group with recipients := group.recipients.filter (· != id) } where
  owner := mem_filter.mpr ⟨sound.owner, by simpa using Ne.symm owner⟩
  moderators other member := by
    refine mem_filter.mpr ⟨sound.moderators other member, ?_⟩
    have apart : other ≠ id := by
      rintro rfl
      exact moderators member
    simpa using apart
  distinct := sound.distinct.filter _
  within := (length_filter_le _ _).trans sound.within

section

variable (sound : GroupsSound size channels)

include sound

/-- An update keeps the groups sound if the group that it leaves is sound. -/
theorem GroupsSound.update {f : Channel → Channel} (keeps : ∀ channel, (f channel).id = channel.id)
    (written : ∀ channel group, channels.find id = some channel → f channel = .group group →
      group.Sound size) : GroupsSound size (channels.update id f keeps) := by
  intro other group found
  by_cases same : other = id
  · subst same
    rw [find_update, Option.map_eq_some_iff] at found
    obtain ⟨channel, stored, changed⟩ := found
    exact written channel group stored changed
  · rw [find_update_ne same] at found
    exact sound other group found

theorem GroupsSound.insert
    (own : group.Sound size) : GroupsSound size (channels.insert (.group group)) := by
  intro other group' found
  by_cases same : other = (Channel.group group).id
  · subst same
    rw [find_insert] at found
    cases found
    exact own
  · rw [find_insert_ne same] at found
    exact sound other group' found

theorem GroupsSound.erase (id : String) : GroupsSound size (channels.erase id) := by
  intro other group found
  by_cases same : other = id
  · rw [same, find_erase] at found
    cases found
  · rw [find_erase_ne same] at found
    exact sound other group found

end

/-- A group document that is updated keeps its recipients. -/
theorem Channel.updated_group (data : PartialChannel) (remove : List FieldsChannel)
    (group : Group) :
    ∃ name description icon nsfw permissions encrypted lastMessageId,
      (Channel.group group).updated data remove = .group
        { group with
          name, description, icon, nsfw, permissions, encrypted, lastMessageId
          owner := data.owner.getD group.owner
          moderators := data.moderators.getD group.moderators } := by
  have removed : ∃ description icon, remove.foldl (fun channel field => channel.removeField field)
      (Channel.group group) = .group { group with description, icon } := by
    induction remove generalizing group with
    | nil => exact ⟨_, _, rfl⟩
    | cons field remove ih =>
      rw [foldl_cons]
      cases field with
      | description => exact ih { group with description := none }
      | icon => exact ih { group with icon := none }
      | defaultPermissions | voice => exact ih group
  obtain ⟨description, icon, removed⟩ := removed
  rw [Channel.updated, removed]
  exact ⟨_, _, _, _, _, _, _, rfl⟩

def Channel.isGroup : Channel → Bool
  | .group _ => true
  | _ => false

theorem Channel.updated_isGroup (data : PartialChannel) (remove : List FieldsChannel)
    (channel : Channel) : (channel.updated data remove).isGroup = channel.isGroup := by
  have removed : (remove.foldl (fun channel field => channel.removeField field) channel).isGroup =
      channel.isGroup := by
    refine read_foldl_edit isGroup ?_ remove channel
    intro channel field
    cases channel <;> cases field <;> rfl
  rw [Channel.updated, ← removed]
  cases remove.foldl (fun channel field => channel.removeField field) channel <;> rfl

end Sound

section Methods

variable {size : Nat} {stored : Group} {user : User} {db : MongoDb} {channel : Channel}
variable {attached : String → List String}

/-- The groups that are left are sound, whatever the result. -/
def LeavesSound (size : Nat) {α : Type} (_ : Except Failure α) (db : MongoDb) : Prop :=
  GroupsSound size db.channels

variable {db' : MongoDb} {remove : List FieldsChannel} {data : PartialChannel}

/-- The store after an update of a channel: the groups are sound if the owner
and the moderators that are set are recipients. -/
theorem MongoDb.updateChannel_sound (sound : GroupsSound size db.channels)
    (found : db.channels.find id = some channel)
    (written : db.updateChannel id data remove = .ok db')
    (kept : ∀ group, channel = .group group → data.owner.getD group.owner ∈ group.recipients ∧
      ∀ id ∈ data.moderators.getD group.moderators, id ∈ group.recipients) :
    GroupsSound size db'.channels := by
  have changes := updateChannel_changes found written
  intro other group found'
  by_cases same : other = id
  · rw [same, changes.after, Option.some.injEq] at found'
    have grouped := updated_isGroup data remove channel
    rw [found'] at grouped
    cases channel with
    | group document =>
      obtain ⟨_, _, _, _, _, _, _, updated⟩ := updated_group data remove document
      rw [updated] at found'
      cases found'
      have before := sound id document found
      obtain ⟨owner, moderators⟩ := kept document rfl
      exact ⟨owner, moderators, before.distinct, before.within⟩
    | _ => cases grouped
  · rw [changes.others other same] at found'
    exact sound other group found'

theorem MongoDb.find_updateChannel_group (found : db.channels.find id = some (.group stored))
    (written : db.updateChannel id data remove = .ok db') :
    ∃ updated : Group, db'.channels.find id = some (.group updated) ∧
      updated.owner = data.owner.getD stored.owner ∧
      updated.moderators = data.moderators.getD stored.moderators := by
  have changes := updateChannel_changes found written
  obtain ⟨_, _, _, _, _, _, _, updated⟩ := updated_group data remove stored
  rw [updated] at changes
  exact ⟨_, changes.after, rfl, rfl⟩

theorem MongoDb.updateRecipients_sound (sound : GroupsSound size db.channels)
    (found : db.channels.find id = some (.group stored)) {f : List String → List String}
    (written : Group.Sound size { stored with recipients := f stored.recipients }) :
    GroupsSound size (db.updateRecipients id f).channels := by
  refine sound.update (mapRecipients_id f) ?_
  intro channel group found' changed
  cases found.symm.trans found'
  cases changed
  exact written

theorem Channel.addUserToGroup_sound (sound : GroupsSound size db.channels)
    (found : db.channels.find channel.id = some channel) :
    Outcome (channel.addUserToGroup size user) db (LeavesSound size) := by
  cases channel with
  | group document =>
    rw [addUserToGroup]
    apply Outcome.ensure_bind _ fun _ => sound
    intro fresh
    apply Outcome.ensure_bind _ fun _ => sound
    intro room
    refine updateRecipients_sound sound found ((sound _ _ found).add ?_ ?_)
    · simpa using fresh
    · simpa using room
  | _ => exact sound

/-- A user who is not the owner leaves. The document may have got another owner
since it was read. -/
theorem Group.leave_sound (sound : GroupsSound size db.channels)
    (found : db.channels.find group.id = some (.group stored))
    (moderators : stored.moderators = group.moderators) (owner : user.id ≠ stored.owner) :
    Outcome (group.leave user) db (LeavesSound size) := by
  have last : ∀ (db : MongoDb) (stored : Group), GroupsSound size db.channels →
      db.channels.find group.id = some (.group stored) → user.id ≠ stored.owner →
      user.id ∉ stored.moderators →
        GroupsSound size (db.removeUserFromGroup group.id user.id).channels := by
    intro db stored sound found owner moderators
    exact updateRecipients_sound sound found ((sound _ _ found).remove owner moderators)
  rw [Group.leave]
  cases moderates : group.moderators.contains user.id with
  | false =>
    refine last db stored sound found owner ?_
    rw [moderators]
    simpa using moderates
  | true =>
    rw [onlyIf, if_pos rfl]
    apply Outcome.update_bind _ fun _ => sound
    intro db' written
    have kept : ∀ id ∈ group.moderators.filter (· != user.id), id ∈ stored.recipients := by
      intro id member
      refine (sound _ _ found).moderators id ?_
      rw [moderators]
      exact (mem_filter.mp member).1
    have sound' : GroupsSound size db'.channels := by
      refine updateChannel_sound sound found written ?_
      rintro _ ⟨⟩
      exact ⟨(sound _ _ found).owner, kept⟩
    obtain ⟨updated, found', owner', moderators'⟩ := find_updateChannel_group found written
    refine last db' updated sound' found' ?_ ?_
    · rw [owner']
      exact owner
    · rw [moderators']
      simp

/-- Whatever becomes of its server, the deletion of a channel removes one
channel and marks the files of its messages and its own. -/
theorem MongoDb.deleteChannel_eq_ok {messages : List String}
    (deleted : db.deleteChannel messages channel = .ok db') :
    db'.channels = db.channels.erase channel.id ∧
      db'.attachments = ((db.deleteMessageAttachments messages).deleteManyAttachments fun file =>
        file.usedFor.any fun usedFor => usedFor.id == channel.id).attachments := by
  rw [deleteChannel] at deleted
  cases server : channel.server with
  | none =>
    rw [server] at deleted
    cases deleted
    exact ⟨rfl, rfl⟩
  | some serverId =>
    rw [server] at deleted
    cases fetched : (db.deleteMessageAttachments messages).fetchServer serverId with
    | error e =>
      simp only [fetched] at deleted
      cases deleted
    | ok server =>
      simp only [fetched] at deleted
      cases deleted
      exact ⟨rfl, rfl⟩

theorem Channel.delete_sound (sound : GroupsSound size db.channels) :
    Outcome (channel.delete attached) db (LeavesSound size) := by
  rw [Channel.delete, Outcome, Route.update, Request.write]
  cases deleted : db.deleteChannel (attached channel.id) channel with
  | error e => exact sound
  | ok db' =>
    show GroupsSound size db'.channels
    rw [(deleteChannel_eq_ok deleted).1]
    exact sound.erase _

theorem Channel.removeUserFromGroup_sound (sound : GroupsSound size db.channels)
    (found : db.channels.find channel.id = some channel) :
    Outcome (channel.removeUserFromGroup attached user) db (LeavesSound size) := by
  cases channel with
  | group group =>
    rw [removeUserFromGroup]
    by_cases owns : user.id = group.owner
    · rw [if_pos owns]
      cases heir : group.recipients.find? (· != user.id) with
      | none => exact delete_sound sound
      | some newOwner =>
        have recipient : newOwner ∈ group.recipients := mem_of_find?_eq_some heir
        have other : newOwner ≠ user.id := by simpa using List.find?_some heir
        apply Outcome.update_bind _ fun _ => sound
        intro db' written
        have sound' : GroupsSound size db'.channels := by
          refine updateChannel_sound sound found written ?_
          rintro _ ⟨⟩
          exact ⟨recipient, (sound _ _ found).moderators⟩
        obtain ⟨updated, found', owner, moderators⟩ := find_updateChannel_group found written
        refine Group.leave_sound sound' found' moderators ?_
        rw [owner]
        exact Ne.symm other
    · rw [if_neg owns]
      exact Group.leave_sound sound found rfl owns
  | _ => exact sound

theorem File.useFor_keeps (P : Collection String Channel Channel.id → Prop)
    (tag : String) (objectType : FileUsedForType) (id parent uploaderId : String) :
    Keeps (fun db => P db.channels) (File.useFor tag objectType id parent uploaderId) := by
  intro db held
  rw [File.useFor, findAndUseAttachment]
  cases db.attachments.find id with
  | none => exact held
  | some file =>
    by_cases usable : file.tag = tag ∧ file.usedFor = none
    · simp only [usable, and_self, if_true]
      exact held
    · simp only [usable, if_false]
      exact held

theorem onPayload_keeps {α β : Type} {P : MongoDb → Prop} {action : α → Route β}
    (each : ∀ a, Keeps P (action a)) (payload : Option α) : Keeps P (onPayload action payload) := by
  cases payload with
  | none => exact keeps_pure _
  | some a => exact (each a).bind fun _ => keeps_pure _

theorem DataCreateGroup.sound {data : DataCreateGroup} {ownerId : String}
    (within : HashMap.size (data.users.orInsert ownerId ()) ≤ size)
    (recipients : group.recipients = (data.users.orInsert ownerId ()).keys)
    (owner : group.owner = ownerId) (moderators : group.moderators = []) : group.Sound size where
  owner := by
    rw [owner, recipients, ← AList.mem_keys, ← AList.lookup_isSome, HashMap.lookup_orInsert]
    simp
  moderators id member := by
    rw [moderators] at member
    cases member
  distinct := by
    rw [recipients]
    exact AList.keys_nodup _
  within := by
    rw [recipients]
    simpa [AList.keys, List.keys, HashMap.size] using within

theorem Channel.createGroup_sound (sound : GroupsSound size db.channels) (id : String)
    (data : DataCreateGroup) (ownerId : String) :
    Outcome (createGroup size id data ownerId) db (LeavesSound size) := by
  rw [createGroup]
  apply Outcome.ensure_bind _ fun _ => sound
  intro within
  have claims := onPayload_keeps (P := fun db => GroupsSound size db.channels)
    (fun icon => File.useFor_keeps (GroupsSound size) "icons" .channelIcon icon id ownerId)
    data.icon
  apply Outcome.keeps_bind claims sound _ fun _ _ kept => kept
  intro icon db' kept
  apply Outcome.update_bind _ fun _ => kept
  intro db'' inserted
  rw [insertChannel] at inserted
  split at inserted
  · cases inserted
  · cases inserted
    exact kept.insert (DataCreateGroup.sound (by simpa using within) rfl rfl rfl)

end Methods

end Company
