import CompanyBackend.Channels.Groups
import CompanyBackend.Users.Relationships

/-!
# Group routes

The routes that create a group, add somebody to it, remove somebody from it, and edit it. A
user is added by a friend, by an invite, or, for a bot, by the one who invites it; a user is
removed by the owner or a moderator, or leaves by closing the channel. Ownership and the list
of moderators are edited together with the other fields of the channel.

Each route fetches the channel once and works with that document. Run one after the other,
the routes keep every group sound, also those that fail on the way.
-/

namespace Company

open Request Outcome Route

inductive BotType where
  | regular | aiCompanion
  deriving DecidableEq, Repr

structure Bot where
  id : String
  owner : String
  isPublic : Bool
  botType : BotType := .regular
  deriving DecidableEq, Repr

structure GroupInvite where
  channel : String
  creator : String
  deriving DecidableEq, Repr

def DataCreateGroup.valid (data : DataCreateGroup) : Bool :=
  lengthWithin 1 32 (some data.name) && lengthWithin 0 1024 data.description &&
    lengthWithin 1 128 data.icon && decide (data.users.size ≤ 49)

structure DataEditChannel where
  name : Option String := none
  description : Option String := none
  owner : Option String := none
  icon : Option String := none
  nsfw : Option Bool := none
  archived : Option Bool := none
  voice : Option VoiceInformation := none
  addModerators : Option (List String) := none
  removeModerators : Option (List String) := none
  remove : List FieldsChannel := []
  deriving DecidableEq, Repr

namespace DataEditChannel

variable (data : DataEditChannel)

def valid : Bool :=
  lengthWithin 1 32 data.name && lengthWithin 0 1024 data.description &&
    lengthWithin 1 128 data.icon

def hasModChanges : Bool :=
  data.addModerators.isSome || data.removeModerators.isSome

def changesNothing : Bool :=
  data.name.isNone && data.description.isNone && data.icon.isNone && data.nsfw.isNone &&
    data.owner.isNone && data.voice.isNone && !data.hasModChanges && data.remove.isEmpty

end DataEditChannel

/-- What the routes need beside the store: the time, the messages of each
channel that have attachments, the voice subsystem, the limits of a user, and
bots and invites. -/
structure GroupServices where
  now : Timestamp
  attached : String → List String
  isInVoiceChannel : (user channel : String) → Except Failure Bool
  removeUserFromVoiceChannel : MongoDb → (channel user : String) → Except Failure Unit
  deleteVoiceChannel : (channel : String) → Option String → Except Failure Unit
  maxVoiceBitrate : User → UInt32
  canAcquireServer : MongoDb → User → Result Unit
  fetchBot : String → Result Bot
  fetchInvite : String → Result GroupInvite
  fetchManyIdsAsMutuals : MongoDb → User → List String → Result (List User)
  /-- The texts of the validation library. -/
  describeCreate : DataCreateGroup → String
  describeEdit : DataEditChannel → String

variable (user : User)

def User.isFriendsWith (userB : String) : Bool :=
  user.relationshipWith userB == .friend || user.relationshipWith userB == .user

def Route.channelPermissions (now : Timestamp) (user : User) (channel : Channel) :
    Route PermissionValue := do
  let (value, _) ← ask
    (fun db => (DatabasePermissionQuery.new db now user).withChannel channel)
    PermissionQuery.calculateChannelPermissions
  return value

variable (size : Nat) (services : GroupServices) (user : User)

/-- `POST /channels/create` -/
def createGroup (id : String) (user : User) (data : DataCreateGroup) : Route Channel := do
  ensure user.bot.isNone (.error .isBot)
  ensure data.valid (.error (.failedValidation (services.describeCreate data)))
  ensure (data.users.keys.all user.isFriendsWith) (.error .notFriends)
  Channel.createGroup size id data user.id

/-- `PUT /channels/<group_id>/recipients/<member_id>` -/
def addGroupMember (groupId memberId : String) : Route Unit := do
  ensure user.bot.isNone (.error .isBot)
  let channel ← fetch fun db => db.fetchChannel groupId
  let permissions ← channelPermissions services.now user channel
  lift (permissions.throwIfLackingChannelPermission .inviteOthers)
  match channel with
  | .group _ =>
    let member ← fetch fun db => db.fetchUser memberId
    ensure (user.isFriendsWith member.id) (.error .notFriends)
    let _ ← channel.addUserToGroup size member
  | _ => fail (.error .invalidOperation)

/-- `POST /bots/<target>/invite` with a group as the destination. What the bot
is sent to read an encrypted group is left out. -/
def inviteBotToGroup (target group : String) : Route Unit := do
  ensure user.bot.isNone (.error .isBot)
  let bot ← lift (services.fetchBot target)
  ensure (bot.isPublic || bot.owner == user.id) (.error .botIsPrivate)
  let botUser ← fetch fun db => db.fetchUser bot.id
  ensure (bot.botType != .aiCompanion)
    (.error (.aiCompanionServerLimit "AI Companion bots can only join servers, not groups."))
  let channel ← fetch fun db => db.fetchChannel group
  let permissions ← channelPermissions services.now user channel
  lift (permissions.throwIfLackingChannelPermission .inviteOthers)
  let _ ← channel.addUserToGroup size botUser

/-- `POST /invites/<target>` with an invite to a group. -/
def joinGroup (target : String) : Route (List User × Channel) := do
  ensure user.bot.isNone (.error .isBot)
  fetch fun db => services.canAcquireServer db user
  let invite ← lift (services.fetchInvite target)
  let channel ← fetch fun db => db.fetchChannel invite.channel
  let channel ← channel.addUserToGroup size user
  let users ← fetch fun db => services.fetchManyIdsAsMutuals db user channel.recipients
  return (users, channel)

variable (services : GroupServices) (user : User)

/-- Take a user who has left from the voice channel of the group. -/
def leaveVoiceChannel (channel user : String) : Route Unit := do
  let connected ← Request.attempt fun _ => services.isInVoiceChannel user channel
  onlyIf connected <| Request.attempt fun db =>
    services.removeUserFromVoiceChannel db channel user

/-- Remove somebody from a group, as its owner or one of its moderators. -/
def kick (memberId : String) (channel : Channel) : Route Unit :=
  match channel with
  | .group group => do
    let isOwner := user.id == group.owner
    let isModerator := group.moderators.contains user.id
    ensure (isOwner || isModerator) (.error (.missingPermission "ManageChannel"))
    let member ← fetch fun db => db.fetchUser memberId
    ensure (user.id != member.id) (.error .cannotRemoveYourself)
    ensure (group.recipients.contains member.id) (.error .notInGroup)
    -- Moderators cannot kick the owner or other moderators.
    ensure (isOwner || !(member.id == group.owner || group.moderators.contains member.id))
      (.error (.missingPermission "ManageChannel"))
    channel.removeUserFromGroup services.attached member
  | _ => fail (.error .invalidOperation)

/-- `DELETE /channels/<target>/recipients/<member>` -/
def removeGroupMember (target memberId : String) : Route Unit := do
  ensure user.bot.isNone (.error .isBot)
  let channel ← fetch fun db => db.fetchChannel target
  kick services user memberId channel
  leaveVoiceChannel services channel.id memberId

/-- `DELETE /channels/<target>`: hide a direct message, leave a group, delete a
channel of a server. -/
def deleteChannel (target : String) : Route Unit := do
  let channel ← fetch fun db => db.fetchChannel target
  let permissions ← channelPermissions services.now user channel
  lift (permissions.throwIfLackingChannelPermission .viewChannel)
  match channel with
  | .savedMessages _ => fail (.error .noEffect)
  | .directMessage _ =>
    let _ ← channel.update { active := some false } []
  | .group _ =>
    channel.removeUserFromGroup services.attached user
    leaveVoiceChannel services channel.id user.id
  | .textChannel _ =>
    lift (permissions.throwIfLackingChannelPermission .manageChannel)
    channel.delete services.attached
    Request.attempt fun _ => services.deleteVoiceChannel channel.id channel.server

/-- The owner and the moderators of a group may edit it without a permission. -/
def Channel.isGroupOwnerOrMod : Channel → Bool
  | .group document => user.id == document.owner || document.moderators.contains user.id
  | _ => false

/-- Everybody else needs the permission to manage the channel. -/
def ensureMayEdit (channel : Channel) : Route Unit :=
  if channel.isGroupOwnerOrMod user then pure ()
  else do
    let permissions ← channelPermissions services.now user channel
    lift (permissions.throwIfLackingChannelPermission .manageChannel)

/-- Transfer the ownership of a group to one of its recipients. -/
def transferOwnership (newOwner : Option String) (channel : Channel) :
    Result (Channel × PartialChannel) :=
  match newOwner with
  | none => .ok (channel, {})
  | some newOwner =>
    match channel with
    | .group group =>
      if group.owner ≠ user.id then .error .notOwner
      else if !group.recipients.contains newOwner then .error .notInGroup
      else .ok (.group { group with owner := newOwner }, { owner := some newOwner })
    | _ => .error .invalidOperation

/-- Add recipients to the moderators, except for the owner and those who are
there. -/
def Group.addModerators (group : Group) : List String → List String → Result (List String)
  | moderators, [] => .ok moderators
  | moderators, id :: ids =>
    if !group.recipients.contains id then .error .notInGroup
    else if id = group.owner ∨ moderators.contains id then group.addModerators moderators ids
    else group.addModerators (moderators ++ [id]) ids

variable (data : DataEditChannel) (channel : Channel)

/-- Only the owner manages the moderators, after a transfer the new one. -/
def Group.manageModerators (group : Group) : Result (List String) :=
  if group.owner ≠ user.id then .error .notOwner
  else
    let removed := data.removeModerators.getD []
    (group.addModerators group.moderators (data.addModerators.getD [])).map fun moderators =>
      moderators.filter fun id => !removed.contains id

def manageModerators (changes : PartialChannel) : Result PartialChannel :=
  if data.hasModChanges then
    match channel with
    | .group group => do
      let moderators ← group.manageModerators user data
      pure { changes with moderators := some moderators }
    | _ => .error .invalidOperation
  else .ok changes

/-- The bitrate of a voice channel is bounded by the tier of the owner of its
server. -/
def checkBitrate (serverId : String) (voice : VoiceInformation) : Route Unit :=
  match voice.bitrate with
  | some bitrate => do
    ensure (!decide (bitrate < 32000))
      (.error (.failedValidation "Bitrate must be at least 32000 bps (32 kbps)"))
    let server ← fetch fun db => db.fetchServer serverId
    let owner ← fetch fun db => db.fetchUser server.owner
    let maxAllowed := services.maxVoiceBitrate owner
    ensure (!decide (bitrate > maxAllowed))
      (.error (.bitrateExceedsTier maxAllowed ("Bitrate " ++ toString bitrate.toNat ++
        " bps exceeds your tier's maximum of " ++ toString maxAllowed.toNat ++
        " bps. Upgrade your subscription for higher quality audio.")))
  | none => pure ()

def editFields (id : String) (icon : Option File)
    (changes : PartialChannel) : Route PartialChannel := do
  markDeleted (if data.remove.contains .icon then icon else none)
  let icon ← onPayload (fun file => File.useChannelIcon file id user.id) data.icon
  return { changes with
    icon, name := data.name, description := data.description, nsfw := data.nsfw }

/-- The changes of an edit: a direct message and saved messages cannot be
edited. -/
def channelChanges (changes : PartialChannel) : Route PartialChannel :=
  match channel with
  | .group group => editFields user data group.id group.icon changes
  | .textChannel text => do
    let changes ← editFields user data text.id text.icon changes
    match data.voice with
    | some voice =>
      checkBitrate services text.server voice
      return { changes with voice := some voice }
    | none => return changes
  | _ => fail (.error .invalidOperation)

/-- The voice information of a channel: direct messages and groups have the
default one. -/
def Channel.voice : Channel → Option VoiceInformation
  | .directMessage _ | .group _ => some {}
  | .textChannel text => text.voice
  | .savedMessages _ => none

def applyChannelEdit : Route Channel := do
  let (channel, changes) ← lift (transferOwnership user data.owner channel)
  let changes ← lift (manageModerators user data channel changes)
  let changes ← channelChanges services user data channel changes
  let channel ← channel.update changes data.remove
  onlyIf channel.voice.isNone <| Request.attempt fun _ =>
    services.deleteVoiceChannel channel.id channel.server
  return channel

/-- `PATCH /channels/<target>` -/
def editChannel (target : String) (data : DataEditChannel) : Route Channel := do
  ensure data.valid (.error (.failedValidation (services.describeEdit data)))
  let channel ← fetch fun db => db.fetchChannel target
  ensureMayEdit services user channel
  if data.changesNothing then return channel
  else applyChannelEdit services user data channel

/-! ## Soundness -/

section Sound

variable {size : Nat} {services : GroupServices} {user : User} {db : MongoDb}
variable {channel : Channel} {data : DataEditChannel} {target : String}

theorem MongoDb.find_of_fetchChannel (fetched : db.fetchChannel target = .ok channel) :
    db.channels.find channel.id = some channel := by
  have found := orNotFound_eq_ok.mp fetched
  rwa [Collection.key_of_find found]

theorem Route.channelPermissions_readOnly (now : Timestamp) (user : User) (channel : Channel) :
    ReadOnly (channelPermissions now user channel) :=
  .read fun _ => readOnly_pure _

theorem leaveVoiceChannel_readOnly (channel user : String) :
    ReadOnly (leaveVoiceChannel services channel user) :=
  .read fun _ => readOnly_onlyIf (readOnly_attempt _)

theorem ensureMayEdit_readOnly : ReadOnly (ensureMayEdit services user channel) := by
  rw [ensureMayEdit]
  split
  · exact readOnly_pure ()
  · exact (channelPermissions_readOnly _ _ _).bind fun _ => readOnly_attempt _

theorem checkBitrate_readOnly (serverId : String) (voice : VoiceInformation) :
    ReadOnly (checkBitrate services serverId voice) := by
  rw [checkBitrate]
  split
  · exact (readOnly_ensure _ _).bind fun _ => .read fun _ =>
      .read fun _ => readOnly_ensure _ _
  · exact readOnly_pure ()

/-- A route fetches its channel and checks a permission before it does
anything. -/
theorem Outcome.permitted_bind {α : Type} {f : Channel → PermissionValue → Route α}
    {Q : Except Failure α → MongoDb → Prop} {now : Timestamp}
    {permission : ChannelPermission}
    (next : ∀ channel permissions, db.channels.find channel.id = some channel →
      Outcome (f channel permissions) db Q) (failed : ∀ e, Q (.error e) db) :
    Outcome (do
      let channel ← fetch fun db => db.fetchChannel target
      let permissions ← channelPermissions now user channel
      lift (permissions.throwIfLackingChannelPermission permission)
      f channel permissions) db Q := by
  apply fetch_bind _ fun _ => failed _
  intro channel fetched
  apply readOnly_bind (channelPermissions_readOnly _ _ _) _ failed
  intro permissions
  apply lift_bind _ fun _ => failed _
  intro _ _
  exact next channel permissions (MongoDb.find_of_fetchChannel fetched)

/-- What comes after a method and only reads leaves the groups sound. -/
theorem LeavesSound.bind {α β : Type} {x : Route α} {f : α → Route β}
    (first : Outcome x db (LeavesSound size)) (rest : ∀ a, ReadOnly (f a)) :
    Outcome (x >>= f) db (LeavesSound size) := by
  apply Outcome.bind first
  · intro a db' sound
    exact of_readOnly (rest a) fun _ => sound
  · intro _ _ sound
    exact sound

variable (sound : GroupsSound size db.channels)

include sound

open Channel

theorem createGroup_sound (id : String) (data : DataCreateGroup) :
    Outcome (createGroup size services id user data) db (LeavesSound size) := by
  rw [createGroup]
  apply ensure_bind _ fun _ => sound
  intro _
  apply ensure_bind _ fun _ => sound
  intro _
  apply ensure_bind _ fun _ => sound
  intro _
  exact Channel.createGroup_sound sound id data user.id

open LeavesSound

theorem addGroupMember_sound (groupId memberId : String) :
    Outcome (addGroupMember size services user groupId memberId) db (LeavesSound size) := by
  rw [addGroupMember]
  apply ensure_bind _ fun _ => sound
  intro _
  apply permitted_bind _ fun _ => sound
  intro channel permissions found
  cases channel with
  | group document =>
    apply fetch_bind _ fun _ => sound
    intro member _
    apply ensure_bind _ fun _ => sound
    intro _
    exact bind (addUserToGroup_sound sound found) fun _ => readOnly_pure _
  | _ => exact sound

theorem inviteBotToGroup_sound (target group : String) :
    Outcome (inviteBotToGroup size services user target group) db (LeavesSound size) := by
  rw [inviteBotToGroup]
  apply ensure_bind _ fun _ => sound
  intro _
  apply lift_bind _ fun _ => sound
  intro bot _
  apply ensure_bind _ fun _ => sound
  intro _
  apply fetch_bind _ fun _ => sound
  intro botUser _
  apply ensure_bind _ fun _ => sound
  intro _
  apply permitted_bind _ fun _ => sound
  intro channel permissions found
  exact bind (addUserToGroup_sound sound found) fun _ => readOnly_pure _

variable (target : String)

theorem joinGroup_sound : Outcome (joinGroup size services user target) db (LeavesSound size) := by
  rw [joinGroup]
  apply ensure_bind _ fun _ => sound
  intro _
  apply fetch_bind _ fun _ => sound
  intro _ _
  apply lift_bind _ fun _ => sound
  intro invite _
  apply fetch_bind _ fun _ => sound
  intro channel fetched
  exact bind (addUserToGroup_sound sound (MongoDb.find_of_fetchChannel fetched))
    fun _ => .read fun _ => readOnly_pure _

theorem kick_sound (found : db.channels.find channel.id = some channel) (memberId : String) :
    Outcome (kick services user memberId channel) db (LeavesSound size) := by
  cases channel with
  | group document =>
    rw [kick]
    apply ensure_bind _ fun _ => sound
    intro _
    apply fetch_bind _ fun _ => sound
    intro member _
    apply ensure_bind _ fun _ => sound
    intro _
    apply ensure_bind _ fun _ => sound
    intro _
    apply ensure_bind _ fun _ => sound
    intro _
    exact removeUserFromGroup_sound sound found
  | _ => exact sound

theorem removeGroupMember_sound (target memberId : String) :
    Outcome (removeGroupMember services user target memberId) db (LeavesSound size) := by
  rw [removeGroupMember]
  apply ensure_bind _ fun _ => sound
  intro _
  apply fetch_bind _ fun _ => sound
  intro channel fetched
  exact bind (kick_sound sound (MongoDb.find_of_fetchChannel fetched) memberId)
    fun _ => leaveVoiceChannel_readOnly _ _

variable {changes : PartialChannel}

/-- The document that is updated need not be the snapshot. -/
theorem Channel.update_sound {stored : Channel} (found : db.channels.find channel.id = some stored)
    {remove : List FieldsChannel}
    (kept : ∀ group, stored = .group group → changes.owner.getD group.owner ∈ group.recipients ∧
      ∀ id ∈ changes.moderators.getD group.moderators, id ∈ group.recipients) :
    Outcome (channel.update changes remove) db (LeavesSound size) := by
  rw [update]
  apply update_bind _ fun _ => sound
  intro db' written
  exact Outcome.pure (MongoDb.updateChannel_sound sound found written kept)

theorem deleteChannel_sound :
    Outcome (deleteChannel services user target) db (LeavesSound size) := by
  rw [deleteChannel]
  apply permitted_bind _ fun _ => sound
  intro channel permissions found
  cases channel with
  | savedMessages document => exact sound
  | directMessage document =>
    refine bind (update_sound sound found ?_) fun _ => readOnly_pure _
    intro group other
    cases other
  | group document =>
    exact bind (removeUserFromGroup_sound sound found) fun _ => leaveVoiceChannel_readOnly _ _
  | textChannel document =>
    apply lift_bind _ fun _ => sound
    intro _ _
    exact bind (delete_sound sound) fun _ => readOnly_attempt _

omit sound in
/-- What an edit sets as the owner and the moderators are recipients of the
group. -/
structure PartialChannel.NamesRecipients (channel : Channel) (changes : PartialChannel) : Prop where
  owner : ∀ owner ∈ changes.owner, owner ∈ channel.recipients
  moderators : ∀ moderators ∈ changes.moderators, ∀ id ∈ moderators, id ∈ channel.recipients

omit sound in
/-- A transfer leaves the recipients and the moderators alone. -/
theorem transferOwnership_eq_ok {newOwner : Option String} {channel' : Channel}
    (transferred : transferOwnership user newOwner channel = .ok (channel', changes)) :
    changes.NamesRecipients channel ∧ changes.moderators = none ∧ (channel' = channel ∨
      ∃ group owner, channel = .group group ∧ channel' = .group { group with owner }) := by
  cases newOwner with
  | none =>
    cases transferred
    exact ⟨⟨nofun, nofun⟩, rfl, .inl rfl⟩
  | some newOwner =>
    cases channel with
    | group document =>
      simp only [transferOwnership] at transferred
      split at transferred
      · cases transferred
      · split at transferred
        · cases transferred
        · next recipient =>
          cases transferred
          refine ⟨⟨?_, nofun⟩, rfl, .inr ⟨document, newOwner, rfl, rfl⟩⟩
          rintro _ ⟨⟩
          show newOwner ∈ document.recipients
          simpa using recipient
    | _ => cases transferred

omit sound in
/-- Whoever is a moderator in the end was one before or is a recipient. -/
theorem Group.addModerators_eq_ok {group : Group} {moderators ids moderators' : List String}
    (added : group.addModerators moderators ids = .ok moderators') :
    ∀ id ∈ moderators', id ∈ moderators ∨ id ∈ group.recipients := by
  induction ids generalizing moderators with
  | nil =>
    cases added
    exact fun id member => .inl member
  | cons first ids ih =>
    rw [Group.addModerators] at added
    split at added
    · cases added
    · next recipient =>
      split at added
      · exact ih added
      · intro id member
        obtain old | listed := ih added id member
        · obtain before | own := List.mem_append.mp old
          · exact .inl before
          · rw [List.mem_singleton.mp own]
            exact .inr (by simpa using recipient)
        · exact .inr listed

omit sound in
/-- The new moderators are recipients, if the old ones are. -/
theorem Group.manageModerators_eq_ok {group : Group} {moderators : List String}
    (managed : group.manageModerators user data = .ok moderators)
    (before : ∀ id ∈ group.moderators, id ∈ group.recipients) :
    ∀ id ∈ moderators, id ∈ group.recipients := by
  rw [Group.manageModerators] at managed
  split at managed
  · cases managed
  · cases ran : group.addModerators group.moderators (data.addModerators.getD []) with
    | error e =>
      rw [ran] at managed
      cases managed
    | ok added =>
      rw [ran] at managed
      cases managed
      intro id member
      obtain old | recipient := Group.addModerators_eq_ok ran id (List.mem_filter.mp member).1
      · exact before id old
      · exact recipient

variable {changes' : PartialChannel}

omit sound in
theorem manageModerators_eq_ok (managed : manageModerators user data channel changes = .ok changes')
    (unset : changes.moderators = none)
    (before : ∀ group, channel = .group group → ∀ id ∈ group.moderators, id ∈ group.recipients) :
    changes'.owner = changes.owner ∧ ∀ moderators ∈ changes'.moderators, ∀ id ∈ moderators,
      id ∈ channel.recipients := by
  unfold manageModerators at managed
  by_cases asked : data.hasModChanges = true
  · rw [if_pos asked] at managed
    cases channel with
    | group document =>
      obtain ⟨moderators, ran, ⟨⟩⟩ := bind_eq_ok.mp managed
      refine ⟨rfl, ?_⟩
      rintro _ ⟨⟩
      exact Group.manageModerators_eq_ok ran (before document rfl)
    | _ => cases managed
  · rw [if_neg asked] at managed
    cases managed
    refine ⟨rfl, ?_⟩
    rw [unset]
    rintro _ ⟨⟩

omit sound in
/-- The channels are as before, and what is set for the owner and the moderators
is kept. -/
structure KeepsRoles (db : MongoDb) (changes : PartialChannel) (r : Except Failure PartialChannel)
    (db' : MongoDb) : Prop where
  channels : db'.channels = db.channels
  owner : ∀ changes', r = .ok changes' → changes'.owner = changes.owner
  moderators : ∀ changes', r = .ok changes' → changes'.moderators = changes.moderators

variable {db' : MongoDb}

omit sound in
theorem KeepsRoles.error
    (same : db'.channels = db.channels) (e : Failure) : KeepsRoles db changes (.error e) db' where
  channels := same
  owner _ returned := by cases returned
  moderators _ returned := by cases returned

omit sound in
theorem KeepsRoles.ok (same : db'.channels = db.channels) (owner : changes'.owner = changes.owner)
    (moderators : changes'.moderators = changes.moderators) :
    KeepsRoles db changes (.ok changes') db' where
  channels := same
  owner _ returned := by
    cases returned
    exact owner
  moderators _ returned := by
    cases returned
    exact moderators

omit sound in
theorem markDeleted_keeps (P : Collection String Channel id → Prop) (file : Option File) :
    Keeps (fun db => P db.channels) (markDeleted file) := by
  cases file with
  | none => exact (readOnly_pure ()).keeps
  | some file =>
    refine keeps_write ?_
    rintro db' _ same ⟨⟩
    exact same

open KeepsRoles

omit sound in
theorem editFields_outcome (id : String) (icon : Option File) (changes : PartialChannel) :
    Outcome (editFields user data id icon changes) db (KeepsRoles db changes) := by
  rw [editFields]
  apply keeps_bind (markDeleted_keeps (· = db.channels) _) rfl _ fun e _ same => error same e
  intro _ db₁ same
  apply keeps_bind (onPayload_keeps (fun file =>
    File.useFor_keeps (· = db.channels) "icons" .channelIcon file id user.id) data.icon) same
      _ fun e _ same => error same e
  intro icon db₂ same
  exact Outcome.pure (ok same rfl rfl)

omit sound in
theorem channelChanges_outcome (channel : Channel) (changes : PartialChannel) :
    Outcome (channelChanges services user data channel changes) db (KeepsRoles db changes) := by
  cases channel with
  | group document => exact editFields_outcome document.id document.icon changes
  | textChannel text =>
    rw [channelChanges]
    apply Outcome.bind (editFields_outcome text.id text.icon changes)
    · intro edited db' kept
      cases data.voice with
      | none => exact Outcome.pure kept
      | some voice =>
        apply readOnly_bind (checkBitrate_readOnly text.server voice) _
          fun e => error kept.channels e
        intro _
        exact Outcome.pure (ok kept.channels (kept.owner edited rfl) (kept.moderators edited rfl))
    · intro e db' kept
      exact error kept.channels e
  | savedMessages _ | directMessage _ => exact Outcome.fail (error rfl _)

theorem applyChannelEdit_sound (found : db.channels.find channel.id = some channel) :
    Outcome (applyChannelEdit services user data channel) db (LeavesSound size) := by
  rw [applyChannelEdit]
  apply lift_bind _ fun _ => sound
  rintro ⟨channel', changes⟩ transferred
  obtain ⟨names, unset, same⟩ := transferOwnership_eq_ok transferred
  have located : channel'.id = channel.id ∧ channel'.recipients = channel.recipients := by
    obtain rfl | ⟨group, owner, rfl, rfl⟩ := same <;> exact ⟨rfl, rfl⟩
  have moderated : ∀ group, channel' = .group group →
      ∀ id ∈ group.moderators, id ∈ group.recipients := by
    obtain rfl | ⟨group, owner, rfl, rfl⟩ := same
    · rintro group rfl
      exact (sound _ _ found).moderators
    · rintro _ ⟨⟩
      exact (sound _ _ found).moderators
  apply lift_bind _ fun _ => sound
  intro changes₁ managed
  obtain ⟨owner₁, moderators₁⟩ := manageModerators_eq_ok managed unset moderated
  apply Outcome.bind (channelChanges_outcome channel' changes₁)
  · intro changes₂ db' kept
    have sound' : GroupsSound size db'.channels := by rwa [kept.channels]
    have found' : db'.channels.find channel'.id = some channel := by
      rwa [kept.channels, located.1]
    refine bind (update_sound sound' found' ?_) fun _ =>
      (readOnly_onlyIf (readOnly_attempt _)).bind fun _ => readOnly_pure _
    rintro group rfl
    have before := sound _ group found
    constructor
    · rw [kept.owner changes₂ rfl, owner₁]
      cases set : changes.owner with
      | none => exact before.owner
      | some owner => exact names.owner owner set
    · rw [kept.moderators changes₂ rfl]
      cases set : changes₁.moderators with
      | none => exact before.moderators
      | some moderators =>
        have recipients := moderators₁ moderators set
        rwa [located.2] at recipients
  · intro e db' kept
    rw [LeavesSound, kept.channels]
    exact sound

theorem editChannel_sound (data : DataEditChannel) :
    Outcome (editChannel services user target data) db (LeavesSound size) := by
  rw [editChannel]
  apply ensure_bind _ fun _ => sound
  intro _
  apply fetch_bind _ fun _ => sound
  intro channel fetched
  apply readOnly_bind ensureMayEdit_readOnly _ fun _ => sound
  intro _
  split
  · exact sound
  · exact applyChannelEdit_sound sound (MongoDb.find_of_fetchChannel fetched)

end Sound

/-- A request to one of the routes. A new group gets a new id. -/
inductive GroupRequest where
  | create (user : User) (id : String) (data : DataCreateGroup)
  | addMember (user : User) (groupId memberId : String)
  | inviteBot (user : User) (target group : String)
  | join (user : User) (target : String)
  | removeMember (user : User) (target memberId : String)
  | delete (user : User) (target : String)
  | edit (user : User) (target : String) (data : DataEditChannel)

/-- The store that a request leaves, whether it succeeds or fails. -/
def GroupRequest.run (db : MongoDb) : GroupRequest → MongoDb
  | .create user id data => (createGroup size services id user data db).2
  | .addMember user groupId memberId => (addGroupMember size services user groupId memberId db).2
  | .inviteBot user target group => (inviteBotToGroup size services user target group db).2
  | .join user target => (joinGroup size services user target db).2
  | .removeMember user target memberId => (removeGroupMember services user target memberId db).2
  | .delete user target => (deleteChannel services user target db).2
  | .edit user target data => (editChannel services user target data db).2

/-- Requests one after the other, each in its own surroundings. -/
def runGroupRequests (requests : List (GroupServices × GroupRequest)) (db : MongoDb) : MongoDb :=
  requests.foldl (fun db request => request.2.run size request.1 db) db

theorem GroupRequest.run_sound {size : Nat} {db : MongoDb} (sound : GroupsSound size db.channels)
    (services : GroupServices) (request : GroupRequest) :
    GroupsSound size (request.run size services db).channels := by
  cases request with
  | create user id data => exact createGroup_sound sound id data
  | addMember user groupId memberId => exact addGroupMember_sound sound groupId memberId
  | inviteBot user target group => exact inviteBotToGroup_sound sound target group
  | join user target => exact joinGroup_sound sound target
  | removeMember user target memberId => exact removeGroupMember_sound sound target memberId
  | delete user target => exact deleteChannel_sound sound target
  | edit user target data => exact editChannel_sound sound target data

/-- After every sequence of requests, begun on a store whose groups are sound
(one without groups, for example), the owner and the moderators of every group
that exists are recipients, no recipient is listed twice, and there are no more
recipients than the configured size. -/
theorem groups_stay_sound {size : Nat} {db : MongoDb} (sound : GroupsSound size db.channels)
    (requests : List (GroupServices × GroupRequest)) (id : String) (group : Group)
    (stored : (runGroupRequests size requests db).channels.find id = some (.group group)) :
    group.owner ∈ group.recipients ∧
      (∀ moderator ∈ group.moderators, moderator ∈ group.recipients) ∧
      group.recipients.Nodup ∧ group.recipients.length ≤ size := by
  have kept : GroupsSound size (runGroupRequests size requests db).channels := by
    clear stored
    induction requests generalizing db with
    | nil => exact sound
    | cons request requests ih => exact ih (request.2.run_sound sound request.1)
  have own := kept id group stored
  exact ⟨own.owner, own.moderators, own.distinct, own.within⟩

/-! A group of three that its owner leaves. -/

def GroupServices.sample : GroupServices where
  now := 0
  attached _ := []
  isInVoiceChannel _ _ := .ok false
  removeUserFromVoiceChannel _ _ _ := .ok ()
  deleteVoiceChannel _ _ := .ok ()
  maxVoiceBitrate _ := 64000
  canAcquireServer _ _ := .ok ()
  fetchBot _ := .error .notFound
  fetchInvite _ := .error .notFound
  fetchManyIdsAsMutuals _ _ _ := .ok []
  describeCreate _ := ""
  describeEdit _ := ""

def groupCreator : User where
  id := "alice"
  relations := some [{ id := "bob", status := .friend }, { id := "carol", status := .friend }]

def friendStore : MongoDb where
  users := .ofDocuments [groupCreator, { id := "bob" }, { id := "carol" }]
  servers := .empty
  channels := .empty
  serverMembers := .empty
  attachments := .empty
  rolesKeyed := noServers_keyed

/-- A friend is added, another one becomes a moderator, and then the owner
leaves: the first other recipient is the new owner. -/
def leavingRequests : List (GroupServices × GroupRequest) :=
  [(.sample, .create groupCreator "group"
    { name := "Friends", users := HashMap.ofPairs [("bob", ())] }),
    (.sample, .addMember groupCreator "group" "carol"),
    (.sample, .edit groupCreator "group" { addModerators := some ["carol"] }),
    (.sample, .delete groupCreator "group")]

theorem groups_stay_sound_after_leaving : ∃ group : Group,
    (runGroupRequests 3 leavingRequests friendStore).channels.find "group" = some (.group group) ∧
      group.owner = "bob" ∧ group.moderators = ["carol"] ∧
      (group.owner ∈ group.recipients ∧
        (∀ moderator ∈ group.moderators, moderator ∈ group.recipients) ∧
        group.recipients.Nodup ∧ group.recipients.length ≤ 3) := by
  have empty : GroupsSound 3 friendStore.channels := by
    intro id group found
    cases found
  have stored : (runGroupRequests 3 leavingRequests friendStore).channels.find "group" =
      some (.group
        { id := "group"
          name := "Friends"
          owner := "bob"
          recipients := ["bob", "carol"]
          moderators := ["carol"] }) := by
    rfl
  exact ⟨_, stored, rfl, rfl, groups_stay_sound empty leavingRequests "group" _ stored⟩

end Company
