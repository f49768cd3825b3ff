import CompanyBackend.Routes.ProfileEdit
import CompanyBackend.Routes.Roles
import Mathlib.Data.List.Dedup

/-!
# Member edits

The route that edits a member of a server: nickname, avatar, roles, timeout, and the voice
state. It is guarded by rank twice: the target has to be below the editor, unless they are
the same member, and so has every role that the target did not hold before.

The payload may name a whole new list of roles. What the guards leave open is compared
with the rankings before and after: only a new role improves a ranking, and the guard on
new roles then keeps the target where it was relative to the editor.
-/

namespace Company

open Request Outcome PermissionQuery MongoDb Collection List Route DatabasePermissionQuery

structure DataMemberEdit where
  nickname : Option String := none
  avatar : Option String := none
  roles : Option (List String) := none
  timeout : Option Timestamp := none
  canPublish : Option Bool := none
  canReceive : Option Bool := none
  voiceChannel : Option String := none
  remove : List FieldsMember := []
  deriving DecidableEq, Repr

def DataMemberEdit.valid (data : DataMemberEdit) : Bool := lengthWithin 1 32 data.nickname

/-- The permissions that the edited fields require; `own` if editor and target
are one. -/
def DataMemberEdit.checkFields (data : DataMemberEdit) (voiceEnabled own : Bool)
    (permissions targetPermissions : PermissionValue) : Result Unit := do
  if data.nickname.isSome || data.remove.contains .nickname then
    permissions.throwIfLackingChannelPermission (if own then .changeNickname else .manageNicknames)
  if data.avatar.isSome || data.remove.contains .avatar then
    if own then permissions.throwIfLackingChannelPermission .changeAvatar
    else throw .invalidOperation
  if data.roles.isSome || data.remove.contains .roles then
    permissions.throwIfLackingChannelPermission .assignRoles
  if data.timeout.isSome || data.remove.contains .timeout then
    if data.timeout.isSome then
      if own then throw .cannotTimeoutYourself
      if targetPermissions.hasChannelPermission .timeoutMembers then throw .isElevated
    permissions.throwIfLackingChannelPermission .timeoutMembers
  if data.canPublish.isSome then permissions.throwIfLackingChannelPermission .muteMembers
  if data.canReceive.isSome then permissions.throwIfLackingChannelPermission .deafenMembers
  if data.voiceChannel.isSome && data.remove.contains .voiceChannel then throw .invalidOperation
  if data.voiceChannel.isSome || data.remove.contains .voiceChannel then
    if !voiceEnabled then throw .liveKitUnavailable
    if !own then permissions.throwIfLackingChannelPermission .moveMembers

/-- What the fields about the voice state require. -/
structure DataMemberEdit.PermitsVoice (data : DataMemberEdit) (permissions : PermissionValue) :
    Prop where
  mute : data.canPublish.isSome → permissions.hasChannelPermission .muteMembers
  deafen : data.canReceive.isSome → permissions.hasChannelPermission .deafenMembers
  moveOrLeave : (data.voiceChannel.isSome && data.remove.contains .voiceChannel) = false

theorem DataMemberEdit.permitsVoice_of_checkFields {data : DataMemberEdit} {voiceEnabled own : Bool}
    {permissions targetPermissions : PermissionValue}
    (checked : data.checkFields voiceEnabled own permissions targetPermissions = .ok ()) :
    data.PermitsVoice permissions := by
  rw [checkFields] at checked
  -- The nickname, the avatar, the roles and the timeout come first.
  have afterNickname := (of_ite_bind_eq_ok checked).2
  have afterAvatar := of_ite_eq_ok afterNickname fun inner => of_ite_both_eq_ok inner
  have afterRoles := (of_ite_bind_eq_ok afterAvatar).2
  have afterTimeout := of_ite_eq_ok afterRoles fun inner => by
    have timed := of_ite_eq_ok inner fun untimed =>
      (of_ite_bind_eq_ok (of_ite_bind_eq_ok untimed).2).2
    obtain ⟨_, _, rest⟩ := bind_eq_ok.mp timed
    exact rest
  obtain ⟨mute, afterMute⟩ := of_ite_bind_eq_ok afterTimeout
  obtain ⟨deafen, afterDeafen⟩ := of_ite_bind_eq_ok afterMute
  obtain ⟨conflict, _⟩ := of_ite_bind_eq_ok afterDeafen
  refine ⟨fun set => ?_, fun set => ?_, ?_⟩
  · exact PermissionValue.throwIfLackingChannelPermission_ok (mute set)
  · exact PermissionValue.throwIfLackingChannelPermission_ok (deafen set)
  · by_contra both
    cases conflict (Bool.not_eq_false _ ▸ both)

section VoiceState

variable (voice : VoiceClient) (now : Timestamp) (user targetUser : User) (server : Server)

/-- The channel that the target is moved to: a channel of the server that the
editor may connect to, while the target is in a call of the server. -/
def newVoiceChannel (query : DatabasePermissionQuery) (member : Member) (id : String) :
    Route Channel := do
  let channel ← fetch fun db => (db.fetchChannel id).mapError fun _ => .unknownChannel
  ensure (channel.server == some member.id.server) (.error .unknownChannel)
  let (permissions, _) ← ask (fun _ => query.withChannel channel)
    calculateChannelPermissions
  lift (permissions.throwIfLackingChannelPermission .connect)
  let current ← attempt fun _ => voice.getUserVoiceChannelInServer targetUser.id server.id
  ensure current.isSome (.error .notConnected)
  return channel

/-- The node of a call. Unwrapping a missing node panics. -/
def callNode (channel : String) : Route String := do
  match ← attempt fun _ => voice.getChannelNode channel with
  | some node => return node
  | none => fail (.panic "called `Option::unwrap()` on a `None` value")

/-- Act on the call of the server that the target is in, if there is one. -/
def onCall (action : String → Route Unit) : Route Unit := do
  match ← attempt fun _ => voice.getUserVoiceChannelInServer targetUser.id server.id with
  | some channel => action channel
  | none => return ()

/-- The node of the call that the target joins, started on the old node if there
is none. -/
def newCallNode (newChannel : Channel) (oldNode : String) : Route String := do
  match ← attempt fun _ => voice.getChannelNode newChannel.id with
  | some node => return node
  | none =>
    attempt fun _ => voice.setChannelNode newChannel.id oldNode
    return oldNode

def moveToChannel (newChannel : Channel) : Route Unit :=
  onCall voice targetUser server fun channel => do
    let oldNode ← callNode voice channel
    let newNode ← newCallNode voice newChannel oldNode
    attempt fun _ => voice.setUserMovedFromVoice channel newChannel.id targetUser.id
    attempt fun _ => voice.setUserMovedToVoice newChannel.id channel targetUser.id
    let (permissions, _) ← ask
      (fun db => (new db now targetUser).withChannel newChannel)
      calculateChannelPermissions
    attempt fun _ => voice.createRoom newNode newChannel
    let _ ← attempt fun db => voice.createToken newNode db targetUser permissions newChannel
    attempt fun _ => voice.removeUser oldNode targetUser.id channel

/-- The source passes the editor here, not the target. -/
def syncCall : Route Unit :=
  onCall voice targetUser server fun channel => do
    let node ← callNode voice channel
    let channel ← fetch fun db => db.fetchChannel channel
    attempt fun db => voice.syncUserVoicePermissions db node user channel (some server) none

/-- Here as well. -/
def leaveCall : Route Unit :=
  onCall voice targetUser server fun channel => do
    let node ← callNode voice channel
    attempt fun _ => voice.removeUser node user.id channel

def updateCall (data : DataMemberEdit) (newChannel : Option Channel) : Route Unit :=
  match newChannel with
  | some channel => moveToChannel voice now targetUser server channel
  | none =>
    if data.canPublish.isSome || data.canReceive.isSome || data.remove.contains .canPublish ||
        data.remove.contains .canReceive then
      syncCall voice user targetUser server
    else pure ()

def updateVoice (data : DataMemberEdit) (newChannel : Option Channel) : Route Unit := do
  updateCall voice now user targetUser server data newChannel
  if data.remove.contains .voiceChannel then leaveCall voice user targetUser server
  else pure ()

end VoiceState

/-- The target is below the editor, or the editor. -/
def ensureElevated (query : DatabasePermissionQuery) (user : User) (member : Member)
    (rank : Int64) : Route Unit :=
  if member.id.user = user.id then pure ()
  else
    match query.server with
    | some server => ensure (!decide (member.getRanking server ≤ rank)) (.error .notElevated)
    | none => fail (.panic "called `Option::unwrap()` on a `None` value")

/-- The difference of the two sets of roles. The order of a set is not
specified; it is that of the payload here. -/
def addedRoles (current new : List String) : List String :=
  new.dedup.filter fun id => !current.contains id

/-- Every added role exists and is below the rank. The loop takes the roles out
of the snapshot of the server. -/
def checkAddedRoles (rank : Int64) (server : Server) : List String → Result Server
  | [] => .ok server
  | id :: added =>
    match server.roles.lookup id with
    | some role =>
      if role.rank ≤ rank then .error .notElevated
      else checkAddedRoles rank { server with roles := server.roles.erase id } added
    | none => .error .invalidRole

def checkRoles (rank : Int64) (server : Server) (member : Member) (roles : Option (List String)) :
    Result Server :=
  match roles with
  | some roles => checkAddedRoles rank server (addedRoles member.roles roles)
  | none => .ok server

variable {server server' : Server} {rank : Int64} {added : List String}

theorem checkAddedRoles_id
    (checked : checkAddedRoles rank server added = .ok server') : server'.id = server.id := by
  induction added generalizing server with
  | nil =>
    cases checked
    rfl
  | cons id added ih =>
    rw [checkAddedRoles] at checked
    split at checked
    · split at checked
      · cases checked
      · exact (ih checked :)
    · cases checked

variable {member : Member}

theorem checkRoles_id {roles : Option (List String)}
    (checked : checkRoles rank server member roles = .ok server') : server'.id = server.id := by
  cases roles with
  | none =>
    cases checked
    rfl
  | some roles => exact checkAddedRoles_id checked

def Member.updated (member : Member) (data : PartialMember) (remove : List FieldsMember) : Member :=
  (remove.foldl removeField member).applyOptions data

def Member.update (member : Member) (data : PartialMember) (remove : List FieldsMember) :
    Route Member := do
  let member := member.updated data remove
  Route.update fun db => db.updateMember member.id data remove
  return member

/-- The part of the route that writes to the store, once all guards are
passed. -/
def applyMemberEdit (user : User) (member : Member) (data : DataMemberEdit) : Route Member := do
  markDeleted (if data.remove.contains .avatar then member.avatar else none)
  let avatar ← onPayload (fun id => File.useUserAvatar id user.id user.id) data.avatar
  member.update
    { nickname := data.nickname
      roles := data.roles
      timeout := data.timeout
      canPublish := data.canPublish
      canReceive := data.canReceive
      avatar }
    data.remove

variable (describe : DataMemberEdit → String) (voice : VoiceClient) (now : Timestamp) (user : User)
variable (serverId memberId : String) (data : DataMemberEdit)

/-- What the part of the route about the documents hands on to the voice
state. -/
structure EditedMember where
  server : Server
  targetUser : User
  member : Member
  voiceChannel : Option Channel

/-- The route up to the last write to the documents. -/
def editMemberDocuments : Route EditedMember := do
  ensure data.valid (.error (.failedValidation (describe data)))
  let server ← fetch fun db => db.fetchServer serverId
  let targetUser ← fetch fun db => db.fetchUser memberId
  let member ← fetch fun db => db.fetchMember server.id memberId
  let (permissions, query) ← ask
    (fun db => (new db now user).withServer server)
    calculateServerPermissions
  let (targetPermissions, _) ← ask
    (fun db => ((new db now targetUser).withServer server).withMember member)
    calculateServerPermissions
  lift (data.checkFields voice.isEnabled (decide (user.id = member.id.user)) permissions
    targetPermissions)
  let voiceChannel ← onPayload (newVoiceChannel voice targetUser server query member)
    data.voiceChannel
  let rank ← memberRank query
  ensureElevated query user member rank
  let server ← lift (checkRoles rank server member data.roles)
  let member ← applyMemberEdit user member data
  return { server, targetUser, member, voiceChannel }

/-- `PATCH /servers/<server>/members/<member>`. The voice state comes last, once
the documents are written. -/
def editMember : Route Member := do
  let edited ← editMemberDocuments describe voice now user serverId memberId data
  updateVoice voice now user edited.targetUser edited.server data edited.voiceChannel
  return edited.member

section Rankings

variable {server : Server}

/-- The loop over the added roles accepts exactly the roles below the rank,
whatever the order of the set is. -/
theorem checkAddedRoles_accepts_iff (distinct : added.Nodup) :
    (∃ server', checkAddedRoles rank server added = .ok server') ↔
      ∀ id ∈ added, ∃ role, server.roles.lookup id = some role ∧ rank < role.rank := by
  induction added generalizing server with
  | nil => simp [checkAddedRoles]
  | cons id added ih =>
    obtain ⟨fresh, distinct⟩ := nodup_cons.mp distinct
    rw [checkAddedRoles, forall_mem_cons]
    cases found : server.roles.lookup id with
    | none => simp
    | some role =>
      dsimp only
      -- The role taken out of the snapshot is not looked up again.
      have later : ∀ other ∈ added,
          AList.lookup other (server.roles.erase id) = server.roles.lookup other := by
        intro other member
        exact AList.lookup_erase_ne fun same => fresh (same ▸ member)
      split
      · next high => simp [not_lt.mpr high]
      · next low =>
        rw [ih distinct]
        simp only [Option.some.injEq, exists_eq_left', not_le.mp low, true_and]
        exact forall₂_congr fun other member => by rw [later other member]

theorem nodup_addedRoles (current new : List String) : (addedRoles current new).Nodup :=
  (nodup_dedup new).filter _

/-- Only a role that is new to the member improves the ranking. -/
theorem Member.getRanking_le_or_added (server : Server) (old new : Member) :
    old.getRanking server ≤ new.getRanking server ∨
      ∃ id ∈ new.roles, id ∉ old.roles ∧
        ∃ role, server.roles.lookup id = some role ∧ role.rank = new.getRanking server := by
  rcases (new.getRanking_isLeast server).1 with unranked | ⟨id, holds, role, found, ranked⟩
  · rw [unranked]
    exact .inl (Int64.le_maxValue _)
  · by_cases held : id ∈ old.roles
    · rw [← ranked]
      exact .inl ((old.getRanking_isLeast server).2 (.inr ⟨id, held, role, found, rfl⟩))
    · exact .inr ⟨id, holds, held, role, found, ranked⟩

/-- The edit stays below the rank of the editor. -/
structure RespectsRanking (server : Server) (rank : Int64) (editor : String) (old new : Member) :
    Prop where
  added : ∀ id ∈ new.roles, id ∉ old.roles →
    ∃ role, server.roles.lookup id = some role ∧ rank < role.rank
  before : old.id.user ≠ editor → rank < old.getRanking server
  after : old.id.user ≠ editor → rank < new.getRanking server
  own : old.id.user = editor → rank ≤ new.getRanking server

theorem RespectsRanking.of_guards {editor : String} {old new : Member}
    (added : ∀ id ∈ new.roles, id ∉ old.roles →
      ∃ role, server.roles.lookup id = some role ∧ rank < role.rank)
    (another : old.id.user ≠ editor → rank < old.getRanking server)
    (own : old.id.user = editor → rank ≤ old.getRanking server) :
    RespectsRanking server rank editor old new := by
  -- A better ranking comes from an added role, and that is below the rank.
  have improved : old.getRanking server ≤ new.getRanking server ∨ rank < new.getRanking server := by
    refine (Member.getRanking_le_or_added server old new).imp_right ?_
    rintro ⟨id, holds, fresh, role, found, ranked⟩
    obtain ⟨role', found', below⟩ := added id holds fresh
    cases found.symm.trans found'
    rwa [ranked] at below
  refine ⟨added, another, ?_, ?_⟩
  · intro other
    rcases improved with kept | below
    · exact (another other).trans_le kept
    · exact below
  · intro same
    rcases improved with kept | below
    · exact (own same).trans kept
    · exact below.le

end Rankings

/-- What unsetting a field does to a list of roles. -/
def FieldsMember.clearRoles (roles : List String) (field : FieldsMember) : List String :=
  if field = .roles then [] else roles

variable (remove : List FieldsMember)

theorem FieldsMember.foldl_clearRoles_subset (roles : List String) :
    remove.foldl clearRoles roles ⊆ roles := by
  induction remove generalizing roles with
  | nil => exact List.Subset.refl _
  | cons field remove ih =>
    rw [foldl_cons]
    refine List.Subset.trans (ih _) ?_
    rw [clearRoles]
    split <;> simp

open FieldsMember

theorem Member.updated_roles (member : Member) (data : PartialMember) (remove : List FieldsMember) :
    (member.updated data remove).roles =
      data.roles.getD (remove.foldl clearRoles member.roles) := by
  have step : ∀ (member : Member) (field : FieldsMember),
      field.clearRoles member.roles = (member.removeField field).roles := by
    intro member field
    cases field <;> rfl
  rw [foldl_hom Member.roles step]
  rfl

open MemberDocument

variable (document : MemberDocument) (data : PartialMember)

theorem MemberDocument.updated_roles : (document.updated data remove).roles =
      data.roles.getD (remove.foldl clearRoles document.roles) := by
  have step : ∀ (document : MemberDocument) (field : FieldsMember),
      field.clearRoles document.roles = (document.unset field).roles := by
    intro document field
    cases field <;> rfl
  rw [foldl_hom roles step]
  rfl

/-- A flag that the removal of one field sets, and no other removal changes. -/
theorem MemberDocument.foldl_unset_flag {flag : MemberDocument → Bool} {field : FieldsMember}
    (sets : ∀ document removed, flag (unset document removed) = (field == removed || flag document))
    (remove : List FieldsMember) (document : MemberDocument) :
    flag (remove.foldl unset document) = (remove.contains field || flag document) := by
  induction remove generalizing document with
  | nil => rfl
  | cons removed remove ih =>
    rw [foldl_cons, ih, sets, contains_cons]
    cases field == removed <;> cases remove.contains field <;> rfl

theorem MemberDocument.updated_canPublish : (document.updated data remove).canPublish =
      data.canPublish.getD (remove.contains .canPublish || document.canPublish) := by
  rw [← foldl_unset_flag (fun _ removed => by cases removed <;> rfl)]
  rfl

theorem MemberDocument.updated_canReceive : (document.updated data remove).canReceive =
      data.canReceive.getD (remove.contains .canReceive || document.canReceive) := by
  rw [← foldl_unset_flag (fun _ removed => by cases removed <;> rfl)]
  rfl

structure MongoDb.KeepsMembers (db db' : MongoDb) : Prop where
  servers : db'.servers = db.servers
  serverMembers : db'.serverMembers = db.serverMembers

/-- One member document was changed, and its roles are those of the new
member. -/
structure MongoDb.WritesMember (db db' : MongoDb) (old new : Member) : Prop where
  servers : db'.servers = db.servers
  others : ∀ key, key ≠ old.id → db'.serverMembers.find key = db.serverMembers.find key
  written : ∃ document, db'.serverMembers.find old.id = some document ∧ document.roles = new.roles

/-- The fields that the payload sets, with the file of the new avatar. -/
def DataMemberEdit.toPartial (data : DataMemberEdit) (avatar : Option File) : PartialMember where
  nickname := data.nickname
  roles := data.roles
  timeout := data.timeout
  canPublish := data.canPublish
  canReceive := data.canReceive
  avatar := avatar

/-- The document of one member was updated as the payload says; a field is not
set and removed at once. -/
structure MongoDb.EditsMember (db db' : MongoDb) (data : DataMemberEdit) (old new : Member) :
    Prop where
  servers : db'.servers = db.servers
  others : ∀ key, key ≠ old.id → db'.serverMembers.find key = db.serverMembers.find key
  edited : ∃ document avatar, db.serverMembers.find old.id = some document ∧
    db'.serverMembers.find old.id = some (document.updated (data.toPartial avatar) data.remove) ∧
    new = old.updated (data.toPartial avatar) data.remove ∧
    data.remove.any (conflicts (data.toPartial avatar)) = false

variable {document : MemberDocument} {avatar : Option File}

section Writes

variable {db db' : MongoDb} {user : User} {old : Member} {data : DataMemberEdit}

theorem MongoDb.KeepsMembers.refl (db : MongoDb) : db.KeepsMembers db := ⟨rfl, rfl⟩

theorem markDeleted_keepsMembers (file : Option File) :
    Outcome (markDeleted file) db (Succeeds fun _ db' => db.KeepsMembers db') := by
  cases file with
  | none => exact ⟨(), rfl, .refl db⟩
  | some file => exact ⟨(), rfl, rfl, rfl⟩

theorem useUserAvatar_keepsMembers (id parent uploaderId : String) :
    Outcome (File.useUserAvatar id parent uploaderId) db fun _ db' => db.KeepsMembers db' := by
  rw [Outcome, File.useUserAvatar, File.useFor, findAndUseAttachment]
  cases db.attachments.find id with
  | none => exact .refl db
  | some file =>
    dsimp only
    split_ifs
    · exact ⟨rfl, rfl⟩
    · exact .refl db

theorem onPayload_store {α β : Type} {action : α → Route β} {P : MongoDb → Prop}
    (payload : Option α) (absent : P db) (acts : ∀ a, Outcome (action a) db fun _ db' => P db') :
    Outcome (onPayload action payload) db fun _ db' => P db' := by
  cases payload with
  | none => exact absent
  | some a =>
    apply bind (acts a)
    · intro _ db' held
      exact held
    · intro _ db' held
      exact held

theorem onPayload_readOnly {α β : Type} {action : α → Route β} (acts : ∀ a, ReadOnly (action a))
    (payload : Option α) : ReadOnly (onPayload action payload) := by
  intro db
  have unchanged : Outcome (onPayload action payload) db fun _ db' => db' = db :=
    onPayload_store payload rfl fun a => acts a db
  exact unchanged

section

variable (stored : db.serverMembers.find old.id = some document)

include stored

theorem MongoDb.updateMember_edits
    (accepted : db.updateMember old.id (data.toPartial avatar) data.remove = .ok db') :
    db.EditsMember db' data old (old.updated (data.toPartial avatar) data.remove) := by
  rw [updateMember] at accepted
  split at accepted
  · cases accepted
  · next compatible =>
    rw [Bool.or_eq_true, not_or, Bool.not_eq_true] at compatible
    cases accepted
    refine ⟨rfl, ?_, document, avatar, stored, ?_, rfl, compatible.1⟩
    · intro other ne
      rw [find_update_ne ne]
    · dsimp only
      rw [find_update, stored, Option.map_some]

theorem Member.update_outcome :
    Outcome (old.update (data.toPartial avatar) data.remove) db fun r db' =>
      (∃ e, r = .error e) ∧ db' = db ∨ ∃ new, r = .ok new ∧ db.EditsMember db' data old new := by
  have key : (old.updated (data.toPartial avatar) data.remove).id = old.id :=
    foldl_removeField_id data.remove old
  rw [update, key]
  apply update_bind _ fun e => .inl ⟨⟨e, rfl⟩, rfl⟩
  intro db' accepted
  exact .inr ⟨_, rfl, updateMember_edits stored accepted⟩

theorem applyMemberEdit_outcome : Outcome (applyMemberEdit user old data) db fun r db' =>
      (∃ e, r = .error e) ∧ db.KeepsMembers db' ∨
        ∃ new, r = .ok new ∧ db.EditsMember db' data old new := by
  rw [applyMemberEdit]
  apply succeeds_bind (markDeleted_keepsMembers _)
  intro _ marked keeps
  have claimed := onPayload_store data.avatar (MongoDb.KeepsMembers.refl marked)
    fun id => useUserAvatar_keepsMembers id user.id user.id
  apply bind claimed
  · intro avatar prepared keeps'
    have servers := keeps'.servers.trans keeps.servers
    have members := keeps'.serverMembers.trans keeps.serverMembers
    rw [← members] at stored
    apply intro
    intro r db' ran
    rcases (Member.update_outcome stored).elim ran with ⟨failed, rfl⟩ | ⟨new, returned, edits⟩
    · exact .inl ⟨failed, servers, members⟩
    · refine .inr ⟨new, returned, edits.servers.trans servers, ?_, ?_⟩
      · intro key ne
        rw [edits.others key ne, members]
      · rw [← members]
        exact edits.edited
  · intro e failed keeps'
    exact .inl ⟨⟨e, rfl⟩, keeps'.servers.trans keeps.servers,
      keeps'.serverMembers.trans keeps.serverMembers⟩

end

/-- The roles that the edit leaves, from those that the target held. -/
def DataMemberEdit.newRoles (data : DataMemberEdit) (current : List String) : List String :=
  data.roles.getD (data.remove.foldl clearRoles current)

theorem MongoDb.EditsMember.newRoles {new : Member} (edits : db.EditsMember db' data old new) :
    new.roles = data.newRoles old.roles := by
  obtain ⟨_, _, _, _, rfl, _⟩ := edits.edited
  exact Member.updated_roles old _ _

/-- The document and the snapshot get the same roles. -/
theorem MongoDb.EditsMember.writes {new : Member} (edits : db.EditsMember db' data old new)
    (sameRoles : ∀ document, db.serverMembers.find old.id = some document →
      old.roles = document.roles) : db.WritesMember db' old new := by
  obtain ⟨document, avatar, stored, written, rfl, _⟩ := edits.edited
  refine ⟨edits.servers, edits.others, _, written, ?_⟩
  rw [updated_roles, Member.updated_roles, sameRoles document stored]

end Writes

/-! ## The whole route -/

section VoiceReadOnly

variable (voice : VoiceClient) (now : Timestamp) (user targetUser : User) (server : Server)

theorem newVoiceChannel_readOnly (query : DatabasePermissionQuery) (member : Member) (id : String) :
    ReadOnly (newVoiceChannel voice targetUser server query member id) := by
  refine .read fun channel => ?_
  refine (readOnly_ensure _ _).bind fun _ => ?_
  refine .read fun permissions => ?_
  refine .read fun _ => ?_
  refine .read fun current => ?_
  exact (readOnly_ensure _ _).bind fun _ => readOnly_pure channel

theorem callNode_readOnly (channel : String) : ReadOnly (callNode voice channel) := by
  refine .read fun node => ?_
  cases node with
  | none => exact readOnly_fail _
  | some node => exact readOnly_pure node

variable {targetUser server} in
theorem onCall_readOnly {action : String → Route Unit} (acts : ∀ channel, ReadOnly (action channel))
    : ReadOnly (onCall voice targetUser server action) := by
  refine .read fun channel => ?_
  cases channel with
  | none => exact readOnly_pure ()
  | some channel => exact acts channel

theorem newCallNode_readOnly (newChannel : Channel) (oldNode : String) :
    ReadOnly (newCallNode voice newChannel oldNode) := by
  refine .read fun node => ?_
  cases node with
  | none => exact .read fun _ => readOnly_pure oldNode
  | some node => exact readOnly_pure node

theorem moveToChannel_readOnly (newChannel : Channel) :
    ReadOnly (moveToChannel voice now targetUser server newChannel) := by
  refine onCall_readOnly voice fun channel => ?_
  refine (callNode_readOnly voice channel).bind fun oldNode => ?_
  refine (newCallNode_readOnly voice newChannel oldNode).bind fun newNode => ?_
  refine .read fun _ => ?_
  refine .read fun _ => ?_
  refine .read fun permissions => ?_
  refine .read fun _ => ?_
  exact .read fun token => readOnly_attempt _

theorem syncCall_readOnly : ReadOnly (syncCall voice user targetUser server) := by
  refine onCall_readOnly voice fun channel => ?_
  refine (callNode_readOnly voice channel).bind fun node => ?_
  exact .read fun channel => readOnly_attempt _

theorem leaveCall_readOnly : ReadOnly (leaveCall voice user targetUser server) := by
  refine onCall_readOnly voice fun channel => ?_
  exact (callNode_readOnly voice channel).bind fun node => readOnly_attempt _

theorem updateCall_readOnly (data : DataMemberEdit) (newChannel : Option Channel) :
    ReadOnly (updateCall voice now user targetUser server data newChannel) := by
  cases newChannel with
  | some channel => exact moveToChannel_readOnly voice now targetUser server channel
  | none =>
    rw [updateCall]
    split
    · exact syncCall_readOnly voice user targetUser server
    · exact readOnly_pure ()

/-- The voice state is no part of the document store. -/
theorem updateVoice_readOnly (data : DataMemberEdit) (newChannel : Option Channel) :
    ReadOnly (updateVoice voice now user targetUser server data newChannel) := by
  refine (updateCall_readOnly voice now user targetUser server data newChannel).bind fun _ => ?_
  split
  · exact leaveCall_readOnly voice user targetUser server
  · exact readOnly_pure ()

end VoiceReadOnly

variable {describe : DataMemberEdit → String} {voice : VoiceClient} {now : Timestamp}

section Editing

variable {user : User} {serverId memberId : String} {data : DataMemberEdit} {db db' : MongoDb}
variable {server : Server} {old new : Member}

theorem Outcome.ensureElevated_bind {α : Type} {query : DatabasePermissionQuery}
    {f : Unit → Route α} {Q : Except Failure α → MongoDb → Prop}
    (known : query.server = some server)
    (passed : (old.id.user ≠ user.id → rank < old.getRanking server) → Outcome (f ()) db Q)
    (refused : ∀ e, Q (.error e) db) : Outcome (ensureElevated query user old rank >>= f) db Q := by
  rw [ensureElevated]
  split
  · next own => exact passed fun other => absurd own other
  · rw [known]
    apply elevated_bind _ (refused _)
    intro below
    exact passed fun _ => below

/-- The guard on the roles of the payload, seen from the roles that the edit
leaves. -/
theorem added_of_checkRoles (checked : checkRoles rank server old data.roles = .ok server')
    (written : new.roles = data.newRoles old.roles) :
    ∀ id ∈ new.roles, id ∉ old.roles →
      ∃ role, server.roles.lookup id = some role ∧ rank < role.rank := by
  intro id holds fresh
  rw [written, DataMemberEdit.newRoles] at holds
  cases roles : data.roles with
  | none =>
    rw [roles, Option.getD_none] at holds
    exact absurd (foldl_clearRoles_subset _ _ holds) fresh
  | some roles' =>
    rw [roles, checkRoles] at checked
    rw [roles, Option.getD_some] at holds
    have accepted := (checkAddedRoles_accepts_iff (nodup_addedRoles _ _)).mp ⟨server', checked⟩
    exact accepted id (by simp [addedRoles, holds, fresh])

theorem MongoDb.rankOf_le_own (joined : db.memberOf server user = some member) :
    db.rankOf server user ≤ member.getRanking server := by
  rw [rankOf, joined]
  split
  · exact Int64.minValue_le _
  · exact le_refl _

/-- What an edit has passed once it writes to the documents. -/
structure AdmitsMemberEdit (voice : VoiceClient) (now : Timestamp) (user : User)
    (serverId memberId : String) (data : DataMemberEdit) (db : MongoDb) (server : Server)
    (old : Member) (edited : EditedMember) : Prop where
  stored : db.servers.find serverId = some server
  target : db.users.find memberId = some edited.targetUser
  fetched : db.fetchMember serverId memberId = .ok old
  permitted : ∃ targetPermissions,
    data.checkFields voice.isEnabled (decide (user.id = old.id.user))
      (serverPermissions now server user (db.memberOf server user)) targetPermissions = .ok ()
  located : onPayload (newVoiceChannel voice edited.targetUser server
    ((db.serverQuery now user server).afterServer server) old) data.voiceChannel db =
      (.ok edited.voiceChannel, db)
  below : old.id.user ≠ user.id → db.rankOf server user < old.getRanking server
  checked : checkRoles (db.rankOf server user) server old data.roles = .ok edited.server

variable {edited : EditedMember}

section

variable (admits : AdmitsMemberEdit voice now user serverId memberId data db server old edited)

include admits

theorem AdmitsMemberEdit.key : old.id = { server := serverId, user := memberId } :=
  fetchMember_id admits.fetched

theorem AdmitsMemberEdit.sameRoles
    (stored : db.serverMembers.find old.id = some document) : old.roles = document.roles := by
  obtain ⟨_, found, _, decoded⟩ := fetchMember_eq_ok.mp admits.fetched
  rw [admits.key, found] at stored
  cases stored
  exact (toMember_eq_some decoded).2.2.1

omit admits in
/-- Members are left alone, or all guards are passed and the member is
edited. -/
theorem editMemberDocuments_outcome :
    Outcome (editMemberDocuments describe voice now user serverId memberId data) db fun r db' =>
      (∃ e, r = .error e) ∧ db.KeepsMembers db' ∨
        ∃ server old edited, r = .ok edited ∧
          AdmitsMemberEdit voice now user serverId memberId data db server old edited ∧
          db.EditsMember db' data old edited.member := by
  have refused : ∀ e : Failure, (∃ e', (.error e : Except Failure EditedMember) = .error e') ∧
      db.KeepsMembers db := fun e => ⟨⟨e, rfl⟩, .refl db⟩
  rw [editMemberDocuments]
  apply ensure_bind _ fun _ => .inl (refused _)
  intro _
  apply find_bind _ fun e => .inl (refused e)
  intro server stored
  have sameServer : server.id = serverId := key_of_find stored
  apply fetch_bind _ fun e => .inl (refused e)
  intro targetUser fetchedUser
  apply fetch_bind _ fun e => .inl (refused e)
  intro old fetched
  rw [sameServer] at fetched
  apply ask_bind (db.serverQuery_run now user server)
  apply ask_any_bind _ fun e => .inl (refused e)
  intro targetPermissions _ _
  apply lift_bind _ fun e => .inl (refused e)
  intro _ permitted
  apply readOnly_ran_bind _ _ fun e => .inl (refused e)
  · exact onPayload_readOnly (newVoiceChannel_readOnly voice targetUser server _ old) _
  intro voiceChannel located
  apply memberRank_bind rfl
  apply ensureElevated_bind rfl _ fun e => .inl (refused e)
  intro below
  apply lift_bind _ fun e => .inl (refused e)
  intro server' checked
  have admits : ∀ member, AdmitsMemberEdit voice now user serverId memberId data db server old
      { server := server', targetUser, member, voiceChannel } := fun member =>
    { stored, target := orNotFound_eq_ok.mp fetchedUser, fetched
      permitted := ⟨targetPermissions, permitted⟩, located, below, checked }
  obtain ⟨document, found, _⟩ := fetchMember_eq_ok.mp fetched
  rw [← (admits old).key] at found
  apply bind (applyMemberEdit_outcome found)
  · rintro new db' (⟨⟨_, failed⟩, _⟩ | ⟨_, returned, edits⟩)
    · cases failed
    · cases returned
      exact .inr ⟨server, old, _, rfl, admits new, edits⟩
  · rintro e db' (⟨_, keeps⟩ | ⟨_, returned, _⟩)
    · exact .inl ⟨⟨e, rfl⟩, keeps⟩
    · cases returned

omit admits in
/-- The voice state comes after the documents and does not change them. -/
theorem editMember_outcome :
    Outcome (editMember describe voice now user serverId memberId data) db fun r db' =>
      (∃ e, r = .error e) ∧ db.KeepsMembers db' ∨
        ∃ server old edited,
          AdmitsMemberEdit voice now user serverId memberId data db server old edited ∧
          db.EditsMember db' data old edited.member ∧
          ∀ member, r = .ok member → member = edited.member := by
  rw [editMember]
  apply bind editMemberDocuments_outcome
  · rintro edited db' (⟨⟨_, failed⟩, _⟩ | ⟨server, old, _, returned, admits, edits⟩)
    · cases failed
    · cases returned
      apply readOnly_bind (updateVoice_readOnly voice now user _ _ data _)
      · intro _
        refine .inr ⟨server, old, edited, admits, edits, ?_⟩
        rintro _ ⟨⟩
        rfl
      · intro e
        refine .inr ⟨server, old, edited, admits, edits, ?_⟩
        rintro _ ⟨⟩
  · rintro e db' (⟨_, keeps⟩ | ⟨_, _, _, returned, _⟩)
    · exact .inl ⟨⟨e, rfl⟩, keeps⟩
    · cases returned

/-- The edited member stays below the editor. -/
theorem AdmitsMemberEdit.respects (edits : db.EditsMember db' data old edited.member) :
    RespectsRanking server (db.rankOf server user) user.id old edited.member := by
  refine .of_guards (added_of_checkRoles admits.checked edits.newRoles) admits.below ?_
  intro own
  apply rankOf_le_own
  have sameServer : server.id = serverId := key_of_find admits.stored
  have sameUser : user.id = memberId := own.symm.trans (congrArg _ admits.key)
  rw [MongoDb.memberOf, sameServer, sameUser, admits.fetched]
  rfl

end

/-- An accepted edit gives out only roles below the editor. Another member was
below the editor and stays there, and the editor does not rise. -/
theorem memberEdit_respects_ranking {member : Member}
    (ran : editMember describe voice now user serverId memberId data db = (.ok new, db'))
    (stored : db.servers.find serverId = some server)
    (target : db.fetchMember serverId memberId = .ok old)
    (joined : db.memberOf server user = some member)
    (restricted : user.unrestricted server = false) :
    RespectsRanking server (member.getRanking server) user.id old new ∧
      db.WritesMember db' old new := by
  have ranked : db.rankOf server user = member.getRanking server := by
    rw [MongoDb.rankOf, restricted, joined]
    rfl
  rcases editMember_outcome.elim ran with
    ⟨⟨_, failed⟩, _⟩ | ⟨server', old', edited, admits, edits, returned⟩
  · cases failed
  · cases stored.symm.trans admits.stored
    obtain rfl := Except.ok.inj (target.symm.trans admits.fetched)
    rw [returned new rfl, ← ranked]
    exact ⟨admits.respects edits, edits.writes fun _ => admits.sameRoles⟩

end Editing

def takeGuestRole : DataMemberEdit where
  roles := some ["staff", "guest", "guest"]

theorem memberEdit_respects_ranking_sample :
    RespectsRanking sampleServer 1 "staff-user" staffMember
        { staffMember with roles := ["staff", "guest", "guest"] } ∧
      sampleStore.WritesMember
        (editMember (fun _ => "") .disabled 0 staffUser "server" "staff-user" takeGuestRole
          sampleStore).2
        staffMember { staffMember with roles := ["staff", "guest", "guest"] } := by
  have ran : editMember (fun _ => "") .disabled 0 staffUser "server" "staff-user" takeGuestRole
      sampleStore = (.ok { staffMember with roles := ["staff", "guest", "guest"] },
        (editMember (fun _ => "") .disabled 0 staffUser "server" "staff-user" takeGuestRole
          sampleStore).2) := rfl
  have joined : sampleStore.memberOf sampleServer staffUser = some staffMember := rfl
  exact memberEdit_respects_ranking ran rfl rfl joined rfl

/-! ## Mutes

A member is muted and deafened by fields of the payload, and both are lifted by removing
the fields. Only the former is checked. -/

/-- A change of the stored fields is covered by the permission for it. -/
structure MuteAuthorised (held : PermissionValue) (before after : MemberDocument) : Prop where
  publish : after.canPublish ≠ before.canPublish → held.hasChannelPermission .muteMembers
  receive : after.canReceive ≠ before.canReceive → held.hasChannelPermission .deafenMembers

/-- So is every mute that the removal list lifts. -/
structure DataMemberEdit.RemovalAuthorised (data : DataMemberEdit) (held : PermissionValue)
    (before : MemberDocument) : Prop where
  publish : data.remove.contains .canPublish → before.canPublish = false →
    held.hasChannelPermission .muteMembers
  receive : data.remove.contains .canReceive → before.canReceive = false →
    held.hasChannelPermission .deafenMembers

/-- A flag that is set with a permission, or removed without one. -/
theorem changed_imp_iff {set : Option Bool} {removed : Bool} {allowed : Prop}
    (checked : set.isSome → allowed) (apart : removed → set.isSome = false) (before : Bool) :
    (set.getD (removed || before) ≠ before → allowed) ↔
      (removed → before = false → allowed) := by
  cases set with
  | some value =>
    have allowed := checked rfl
    exact ⟨fun _ _ _ => allowed, fun _ _ => allowed⟩
  | none => cases removed <;> cases before <;> simp

section Mutes

variable {user : User} {serverId memberId : String} {data : DataMemberEdit} {db db' : MongoDb}
variable {server : Server} {old new : Member}

theorem DataMemberEdit.unset_of_removed
    (compatible : data.remove.any (conflicts (data.toPartial avatar)) = false)
    (field : FieldsMember) (removed : data.remove.contains field) :
    field.conflicts (data.toPartial avatar) = false := by
  rw [any_eq_false] at compatible
  exact Bool.not_eq_true _ ▸ compatible field (contains_iff_mem.mp removed)

/-- What is unauthorised in an accepted edit of the stored fields comes from the
removal list, which lifts a mute without asking for the permission to mute. -/
theorem memberEdit_muteAuthorised_iff {held : PermissionValue} {before after : MemberDocument}
    (ran : editMember describe voice now user serverId memberId data db = (.ok new, db'))
    (stored : db.servers.find serverId = some server)
    (heldValue : db.CalculatesServer now user server held)
    (found : db.serverMembers.find { server := serverId, user := memberId } = some before)
    (found' : db'.serverMembers.find { server := serverId, user := memberId } = some after) :
    MuteAuthorised held before after ↔ data.RemovalAuthorised held before := by
  rw [calculatesServer_iff] at heldValue
  subst heldValue
  rcases editMember_outcome.elim ran with ⟨⟨_, failed⟩, _⟩ | ⟨server', old, _, admits, edits, _⟩
  · cases failed
  · cases stored.symm.trans admits.stored
    obtain ⟨document, avatar, earlier, written, _, compatible⟩ := edits.edited
    rw [admits.key] at earlier written
    cases found.symm.trans earlier
    cases found'.symm.trans written
    obtain ⟨_, checked⟩ := admits.permitted
    have permits := DataMemberEdit.permitsVoice_of_checkFields checked
    have publish := changed_imp_iff permits.mute
      (DataMemberEdit.unset_of_removed compatible .canPublish) before.canPublish
    have receive := changed_imp_iff permits.deafen
      (DataMemberEdit.unset_of_removed compatible .canReceive) before.canReceive
    constructor
    · rintro ⟨published, received⟩
      rw [updated_canPublish] at published
      rw [updated_canReceive] at received
      exact ⟨publish.mp published, receive.mp received⟩
    · rintro ⟨published, received⟩
      refine ⟨?_, ?_⟩
      · rw [updated_canPublish]
        exact publish.mpr published
      · rw [updated_canReceive]
        exact receive.mpr received

end Mutes

def mutedGuest : Member :=
  { guestMember with canPublish := false, canReceive := false }

def mutedStore : MongoDb :=
  { sampleStore with serverMembers := .ofDocuments [.ofMember mutedGuest] }

def removeMute : DataMemberEdit where
  remove := [.canPublish, .canReceive]

def ownerUser : User where
  id := "owner"

theorem memberEdit_muteAuthorised_iff_sample :
    MuteAuthorised (.ofChannelPermission .grantAllSafe) (.ofMember mutedGuest)
      (.ofMember guestMember) := by
  have ran : editMember (fun _ => "") .disabled 0 ownerUser "server" "guest-user" removeMute
      mutedStore = (.ok guestMember, (editMember (fun _ => "") .disabled 0 ownerUser "server"
        "guest-user" removeMute mutedStore).2) := rfl
  have held : mutedStore.CalculatesServer 0 ownerUser sampleServer
      (.ofChannelPermission .grantAllSafe) := calculatesServer_iff.mpr rfl
  refine (memberEdit_muteAuthorised_iff ran rfl held rfl rfl).mpr ⟨?_, ?_⟩
  · intro _ _
    decide
  · intro _ _
    decide

/-- A guest without any of these permissions lifts their own mute. -/
theorem memberEdit_guest_lifts_mute :
    (editMember (fun _ => "") .disabled 0 guestUser "server" "guest-user" removeMute
        mutedStore).1 = .ok guestMember ∧
      mutedStore.serverMembers.find { server := "server", user := "guest-user" } =
        some (.ofMember mutedGuest) ∧
      (editMember (fun _ => "") .disabled 0 guestUser "server" "guest-user" removeMute
          mutedStore).2.serverMembers.find { server := "server", user := "guest-user" } =
        some (.ofMember guestMember) ∧
      ¬MuteAuthorised (serverPermissions 0 sampleServer guestUser
          (mutedStore.memberOf sampleServer guestUser))
        (.ofMember mutedGuest) (.ofMember guestMember) := by
  refine ⟨rfl, rfl, rfl, ?_⟩
  intro authorised
  exact absurd (authorised.publish (by decide)) (by decide)

end Company
