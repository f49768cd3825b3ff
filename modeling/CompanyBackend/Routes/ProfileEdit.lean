import CompanyBackend.Routes.Basic

/-!
# Profile edits

The route that edits a user: it removes and sets the avatar, the profile background and
the other fields of the profile. Removing a file marks its attachment as deleted; setting
one claims the attachment for the user.
-/

namespace Company

open Request Outcome List Option

/-- The fields that the API lets a client remove. -/
inductive UserField where
  | avatar | statusText | statusPresence | profileContent | profileBackground | displayName
  | internal
  deriving DecidableEq, Repr

def UserField.toFieldsUser : UserField → FieldsUser
  | .avatar => .avatar
  | .statusText => .statusText
  | .statusPresence => .statusPresence
  | .profileContent => .profileContent
  | .profileBackground => .profileBackground
  | .displayName => .displayName
  | .internal => .none

structure DataUserProfile where
  content : Option String := none
  background : Option String := none
  deriving DecidableEq, Repr

structure DataEditUser where
  displayName : Option String := none
  avatar : Option String := none
  status : Option UserStatus := none
  profile : Option DataUserProfile := none
  badges : Option Int32 := none
  flags : Option Int32 := none
  presenceStyle : Option String := none
  remove : List UserField := []
  deriving DecidableEq, Repr

/-- A display name has no zero width space and no line break. -/
def isDisplayName (name : String) : Bool :=
  !name.isEmpty && name.toList.all fun c => c != '\u200b' && c != '\n' && c != '\r'

def DataEditUser.valid (data : DataEditUser) : Bool :=
  lengthWithin 2 32 data.displayName && data.displayName.all isDisplayName &&
  lengthWithin 1 128 data.avatar &&
  data.status.all (fun status => lengthWithin 0 128 status.text) &&
  data.profile.all fun profile =>
    lengthWithin 0 2000 profile.content && lengthWithin 1 128 profile.background

/-- A request that leaves early. The presence style alone does not count as a
change. -/
def DataEditUser.changesNothing (data : DataEditUser) : Bool :=
  data.displayName.isNone && data.status.isNone && data.profile.isNone && data.avatar.isNone &&
    data.badges.isNone && data.flags.isNone && data.remove.isEmpty

variable (tag : String) (objectType : FileUsedForType) (id parent uploaderId : String)

/-- Claim an attachment for an object: an avatar, a background, an icon or a
banner. Whoever claims it is recorded as its uploader. -/
def File.useFor : Route File := fun db =>
  match db.findAndUseAttachment id tag { objectType, id := parent } uploaderId with
  | .ok (file, db') => (.ok file, db')
  | .error e => (.error (.error e), db)

/-- A claim is refused, or the attachment was unclaimed and is returned as it
was. -/
theorem File.useFor_cases (db : MongoDb) :
    (∃ e, useFor tag objectType id parent uploaderId db = (.error e, db)) ∨
      ∃ file, db.attachments.find id = some file ∧ file.usedFor = none ∧
        useFor tag objectType id parent uploaderId db =
          (.ok file, db.useAttachment id { objectType, id := parent } uploaderId) := by
  rw [useFor, MongoDb.findAndUseAttachment]
  cases found : db.attachments.find id with
  | none => exact .inl ⟨_, rfl⟩
  | some file =>
    dsimp only
    split_ifs with claimable
    · exact .inr ⟨file, rfl, claimable.2, rfl⟩
    · exact .inl ⟨_, rfl⟩

def File.useUserAvatar : (id parent uploaderId : String) → Route File :=
  useFor "avatars" .userAvatar

def File.useBackground : (id parent uploaderId : String) → Route File :=
  useFor "backgrounds" .userProfileBackground

/-- The minimal record that is stored when no attachment could be claimed. -/
def File.constructed (id userId : String) : File where
  id := id
  tag := tag
  filename := id
  uploaderId := some userId
  contentType := "image/png"
  userId := some userId

open File

/-- The file for a new avatar or background: the claimed attachment, or a record
made up from the id. -/
def newProfileFile (use : (id parent uploaderId : String) → Route File) (tag : String)
    (user : User) (id : String) : Route File := do
  match ← result (use id user.id user.id) with
  | .ok file => return file
  | .error _ => return constructed tag id user.id

def newAvatar : (user : User) → (id : String) → Route File :=
  newProfileFile useUserAvatar "avatars"

def newBackground : (user : User) → (id : String) → Route File :=
  newProfileFile useBackground "backgrounds"

def markDeleted (file : Option File) : Route Unit :=
  match file with
  | some file => Route.update fun db => .ok (db.markAttachmentAsDeleted file.id)
  | none => pure ()

variable (user : User)

def User.background : Option File := user.profile.bind UserProfile.background

/-- The user that a request edits: the requester, a bot of theirs, or anyone for
a privileged requester. -/
def editedUser (target : String) : Route User :=
  if target ≠ "@me" ∧ target ≠ user.id then do
    let targetUser ← Route.fetch fun db => db.fetchUser target
    let isBotOwner := targetUser.bot.any fun bot => bot.owner == user.id
    ensure (isBotOwner || user.privileged) (.error .notPrivileged)
    return targetUser
  else return user

def newStatus (status : UserStatus) : UserStatus :=
  let current := user.status.getD {}
  { text := status.text <|> current.text, presence := status.presence <|> current.presence }

/-- The profile with the new text and background over the current ones. -/
def newProfile (profile : DataUserProfile) : Route UserProfile := do
  let current := user.profile.getD {}
  let current := { current with content := profile.content <|> current.content }
  match profile.background with
  | some id =>
    let background ← newBackground user id
    return { current with background := some background }
  | none => return current

def onPayload {α β : Type} (action : α → Route β) : Option α → Route (Option β)
  | some data => do
    let value ← action data
    return some value
  | none => return none

/-- There is a result exactly if there is something to act on. -/
theorem onPayload_isSome {α β : Type} {action : α → Route β} {payload : Option α} {value : Option β}
    {db db' : MongoDb} (ran : onPayload action payload db = (.ok value, db')) :
    value.isSome = payload.isSome := by
  cases payload with
  | none =>
    cases ran
    rfl
  | some data =>
    obtain ⟨_, _, _, ⟨⟩⟩ := of_bind_eq_ok ran
    rfl

def User.update (data : PartialUser) (remove : List FieldsUser) : Route User := do
  Route.update fun db => db.updateUser user.id data remove
  return (remove.foldl User.removeField user).applyOptions data

/-- The part of the route that edits, once the user is known and something
changes. -/
def applyEdit (data : DataEditUser) : Route User := do
  markDeleted (if data.remove.contains .avatar then user.avatar else none)
  markDeleted (if data.remove.contains .profileBackground then user.background else none)
  let fields := data.remove.map UserField.toFieldsUser
  let cleared := fields.foldl User.removeField user
  let avatar ← onPayload (newAvatar cleared) data.avatar
  let profile ← onPayload (newProfile cleared) data.profile
  cleared.update
    { displayName := data.displayName
      badges := data.badges
      flags := data.flags
      presenceStyle := data.presenceStyle
      avatar
      status := data.status.map (newStatus cleared)
      profile }
    fields

/-- `PATCH /users/<target>`. `describe` is the text of the validation
library. -/
def editUser (describe : DataEditUser → String) (user : User) (target : String)
    (data : DataEditUser) : Route User := do
  ensure data.valid (.error (.failedValidation (describe data)))
  -- Filter out invalid edit fields.
  ensure (user.privileged || (data.badges.isNone && data.flags.isNone)) (.error .notPrivileged)
  let user ← editedUser user target
  if data.changesNothing then return user
  else applyEdit user data

/-- The attachment is claimed for the avatar or the profile background of the
user. -/
def File.UsedByProfile (file : File) (owner : String) : Prop :=
  file.usedFor = some { objectType := .userAvatar, id := owner } ∨
    file.usedFor = some { objectType := .userProfileBackground, id := owner }

-- Who has uploaded which attachment. A claim overwrites the recorded uploader, so the
-- document does not tell any more.
variable (uploader : String → Option String)

/-- The attachment is claimed for the profile of the user who has uploaded
it. -/
def File.ClaimedFor (file : File) (owner : String) : Prop :=
  file.UsedByProfile owner ∧ uploader file.id = some owner

variable (owner : String) (deletable : List String) (db db' : MongoDb)

/-- One attachment before and after: its claim is kept, or it was unclaimed and
is now claimed for the owner. -/
structure File.Evolves (file file' : File) : Prop where
  id : file'.id = file.id
  tag : file'.tag = file.tag
  claim : file'.usedFor = file.usedFor ∨ file.usedFor = none ∧ file'.UsedByProfile owner

/-- All attachments before and after. None appears or disappears, and only those
named in `deletable` change their deleted flag. -/
structure MongoDb.Claims : Prop where
  kept : ∀ id, (db.attachments.find id).isSome → (db'.attachments.find id).isSome
  present : ∀ id file', db'.attachments.find id = some file' →
    ∃ file, db.attachments.find id = some file ∧ file.Evolves owner file' ∧
      (file'.deleted = file.deleted ∨ id ∈ deletable)

/-- The attachments evolve and the users are as before. -/
structure MongoDb.Prepares : Prop extends MongoDb.Claims owner deletable db db' where
  users : db'.users = db.users

variable {id : String} {deletable : List String}

section Evolution

variable {uploader : String → Option String} {owner : String} {db db' db'' : MongoDb}

theorem File.Evolves.refl (file : File) : file.Evolves owner file := ⟨rfl, rfl, .inl rfl⟩

theorem File.UsedByProfile.claimed {file : File} (used : file.UsedByProfile owner) :
    file.usedFor ≠ none := by
  rcases used with used | used <;> simp [used]

theorem File.Evolves.trans {file file' file'' : File} (first : file.Evolves owner file')
    (second : file'.Evolves owner file'') : file.Evolves owner file'' := by
  refine ⟨second.id.trans first.id, second.tag.trans first.tag, ?_⟩
  rcases second.claim with sameUse | ⟨unclaimed, used⟩
  · rw [UsedByProfile, sameUse]
    exact first.claim
  · rcases first.claim with firstUse | ⟨_, firstUsed⟩
    · exact .inr ⟨firstUse ▸ unclaimed, used⟩
    · exact absurd unclaimed firstUsed.claimed

/-- A claim for a profile is never given up, whoever edits. -/
theorem File.ClaimedFor.evolve {editor : String} {file file' : File}
    (claimed : file.ClaimedFor uploader owner) (evolves : file.Evolves editor file') :
    file'.ClaimedFor uploader owner := by
  rcases evolves.claim with sameUse | ⟨unclaimed, _⟩
  · rw [ClaimedFor, UsedByProfile, sameUse, evolves.id]
    exact claimed
  · exact absurd unclaimed claimed.1.claimed

theorem MongoDb.Claims.refl (db : MongoDb) : db.Claims owner deletable db where
  kept _ stored := stored
  present _ file found := ⟨file, found, .refl file, .inl rfl⟩

/-- One attachment is updated: the others are as before. -/
theorem MongoDb.Claims.of_update {f : File → File}
    (changed : db'.attachments.find id = (db.attachments.find id).map f)
    (others : ∀ other, other ≠ id → db'.attachments.find other = db.attachments.find other)
    (evolves : ∀ file, db.attachments.find id = some file → file.Evolves owner (f file))
    (deleted : ∀ file, (f file).deleted = file.deleted ∨ id ∈ deletable) :
    db.Claims owner deletable db' where
  kept other stored := by
    by_cases same : other = id
    · subst same
      rwa [changed, isSome_map]
    · rwa [others other same]
  present := by
    intro other file' found'
    by_cases same : other = id
    · subst same
      rw [changed, map_eq_some_iff] at found'
      obtain ⟨file, found, rfl⟩ := found'
      exact ⟨file, found, evolves file found, deleted file⟩
    · rw [others other same] at found'
      exact ⟨file', found', .refl file', .inl rfl⟩

theorem MongoDb.Claims.trans (first : db.Claims owner deletable db')
    (second : db'.Claims owner deletable db'') : db.Claims owner deletable db'' where
  kept id stored := second.kept id (first.kept id stored)
  present := by
    intro id file'' found
    obtain ⟨file', found', evolves', deleted'⟩ := second.present id file'' found
    obtain ⟨file, found, evolves, deleted⟩ := first.present id file' found'
    refine ⟨file, found, evolves.trans evolves', ?_⟩
    rcases deleted' with same' | listed
    · rcases deleted with same | listed
      · exact .inl (same'.trans same)
      · exact .inr listed
    · exact .inr listed

theorem MongoDb.Prepares.trans (first : db.Prepares owner deletable db')
    (second : db'.Prepares owner deletable db'') : db.Prepares owner deletable db'' where
  toClaims := first.toClaims.trans second.toClaims
  users := second.users.trans first.users

variable (uploader) in
/-- Whatever attachment the id names, the owner has uploaded it and it is
claimed for their profile. -/
def MongoDb.Owns (db : MongoDb) (owner id : String) : Prop :=
  ∀ file, db.attachments.find id = some file → file.ClaimedFor uploader owner

/-- A file that is owned stays owned, whoever edits. -/
theorem MongoDb.Claims.owns {editor : String} (claims : db.Claims editor deletable db')
    (owns : db.Owns uploader owner id) : db'.Owns uploader owner id := by
  intro file' found'
  obtain ⟨file, found, evolves, _⟩ := claims.present id file' found'
  exact (owns file found).evolve evolves

variable (uploader) in
/-- An id that may be put into the payload: it names no attachment, or one that
the owner has uploaded and that nobody has claimed, of the right tag, or that is
claimed for their profile. -/
def MongoDb.Usable (db : MongoDb) (owner tag id : String) : Prop :=
  ∀ file, db.attachments.find id = some file → uploader file.id = some owner ∧
    (file.tag = tag ∧ file.usedFor = none ∨ file.UsedByProfile owner)

theorem MongoDb.Claims.usable {tag : String} (claims : db.Claims owner deletable db')
    (usable : db.Usable uploader owner tag id) : db'.Usable uploader owner tag id := by
  intro file' found'
  obtain ⟨file, found, evolves, _⟩ := claims.present id file' found'
  obtain ⟨uploaded, before⟩ := usable file found
  refine ⟨evolves.id ▸ uploaded, ?_⟩
  rcases evolves.claim with sameUse | ⟨_, used⟩
  · rwa [File.UsedByProfile, evolves.tag, sameUse]
  · exact .inr used

end Evolution

def User.fileIds : List String :=
  (user.avatar.toList ++ user.background.toList).map File.id

def PartialUser.fileIds (data : PartialUser) : List String :=
  (data.avatar.toList ++ (data.profile.bind UserProfile.background).toList).map File.id

section Steps

variable {uploader : String → Option String} {owner : String} {db db' : MongoDb} {user : User}

theorem markDeleted_outcome (owner : String) {file : Option File}
    (listed : ∀ f ∈ file, f.id ∈ deletable) :
    Outcome (markDeleted file) db (Succeeds fun _ db' => db.Prepares owner deletable db') := by
  cases file with
  | none => exact ⟨(), rfl, .refl db, rfl⟩
  | some file =>
    refine ⟨(), rfl, .of_update (db.find_markAttachmentAsDeleted file.id)
      (fun _ => db.find_markAttachmentAsDeleted_ne) ?_ ?_, rfl⟩
    · intro old _
      exact ⟨rfl, rfl, .inl rfl⟩
    · intro old
      exact .inr (listed file rfl)

variable {objectType : FileUsedForType}

section

variable {tag : String}
variable (profile : objectType = .userAvatar ∨ objectType = .userProfileBackground)

include profile

/-- Claiming an attachment gives it to the owner; a refused claim changes
nothing, and the attachment was then missing, of another kind or already
claimed. -/
theorem useFor_outcome (usable : db.Usable uploader owner tag id) :
    Outcome (useFor tag objectType id owner owner) db fun r db' =>
      db.Prepares owner deletable db' ∧ (∀ file, r = .ok file → file.id = id) ∧
        db'.Owns uploader owner id := by
  rw [Outcome, useFor, MongoDb.findAndUseAttachment]
  cases found : db.attachments.find id with
  | none =>
    refine ⟨⟨.refl db, rfl⟩, by simp, ?_⟩
    intro file found'
    rw [found] at found'
    cases found'
  | some file =>
    by_cases claimable : file.tag = tag ∧ file.usedFor = none
    · dsimp only
      rw [if_pos claimable]
      have used : UsedByProfile
          { file with usedFor := some { objectType, id := owner }, uploaderId := some owner }
          owner := by
        rcases profile with rfl | rfl
        · exact .inl rfl
        · exact .inr rfl
      refine ⟨⟨.of_update (db.find_useAttachment id _ owner)
        (fun _ ne => db.find_useAttachment_ne ne _ owner) ?_ fun _ => .inl rfl, rfl⟩, ?_, ?_⟩
      · intro old found'
        rw [found] at found'
        cases found'
        exact ⟨rfl, rfl, .inr ⟨claimable.2, used⟩⟩
      · intro _ returned
        cases returned
        exact Collection.key_of_find found
      · intro file' found'
        rw [db.find_useAttachment, found, map_some, Option.some.injEq] at found'
        subst found'
        exact ⟨used, (usable file found).1⟩
    · dsimp only
      rw [if_neg claimable]
      refine ⟨⟨.refl db, rfl⟩, by simp, ?_⟩
      intro file' found'
      obtain ⟨uploaded, unclaimed | used⟩ := usable file' found'
      · rw [found] at found'
        cases found'
        exact absurd unclaimed claimable
      · exact ⟨used, uploaded⟩

theorem newProfileFile_outcome (usable : db.Usable uploader user.id tag id) :
    Outcome (newProfileFile (useFor tag objectType) tag user id) db
      (Succeeds fun file db' => db.Prepares user.id deletable db' ∧
        db'.Owns uploader user.id file.id) := by
  apply result_bind (useFor_outcome profile usable)
  rintro r db' ⟨prepares, named, owned⟩
  cases r with
  | ok file =>
    refine ⟨file, rfl, prepares, ?_⟩
    rwa [named file rfl]
  | error e => exact ⟨_, rfl, prepares, owned⟩

end

theorem newProfile_outcome {profile : DataUserProfile}
    (usable : ∀ id ∈ profile.background, db.Usable uploader user.id "backgrounds" id) :
    Outcome (newProfile user profile) db
      (Succeeds fun written db' => db.Prepares user.id deletable db' ∧
        ∀ file ∈ written.background,
          file.id ∈ user.fileIds ∨ db'.Owns uploader user.id file.id) := by
  rw [newProfile]
  cases background : profile.background with
  | none =>
    refine ⟨_, rfl, ⟨.refl db, rfl⟩, ?_⟩
    intro file current
    refine .inl (mem_map_of_mem (mem_append_right _ ?_))
    cases stored : user.profile with
    | none => simp [stored] at current
    | some stored' => simpa [User.background, stored] using current
  | some id =>
    apply succeeds_bind (newProfileFile_outcome (.inr rfl) (usable id background))
    rintro file db' ⟨prepares, owned⟩
    refine ⟨_, rfl, prepares, ?_⟩
    rintro _ ⟨⟩
    exact .inr owned

theorem onPayload_outcome {α β : Type} {action : α → Route β} {payload : Option α}
    {R : Option β → MongoDb → Prop} (absent : payload = none → R none db)
    (acts : ∀ data ∈ payload, Outcome (action data) db (Succeeds fun value => R (some value))) :
    Outcome (onPayload action payload) db (Succeeds R) := by
  cases payload with
  | none => exact ⟨none, rfl, absent rfl⟩
  | some data =>
    apply succeeds_bind (acts data rfl)
    intro value db' held
    exact ⟨some value, rfl, held⟩

/-- A field that is removed takes its file along, if it has one. -/
theorem User.fileIds_removeField (user : User) (field : FieldsUser) :
    (user.removeField field).fileIds ⊆ user.fileIds := by
  cases field with
  | avatar => exact map_subset _ (subset_append_right _ _)
  | profileBackground =>
    have removed : (user.removeField .profileBackground).background = none := by
      rw [background, removeField]
      cases user.profile <;> rfl
    rw [fileIds, removed, toList_none, append_nil]
    exact map_subset _ (subset_append_left _ _)
  | profileContent =>
    have kept : (user.removeField .profileContent).background = user.background := by
      rw [background, background, removeField]
      cases user.profile <;> rfl
    rw [fileIds, kept]
    exact List.Subset.refl _
  | statusText | statusPresence | displayName | suspension | none => exact List.Subset.refl _

theorem User.fileIds_foldl_removeField (remove : List FieldsUser) (user : User) :
    (remove.foldl removeField user).fileIds ⊆ user.fileIds := by
  induction remove generalizing user with
  | nil => exact List.Subset.refl _
  | cons field remove ih =>
    exact List.Subset.trans (ih (user.removeField field)) (user.fileIds_removeField field)

variable {data : PartialUser}

theorem User.fileIds_applyOptions (member : id ∈ (user.applyOptions data).fileIds) :
    id ∈ data.fileIds ∨ id ∈ user.fileIds := by
  rw [fileIds, map_append, mem_append] at member
  rw [fileIds, PartialUser.fileIds, map_append, map_append, mem_append, mem_append]
  rcases member with avatar | profile
  · cases written : data.avatar with
    | none => exact .inr (.inl (by simpa [applyOptions, written] using avatar))
    | some file => exact .inl (.inl (by simpa [applyOptions, written] using avatar))
  · cases written : data.profile with
    | none => exact .inr (.inr (by simpa [applyOptions, background, written] using profile))
    | some file => exact .inl (.inr (by simpa [applyOptions, background, written] using profile))

variable {remove : List FieldsUser}

/-- An update brings in no file but those of its payload. -/
theorem User.fileIds_updated (member : id ∈ (user.updated data remove).fileIds) :
    id ∈ data.fileIds ∨ id ∈ user.fileIds := by
  have split := fileIds_applyOptions (show id ∈ ((remove.foldl removeField user).applyOptions
    data).fileIds from member)
  exact split.imp_right fun kept => fileIds_foldl_removeField remove user kept

/-- Profiles before and after an update: no one refers to a new file, but for
the updated user, who may refer to those of the payload. -/
def MongoDb.Refers (db : MongoDb) (owner : String) (payload : List String) (db' : MongoDb) : Prop :=
  ∀ k user', db'.users.find k = some user' → ∃ user, db.users.find k = some user ∧
    ∀ id ∈ user'.fileIds, id ∈ user.fileIds ∨ k = owner ∧ id ∈ payload

theorem updateUserOnce_refers (written : db.updateUserOnce owner data remove = .ok db') :
    db'.attachments = db.attachments ∧ db.Refers owner data.fileIds db' := by
  rw [MongoDb.updateUserOnce] at written
  split at written
  · cases written
  · cases written
    refine ⟨rfl, ?_⟩
    intro k user' found
    by_cases same : k = owner
    · subst same
      rw [Collection.find_update, map_eq_some_iff] at found
      obtain ⟨user, stored, rfl⟩ := found
      refine ⟨user, stored, ?_⟩
      intro id member
      rcases User.fileIds_updated member with new | old
      · exact .inr ⟨rfl, new⟩
      · exact .inl old
    · rw [Collection.find_update_ne same] at found
      exact ⟨user', found, fun id member => .inl member⟩

theorem MongoDb.Refers.trans {db'' : MongoDb} {payload : List String}
    (first : db.Refers owner payload db') (second : db'.Refers owner payload db'') :
    db.Refers owner payload db'' := by
  intro k user'' found''
  obtain ⟨user', found', new'⟩ := second k user'' found''
  obtain ⟨user, found, new⟩ := first k user' found'
  refine ⟨user, found, ?_⟩
  intro id member
  rcases new' id member with old | written
  · exact new id old
  · exact .inr written

theorem updateUser_refers (written : db.updateUser owner data remove = .ok db') :
    db'.attachments = db.attachments ∧ db.Refers owner data.fileIds db' := by
  rw [MongoDb.updateUser] at written
  split at written
  · -- The fields are unset first; whether that worked is not looked at.
    have unset : ∀ unset, db.updateUserOnce owner {} remove = .ok unset →
        db.Refers owner data.fileIds unset ∧ unset.attachments = db.attachments := by
      intro unset accepted
      obtain ⟨sameFiles, refers⟩ := updateUserOnce_refers accepted
      refine ⟨?_, sameFiles⟩
      intro k user' found
      obtain ⟨user, stored, new⟩ := refers k user' found
      refine ⟨user, stored, ?_⟩
      intro id member
      exact (new id member).imp_right fun ⟨_, empty⟩ => nomatch empty
    cases accepted : db.updateUserOnce owner {} remove with
    | ok db₁ =>
      rw [accepted] at written
      obtain ⟨sameFiles, refers⟩ := updateUserOnce_refers written
      obtain ⟨unsetRefers, unsetFiles⟩ := unset db₁ accepted
      exact ⟨sameFiles.trans unsetFiles, unsetRefers.trans refers⟩
    | error e =>
      rw [accepted] at written
      exact updateUserOnce_refers written
  · exact updateUserOnce_refers written

variable (uploader) in
/-- The ids in the payload of an edit may be used by the edited user. -/
structure MongoDb.PayloadUsable (db : MongoDb) (owner : String) (data : DataEditUser) : Prop where
  avatar : ∀ id ∈ data.avatar, db.Usable uploader owner "avatars" id
  background : ∀ profile ∈ data.profile, ∀ id ∈ profile.background,
    db.Usable uploader owner "backgrounds" id

variable (uploader) in
/-- What an edit does to the store: it deletes files of the edited profile only,
and the files that it puts there belong to the edited user or were there
before. -/
structure MongoDb.EditsProfile (db : MongoDb) (user : User) (db' : MongoDb) : Prop where
  claims : db.Claims user.id user.fileIds db'
  refers : ∃ payload, db.Refers user.id payload db' ∧
    ∀ id ∈ payload, id ∈ user.fileIds ∨ db'.Owns uploader user.id id

theorem MongoDb.Refers.of_users_eq (same : db'.users = db.users) : db.Refers owner [] db' := by
  intro k user' found
  rw [same] at found
  exact ⟨user', found, fun id member => .inl member⟩

theorem User.avatar_listed (user : User) (f : File) (member : f ∈ user.avatar) :
    f.id ∈ user.fileIds :=
  mem_map_of_mem (mem_append_left _ (mem_toList.mpr member))

theorem User.background_listed (user : User) (f : File) (member : f ∈ user.background) :
    f.id ∈ user.fileIds :=
  mem_map_of_mem (mem_append_right _ (mem_toList.mpr member))

/-- The last step of an edit: whatever was prepared, the user document is
written. -/
theorem User.update_outcome {db₀ : MongoDb} {edited : User}
    (prepares : db₀.Prepares edited.id edited.fileIds db) (sameId : user.id = edited.id)
    (payload : ∀ id ∈ data.fileIds, id ∈ edited.fileIds ∨ db.Owns uploader edited.id id) :
    Outcome (user.update data remove) db fun _ db' => db₀.EditsProfile uploader edited db' := by
  apply update_bind
  · intro db' written
    obtain ⟨sameFiles, refers⟩ := updateUser_refers written
    rw [sameId] at refers
    have owned : ∀ id, db.Owns uploader edited.id id → db'.Owns uploader edited.id id := by
      intro id owned
      rwa [MongoDb.Owns, sameFiles]
    apply Outcome.pure
    refine ⟨⟨?_, ?_⟩, data.fileIds, ?_, ?_⟩
    · intro id stored
      rw [sameFiles]
      exact prepares.kept id stored
    · intro id file' found
      rw [sameFiles] at found
      exact prepares.present id file' found
    · intro k user' found
      obtain ⟨user, stored, new⟩ := refers k user' found
      rw [prepares.users] at stored
      exact ⟨user, stored, new⟩
    · intro id member
      exact (payload id member).imp_right (owned id)
  · intro e
    exact ⟨prepares.toClaims, [], .of_users_eq prepares.users, by simp⟩

theorem applyEdit_outcome {data : DataEditUser}
    (usable : db.PayloadUsable uploader user.id data) :
    Outcome (applyEdit user data) db fun _ db' => db.EditsProfile uploader user db' := by
  have removed : ∀ (condition : Bool) (file : Option File), (∀ f ∈ file, f.id ∈ user.fileIds) →
      ∀ f ∈ (if condition then file else none), f.id ∈ user.fileIds := by
    intro condition file listed f member
    cases condition with
    | true => exact listed f member
    | false => cases member
  rw [applyEdit]
  apply succeeds_bind (markDeleted_outcome user.id (removed _ _ user.avatar_listed))
  intro _ db₁ prepares₁
  apply succeeds_bind (markDeleted_outcome user.id (removed _ _ user.background_listed))
  intro _ db₂ prepares₂
  have deleted := prepares₁.trans prepares₂
  -- From here on the route works on the user without the removed fields.
  have sameId := User.foldl_removeField_id (data.remove.map UserField.toFieldsUser) user
  have fewer := User.fileIds_foldl_removeField (data.remove.map UserField.toFieldsUser) user
  dsimp only
  generalize (data.remove.map UserField.toFieldsUser).foldl User.removeField user = cleared
    at sameId fewer ⊢
  rw [← sameId] at deleted
  have avatarActs : ∀ id ∈ data.avatar, Outcome (newAvatar cleared id) db₂ (Succeeds fun file db₃ =>
      db₂.Prepares cleared.id user.fileIds db₃ ∧
        ∀ f ∈ some file, db₃.Owns uploader cleared.id f.id) := by
    intro id member
    have usable₂ := deleted.usable (sameId ▸ usable.avatar id member)
    obtain ⟨file, returned, prepares, owned⟩ := newProfileFile_outcome (.inl rfl) usable₂
    refine ⟨file, returned, prepares, ?_⟩
    rintro _ ⟨⟩
    exact owned
  apply succeeds_bind (onPayload_outcome (R := fun avatar db₃ =>
    db₂.Prepares cleared.id user.fileIds db₃ ∧ ∀ f ∈ avatar, db₃.Owns uploader cleared.id f.id)
    (fun _ => ⟨⟨.refl db₂, rfl⟩, by simp⟩) avatarActs)
  rintro avatar db₃ ⟨prepares₃, avatarOwned⟩
  have prepared := deleted.trans prepares₃
  have profileActs : ∀ profile ∈ data.profile, Outcome (newProfile cleared profile) db₃
      (Succeeds fun written db₄ => db₃.Prepares cleared.id user.fileIds db₄ ∧
        ∀ f ∈ (some written).bind UserProfile.background,
          f.id ∈ cleared.fileIds ∨ db₄.Owns uploader cleared.id f.id) := by
    intro profile member
    apply newProfile_outcome
    intro id listed
    exact prepared.usable (sameId ▸ usable.background profile member id listed)
  apply succeeds_bind (onPayload_outcome (R := fun profile db₄ =>
    db₃.Prepares cleared.id user.fileIds db₄ ∧ ∀ f ∈ profile.bind UserProfile.background,
      f.id ∈ cleared.fileIds ∨ db₄.Owns uploader cleared.id f.id)
    (fun _ => ⟨⟨.refl db₃, rfl⟩, by simp⟩) profileActs)
  rintro profile db₄ ⟨prepares₄, profileOwned⟩
  have all := prepared.trans prepares₄
  rw [sameId] at all avatarOwned profileOwned prepares₄
  apply User.update_outcome all sameId
  intro id member
  rw [PartialUser.fileIds, map_append, mem_append, List.mem_map, List.mem_map] at member
  rcases member with ⟨f, written, rfl⟩ | ⟨f, written, rfl⟩
  · exact .inr (prepares₄.owns (avatarOwned f (mem_toList.mp written)))
  · exact (profileOwned f (mem_toList.mp written)).imp_left fun kept => fewer kept

end Steps

end Company
