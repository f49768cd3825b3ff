import CompanyBackend.Routes.ProfileEdit
import Mathlib.Logic.Relation

/-!
# Runs of profile edits

A profile stores the files that it shows, and a later edit marks them as deleted by the
ids in that record. Whether an edit can reach the attachment of somebody else is a
property of whole runs. It holds of runs in which every edit names attachments that the
edited user has uploaded and may use; an edit that could not claim an attachment stores its
id all the same, and the next edit deletes the attachment. A claim does not ask who has
uploaded the attachment and overwrites the answer, so a run carries it along.
-/

namespace Company

open Request Collection

structure ProfileRequest where
  user : User
  target : String := "@me"
  data : DataEditUser

namespace ProfileRequest

def run (describe : DataEditUser → String) (request : ProfileRequest) : Route User :=
  editUser describe request.user request.target request.data

def editedId (request : ProfileRequest) : String :=
  if request.target ≠ "@me" ∧ request.target ≠ request.user.id then request.target
  else request.user.id

end ProfileRequest

section Edit

variable {db db' : MongoDb} {request : ProfileRequest} {describe : DataEditUser → String}
  {uploader : String → Option String}

variable (authenticated : db.users.find request.user.id = some request.user)

include authenticated

theorem editedUser_outcome : Outcome (editedUser request.user request.target) db fun r db' =>
      db' = db ∧ ∀ edited, r = .ok edited → db.users.find request.editedId = some edited := by
  rw [editedUser, ProfileRequest.editedId]
  by_cases another : request.target ≠ "@me" ∧ request.target ≠ request.user.id
  · rw [if_pos another, if_pos another]
    apply Outcome.fetch_bind
    case failed => exact fun _ => ⟨rfl, by simp⟩
    intro target fetched
    apply Outcome.ensure_bind
    case refused => exact fun _ => ⟨rfl, by simp⟩
    intro _
    refine ⟨rfl, ?_⟩
    rintro _ ⟨⟩
    exact orNotFound_eq_ok.mp fetched
  · rw [if_neg another, if_neg another]
    refine ⟨rfl, ?_⟩
    rintro _ ⟨⟩
    exact authenticated

/-- An edit changes nothing, or edits the stored profile. -/
theorem editUser_outcome (usable : db.PayloadUsable uploader request.editedId request.data) :
    Outcome (request.run describe) db fun _ db' => db' = db ∨
      ∃ edited, db.users.find request.editedId = some edited ∧
        db.EditsProfile uploader edited db' := by
  apply Outcome.ensure_bind
  case refused => exact fun _ => .inl rfl
  intro _
  apply Outcome.ensure_bind
  case refused => exact fun _ => .inl rfl
  intro _
  apply Outcome.bind (editedUser_outcome authenticated)
  case failure => exact fun e db' ⟨same, _⟩ => .inl same
  rintro edited _ ⟨rfl, found⟩
  have stored := found edited rfl
  split
  · exact .inl rfl
  · have named := key_of_find stored
    refine .inr ⟨edited, stored, ?_⟩
    apply applyEdit_outcome
    rwa [named]

end Edit

/-- What the rest of the system does between profile edits. It puts no file on a
profile and never claims a claimed attachment again; an upload creates an
unclaimed attachment, under an id that no profile refers to and with the id of
whoever uploads it. -/
structure MongoDb.ChangedElsewhere (uploader : String → Option String) (db db' : MongoDb) :
    Prop where
  profiles : ∀ k user', db'.users.find k = some user' → ∀ id ∈ user'.fileIds,
    ∃ user, db.users.find k = some user ∧ id ∈ user.fileIds
  attachments : ∀ id file', db'.attachments.find id = some file' →
    (∃ file, db.attachments.find id = some file ∧
      (file.usedFor = none ∨ file'.usedFor = file.usedFor)) ∨
    db.attachments.find id = none ∧ file'.usedFor = none ∧ file'.uploaderId = uploader id ∧
      ∀ k user, db.users.find k = some user → id ∉ user.fileIds

/-- One step of the system: a profile edit by an authenticated user, or anything
else. -/
inductive ProfileStep (describe : DataEditUser → String) (uploader : String → Option String)
    (admitted : MongoDb → ProfileRequest → Prop) : MongoDb → MongoDb → Prop
  | edit {db : MongoDb} (request : ProfileRequest)
      (authenticated : db.users.find request.user.id = some request.user)
      (meets : admitted db request) :
      ProfileStep describe uploader admitted db (request.run describe db).2
  | other {db db' : MongoDb} (changed : db.ChangedElsewhere uploader db') :
      ProfileStep describe uploader admitted db db'

/-- The stores that a run of admitted edits reaches from one without users and
attachments. -/
def ReachedByEdits (describe : DataEditUser → String) (uploader : String → Option String)
    (admitted : MongoDb → ProfileRequest → Prop) (db : MongoDb) : Prop :=
  ∃ start : MongoDb, (∀ k, start.users.find k = none) ∧
    (∀ id, start.attachments.find id = none) ∧
    Relation.ReflTransGen (ProfileStep describe uploader admitted) start db

variable (uploader : String → Option String)

/-- The request names only attachments that the edited user has uploaded and may
use. -/
def ProfileRequest.NamesUsable (db : MongoDb) (request : ProfileRequest) : Prop :=
  db.PayloadUsable uploader request.editedId request.data

/-- Every file that a profile refers to belongs to its user. -/
def MongoDb.ProfilesOwned (db : MongoDb) : Prop :=
  ∀ k user, db.users.find k = some user → ∀ id ∈ user.fileIds, db.Owns uploader k id

section Runs

variable {uploader} {db db' : MongoDb} {describe : DataEditUser → String}

theorem MongoDb.EditsProfile.profilesOwned {edited : User}
    (edits : db.EditsProfile uploader edited db') (stored : db.users.find edited.id = some edited)
    (owned : db.ProfilesOwned uploader) : db'.ProfilesOwned uploader := by
  intro k user' found id member
  obtain ⟨payload, refers, payloadOwned⟩ := edits.refers
  obtain ⟨user, before, new⟩ := refers k user' found
  rcases new id member with old | ⟨rfl, written⟩
  · exact edits.claims.owns (owned k user before id old)
  · rcases payloadOwned id written with old | owns
    · exact edits.claims.owns (owned edited.id edited stored id old)
    · exact owns

theorem MongoDb.ChangedElsewhere.profilesOwned (changed : db.ChangedElsewhere uploader db')
    (owned : db.ProfilesOwned uploader) : db'.ProfilesOwned uploader := by
  intro k user' found id member file' found'
  obtain ⟨user, before, old⟩ := changed.profiles k user' found id member
  rcases changed.attachments id file' found' with ⟨file, stored, kept⟩ | ⟨_, _, _, fresh⟩
  · have claimed := owned k user before id old file stored
    rcases kept with unclaimed | sameUse
    · exact absurd unclaimed claimed.1.claimed
    · rw [File.ClaimedFor, File.UsedByProfile, key_of_find stored] at claimed
      rwa [File.ClaimedFor, File.UsedByProfile, key_of_find found', sameUse]
  · exact absurd old (fresh k user before)

theorem ProfileStep.profilesOwned
    (step : ProfileStep describe uploader (ProfileRequest.NamesUsable uploader) db db')
    (owned : db.ProfilesOwned uploader) : db'.ProfilesOwned uploader := by
  cases step with
  | edit request authenticated usable =>
    rcases editUser_outcome authenticated usable with same | ⟨edited, stored, edits⟩
    · rwa [same]
    · rw [← key_of_find stored] at stored
      exact edits.profilesOwned stored owned
  | other changed => exact changed.profilesOwned owned

theorem ReachedByEdits.profilesOwned
    (reached : ReachedByEdits describe uploader (ProfileRequest.NamesUsable uploader) db) :
    db.ProfilesOwned uploader := by
  obtain ⟨start, empty, _, run⟩ := reached
  induction run with
  | refl =>
    intro k user found
    rw [empty k] at found
    cases found
  | tail _ step ih => exact step.profilesOwned ih

/-- After any run of edits that name usable attachments, such an edit keeps
every attachment, and marks one as deleted only if the edited user has uploaded
it and it was claimed for their profile. -/
theorem profileEdit_deletes_own_files
    (reached : ReachedByEdits describe uploader (ProfileRequest.NamesUsable uploader) db)
    (request : ProfileRequest) (authenticated : db.users.find request.user.id = some request.user)
    (usable : request.NamesUsable uploader db) {id : String} {file : File}
    (found : db.attachments.find id = some file) :
    ∃ file', (request.run describe db).2.attachments.find id = some file' ∧
      (file'.deleted = file.deleted ∨ file.ClaimedFor uploader request.editedId) := by
  rcases editUser_outcome authenticated usable with same | ⟨edited, stored, edits⟩
  · exact ⟨file, by rw [same, found], .inl rfl⟩
  · have present := edits.claims.kept id (by rw [found]; rfl)
    obtain ⟨file', found'⟩ := Option.isSome_iff_exists.mp present
    obtain ⟨before, foundBefore, _, deleted⟩ := edits.claims.present id file' found'
    rw [found] at foundBefore
    cases foundBefore
    refine ⟨file', found', deleted.imp_right ?_⟩
    intro listed
    exact reached.profilesOwned request.editedId edited stored id listed file found

end Runs

/-! One user shows a photo that they have uploaded; another user puts its id into an edit of
their own. -/

def emptyStore : MongoDb where
  users := .empty
  servers := .empty
  channels := .empty
  serverMembers := .empty
  attachments := .empty
  rolesKeyed := by decide

def photographer : User where
  id := "photographer"

def stranger : User where
  id := "stranger"

def photo : File where
  id := "photo"
  tag := "avatars"
  filename := "photo.png"
  uploaderId := some "photographer"
  contentType := "image/png"

def uploadedStore : MongoDb :=
  { emptyStore with
    users := .ofDocuments [photographer, stranger]
    attachments := .ofDocuments [photo] }

def setAvatar (user : User) (id : String) : ProfileRequest where
  user := user
  data := { avatar := some id }

def removeAvatar (user : User) : ProfileRequest where
  user := user
  data := { remove := [.avatar] }

def shownStore : MongoDb := ((setAvatar photographer "photo").run (fun _ => "") uploadedStore).2

def photographerShown : User := { photographer with avatar := some photo }

def strangerShown : User :=
  { stranger with avatar := some (File.constructed "avatars" "photo" "stranger") }

def borrowedStore : MongoDb := ((setAvatar stranger "photo").run (fun _ => "") shownStore).2

def claimedPhoto : File :=
  { photo with usedFor := some { objectType := .userAvatar, id := "photographer" } }

def photoUploader (_ : String) : Option String := some "photographer"

theorem emptyStore_changed : emptyStore.ChangedElsewhere photoUploader uploadedStore where
  profiles k user' found id member := by
    have stored : user' ∈ uploadedStore.users.documents :=
      mem_documents.mpr (by rwa [key_of_find found])
    have none : ∀ user ∈ uploadedStore.users.documents, user.fileIds = [] := by decide
    rw [none user' stored] at member
    cases member
  attachments id file' found := by
    have stored : file' ∈ uploadedStore.attachments.documents :=
      mem_documents.mpr (by rwa [key_of_find found])
    have unclaimed : ∀ file ∈ uploadedStore.attachments.documents,
        file.usedFor = none ∧ file.uploaderId = some "photographer" := by decide
    obtain ⟨unused, uploaded⟩ := unclaimed file' stored
    refine .inr ⟨rfl, unused, uploaded, ?_⟩
    rintro k user ⟨⟩

/-- Whatever is admitted, the photo can be uploaded and shown. -/
theorem shownStore_reached {admitted : MongoDb → ProfileRequest → Prop}
    (meets : admitted uploadedStore (setAvatar photographer "photo")) :
    ReachedByEdits (fun _ => "") photoUploader admitted shownStore := by
  refine ⟨emptyStore, fun k => rfl, fun id => rfl, ?_⟩
  refine .tail (.tail .refl (.other emptyStore_changed)) ?_
  exact .edit (setAvatar photographer "photo") rfl meets

theorem profileEdit_deletes_own_files_sample :
    ∃ file', ((removeAvatar photographerShown).run (fun _ => "") shownStore).2.attachments.find
      "photo" = some file' ∧
      (file'.deleted = claimedPhoto.deleted ∨
        claimedPhoto.ClaimedFor photoUploader "photographer") := by
  refine profileEdit_deletes_own_files (shownStore_reached ⟨?_, ?_⟩)
    (removeAvatar photographerShown) rfl ⟨?_, ?_⟩ rfl
  · rintro _ ⟨⟩ file found
    cases found.symm.trans (rfl : uploadedStore.attachments.find "photo" = some photo)
    exact ⟨rfl, .inl ⟨rfl, rfl⟩⟩
  · rintro _ ⟨⟩
  · rintro _ ⟨⟩
  · rintro _ ⟨⟩

/-- Without a condition on the payload, an edit reaches the photo of another
user: a stranger names it as their avatar and removes the avatar again. -/
theorem stranger_deletes_photo :
    ¬ ∀ uploader db, ReachedByEdits (fun _ => "") uploader (fun _ _ => True) db →
      ∀ request : ProfileRequest, db.users.find request.user.id = some request.user → ∀ id file,
      db.attachments.find id = some file →
      ∃ file', (request.run (fun _ => "") db).2.attachments.find id = some file' ∧
        (file'.deleted = file.deleted ∨ file.ClaimedFor uploader request.editedId) := by
  intro safe
  have reached : ReachedByEdits (fun _ => "") photoUploader (fun _ _ => True) borrowedStore := by
    obtain ⟨start, noUsers, noFiles, run⟩ := @shownStore_reached (fun _ _ => True) trivial
    exact ⟨start, noUsers, noFiles, .tail run (.edit (setAvatar stranger "photo") rfl trivial)⟩
  obtain ⟨file', found, kept | ⟨_, claimed⟩⟩ :=
    safe photoUploader borrowedStore reached (removeAvatar strangerShown) rfl "photo" claimedPhoto
      rfl
  · have deleted : file' = { claimedPhoto with deleted := some true } :=
      Option.some.inj (found.symm.trans rfl)
    rw [deleted] at kept
    cases kept
  · exact absurd claimed (by decide)

end Company
