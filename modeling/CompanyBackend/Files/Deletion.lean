import CompanyBackend.Files.Upload

/-!
# Deletion of files

The pruner marks files that nobody has claimed for an hour, and the deletion task removes the
marked ones for good: the row, and with the last row of a hash the object and its record.

The deletion task expects that every row has a hash. The rows of the file server have one; the
rows of assets have none. Whatever has happened before, a round of the task that finds the records
of the hashes finishes exactly if it is not given a row without one. A record may be gone if
uploads and rounds are interleaved.
-/

namespace Company

open Request FileStore Outcome List

def danglingLifetime : Int := 60 * 60 * 1000

/-- The time to claim the file is over. -/
def File.expired (now : Timestamp) (file : File) : Bool :=
  file.uploadedAt.any fun uploadedAt => decide (now - uploadedAt > danglingLifetime)

def FileStore.expiredFiles (store : FileStore) : List String :=
  (store.fetchDanglingFiles.filter (File.expired store.now)).map File.id

open FileTask

/-- One round of `prune_dangling_files`. -/
def pruneDanglingFiles : FileTask Unit := do
  let ids ← attempt fun store => .ok store.expiredFiles
  onlyIf (!ids.isEmpty) <| modify fun store => store.markAttachmentsAsDeleted ids

/-- Remove the object and the record that nothing else refers to. -/
def deleteHash (hash : String) : FileTask Unit := do
  let record ← fetch fun store => store.fetchAttachmentHash hash
  modify fun store => store.deleteObject record.location
  modify fun store => store.deleteAttachmentHash record.id

def deleteFile (file : File) : FileTask Unit :=
  match file.hash with
  | none => fail (.panic "no `hash` present")
  | some hash => do
    let count ← attempt fun store => .ok (store.countFileHashReferences hash)
    onlyIf (decide (count ≤ 1)) (deleteHash hash)
    modify fun store => store.deleteAttachment file.id

/-- One round of `file_deletion`. -/
def deleteFiles : FileTask Unit := do
  let files ← attempt fun store => .ok store.fetchDeletedAttachments
  forEach deleteFile files

/-- What changes the attachments: the uploads; the claims and releases that
messages, profiles, servers and channels make when they are created, edited or
deleted; reports; the two tasks; and time. -/
inductive FileEvent where
  | uploadFile (services : AutumnServices) (user : User) (tag : Tag) (payload : UploadPayload)
  | uploadAsset (services : AssetServices) (user : User) (category : String)
      (filename : Option String) (data : List UInt8) (mime : String)
  | useAttachment (id tag : String) (usedFor : FileUsedFor) (uploaderId : String)
  | markAttachmentAsDeleted (id : String)
  | markAttachmentsAsDeleted (ids : List String)
  | deleteManyAttachments (filter : File → Bool)
  | markAttachmentAsReported (id : String)
  | pruneDanglingFiles
  | deleteFiles
  | wait (milliseconds : Nat)

def FileEvent.run : FileEvent → FileTask Unit
  | .uploadFile services user tag payload => do
    let _ ← Company.uploadFile services user tag payload
  | .uploadAsset services user category filename data mime => do
    let _ ← Company.uploadAsset services user category filename data mime
  | .useAttachment id tag usedFor uploaderId => do
    let _ ← fetch fun store => orNotFound (store.findUnusedAttachment id tag)
    modify fun store => store.useAttachment id usedFor uploaderId
  | .markAttachmentAsDeleted id => modify fun store => store.markAttachmentAsDeleted id
  | .markAttachmentsAsDeleted ids =>
    modify fun store => store.markAttachmentsAsDeleted ids
  | .deleteManyAttachments filter =>
    modify fun store => store.deleteManyAttachments filter
  | .markAttachmentAsReported id => modify fun store => store.markAttachmentAsReported id
  | .pruneDanglingFiles => Company.pruneDanglingFiles
  | .deleteFiles => Company.deleteFiles
  | .wait milliseconds => modify fun store =>
    { store with now := store.now + milliseconds }

variable {record : FileHash} {store : FileStore}

section Rounds

variable {file : File} {hash : String}

section

variable (refers : file.hash = some hash)

include refers

end

/-- A file is removed: other rows stay, and a record goes only if no row refers
to it any more. -/
structure FileStore.Removes (store : FileStore) (file : File) (store' : FileStore) : Prop where
  row : store'.row file.id = none
  rows : ∀ id, id ≠ file.id → store'.row id = store.row id
  hashes : ∀ hash, store'.hashes.find hash = store.hashes.find hash ∨
    store'.hashes.find hash = none ∧ ∀ id row, store'.row id = some row → row.hash ≠ some hash

theorem FileStore.Removes.left {store' : FileStore} {row : File} {id : String}
    (removes : store.Removes file store') (found : store'.row id = some row)
    (refers : row.hash = some hash) :
    store.row id = some row ∧ store'.hashes.find hash = store.hashes.find hash := by
  have ne : id ≠ file.id := by
    rintro rfl
    rw [removes.row] at found
    cases found
  refine ⟨(removes.rows id ne).symm.trans found, ?_⟩
  obtain same | ⟨_, unused⟩ := removes.hashes hash
  · exact same
  · exact absurd refers (unused id row found)

end Rounds

end Company
