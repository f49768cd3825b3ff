import CompanyBackend.Database.Mongo

/-!
# Files

A file is a row of the attachments. Rows of equal bytes share an object in a bucket, through a
hash record that they refer to by the hash of the bytes. The object is encrypted, and the record
keeps the nonce; it has none until the object has been stored.

Of an object only the nonce that it was encrypted with is kept here. Database and bucket do
what they are told: an insertion fails if its key is taken, and nothing else fails.
-/

namespace Company

open Collection

structure FileHash where
  /-- The hash of the bytes as they were uploaded. -/
  id : String
  /-- The hash of the bytes as they are stored. -/
  processedHash : String
  createdAt : Timestamp
  bucketId : String
  path : String
  /-- The nonce, empty as long as the object is not stored. -/
  iv : String
  metadata : Metadata
  contentType : String
  size : Int64
  deriving DecidableEq, Repr

def FileHash.location (record : FileHash) : String × String := (record.bucketId, record.path)

def FileHash.intoFile (record : FileHash) (now : Timestamp) (id tag filename uploaderId : String) :
    File where
  id := id
  tag := tag
  filename := filename
  hash := some record.id
  uploadedAt := some now
  uploaderId := some uploaderId
  metadata := record.metadata
  contentType := record.contentType
  size := record.size

/-- The documents, the hash records, the buckets with the nonce of each object,
and the clock in milliseconds. -/
structure FileStore where
  db : MongoDb
  hashes : Collection String FileHash FileHash.id
  objects : HashMap (String × String) String
  now : Timestamp

namespace FileStore

def empty : FileStore where
  db := .empty
  hashes := .empty
  objects := ∅
  now := 0

variable (store : FileStore)

variable (id : String)

def row : Option File := store.db.attachments.find id

def insertAttachment (file : File) : Result FileStore :=
  if (store.row file.id).isSome then .error (.databaseError "insert_one" "attachments")
  else
    .ok { store with db := { store.db with attachments := store.db.attachments.insert file } }

def fetchDeletedAttachments : List File :=
  store.db.attachments.documents.filter fun file =>
    file.deleted == some true && file.reported != some true

def fetchDanglingFiles : List File :=
  store.db.attachments.documents.filter fun file =>
    file.usedFor.isNone && file.deleted != some true

def countFileHashReferences (hash : String) : Nat :=
  (store.db.attachments.documents.filter fun file => file.hash == some hash).length

/-- The row that a claim finds. -/
def findUnusedAttachment (id tag : String) : Option File :=
  (store.row id).filter fun file => file.tag == tag && file.usedFor.isNone

def useAttachment (usedFor : FileUsedFor) (uploaderId : String) : FileStore :=
  { store with db := store.db.useAttachment id usedFor uploaderId }

def markAttachmentAsReported : FileStore :=
  { store with
    db := { store.db with
      attachments := store.db.attachments.update id
        (fun file => { file with reported := some true }) fun _ => rfl } }

def markAttachmentAsDeleted : FileStore :=
  { store with db := store.db.markAttachmentAsDeleted id }

def deleteManyAttachments (filter : File → Bool) : FileStore :=
  { store with db := store.db.deleteManyAttachments filter }

def markAttachmentsAsDeleted (ids : List String) : FileStore :=
  store.deleteManyAttachments fun file => ids.contains file.id

def deleteAttachment : FileStore :=
  { store with db := { store.db with attachments := store.db.attachments.erase id } }

def insertAttachmentHash (record : FileHash) : Result FileStore :=
  if (store.hashes.find record.id).isSome then
    .error (.databaseError "insert_one" "attachment_hashes")
  else .ok { store with hashes := store.hashes.insert record }

/-- Look for the record of a hash, and then for one of a file that has been
processed into the bytes with this hash. -/
def fetchAttachmentHash (hash : String) : Result FileHash :=
  orNotFound ((store.hashes.find hash).or
    (store.hashes.documents.find? fun record => record.processedHash == hash))

def setAttachmentHashNonce (hash nonce : String) : FileStore :=
  { store with
    hashes := store.hashes.update hash (fun record => { record with iv := nonce }) fun _ => rfl }

def deleteAttachmentHash : FileStore :=
  { store with hashes := store.hashes.erase id }

def putObject (location : String × String) (nonce : String) : FileStore :=
  { store with objects := store.objects.put location nonce }

def deleteObject (location : String × String) : FileStore :=
  { store with objects := store.objects.erase location }

end FileStore

namespace FileStore

variable {store store' : FileStore} {id other : String} {file : File} {record : FileHash}

theorem row_id (found : store.row id = some file) : file.id = id := key_of_find found

theorem mem_attachments : file ∈ store.db.attachments.documents ↔ store.row file.id = some file :=
  mem_documents

theorem mem_fetchDeletedAttachments :
    file ∈ store.fetchDeletedAttachments ↔
      store.row file.id = some file ∧ file.deleted = some true ∧ file.reported ≠ some true := by
  rw [fetchDeletedAttachments, List.mem_filter, mem_attachments]
  simp

theorem mem_fetchDanglingFiles :
    file ∈ store.fetchDanglingFiles ↔
      store.row file.id = some file ∧ file.usedFor = none ∧ file.deleted ≠ some true := by
  rw [fetchDanglingFiles, List.mem_filter, mem_attachments]
  simp

/-- The row of a hash that is referred to at most once is the only one. -/
theorem eq_of_countFileHashReferences {hash : String} {file' : File}
    (few : store.countFileHashReferences hash ≤ 1) (found : store.row file.id = some file)
    (refers : file.hash = some hash) (found' : store.row file'.id = some file')
    (refers' : file'.hash = some hash) : file' = file := by
  have member : ∀ file, store.row file.id = some file → file.hash = some hash →
      file ∈ store.db.attachments.documents.filter fun file => file.hash == some hash := by
    intro file found refers
    exact List.mem_filter.mpr ⟨mem_attachments.mpr found, by simp [refers]⟩
  have one := member file found refers
  have other := member file' found' refers'
  rw [countFileHashReferences] at few
  generalize store.db.attachments.documents.filter _ = referring at few one other
  match referring with
  | [] => cases one
  | [single] => rw [List.mem_singleton.mp one, List.mem_singleton.mp other]
  | _ :: _ :: _ => simp at few

theorem insertAttachment_eq_ok (inserted : store.insertAttachment file = .ok store') :
    store.row file.id = none ∧ store'.row file.id = some file ∧
      (∀ other, other ≠ file.id → store'.row other = store.row other) ∧
      store'.hashes = store.hashes ∧ store'.objects = store.objects := by
  unfold insertAttachment at inserted
  split at inserted
  · cases inserted
  · next absent =>
    cases inserted
    refine ⟨Option.not_isSome_iff_eq_none.mp absent, find_insert, ?_, rfl, rfl⟩
    intro other ne
    exact find_insert_ne ne

@[simp] theorem row_deleteAttachment : (store.deleteAttachment id).row id = none :=
  find_erase

theorem row_deleteAttachment_ne (ne : other ≠ id) :
    (store.deleteAttachment id).row other = store.row other :=
  find_erase_ne ne

theorem row_deleteManyAttachments (filter : File → Bool) :
    (store.deleteManyAttachments filter).row id = (store.row id).map fun file =>
      if filter file then { file with deleted := some true } else file :=
  store.db.find_deleteManyAttachments filter id

theorem insertAttachmentHash_eq_ok (inserted : store.insertAttachmentHash record = .ok store') :
    store.hashes.find record.id = none ∧ store'.hashes.find record.id = some record ∧
      (∀ other, other ≠ record.id → store'.hashes.find other = store.hashes.find other) ∧
      store'.db = store.db ∧ store'.objects = store.objects := by
  unfold insertAttachmentHash at inserted
  split at inserted
  · cases inserted
  · next absent =>
    cases inserted
    refine ⟨Option.not_isSome_iff_eq_none.mp absent, find_insert, ?_, rfl, rfl⟩
    intro other ne
    exact find_insert_ne ne

theorem find_setAttachmentHashNonce (hash nonce : String) :
    (store.setAttachmentHashNonce hash nonce).hashes.find hash =
      (store.hashes.find hash).map fun record => { record with iv := nonce } := by
  rw [setAttachmentHashNonce, find_update]

theorem find_setAttachmentHashNonce_ne {hash : String} (nonce : String) (ne : other ≠ hash) :
    (store.setAttachmentHashNonce hash nonce).hashes.find other = store.hashes.find other := by
  rw [setAttachmentHashNonce, find_update_ne ne]

@[simp] theorem find_deleteAttachmentHash : (store.deleteAttachmentHash id).hashes.find id = none :=
  find_erase

theorem find_deleteAttachmentHash_ne (ne : other ≠ id) :
    (store.deleteAttachmentHash id).hashes.find other = store.hashes.find other :=
  find_erase_ne ne

/-- The record of a hash comes before records of files that were processed into
it. -/
theorem fetchAttachmentHash_eq (found : store.hashes.find id = some record) :
    store.fetchAttachmentHash id = .ok record := by
  rw [fetchAttachmentHash, found]
  rfl

/-- Whatever record is found is stored under its id. -/
theorem find_of_fetchAttachmentHash (fetched : store.fetchAttachmentHash id = .ok record) :
    store.hashes.find record.id = some record := by
  obtain found | ⟨_, found⟩ := Option.or_eq_some_iff.mp (orNotFound_eq_ok.mp fetched)
  · rwa [key_of_find found]
  · exact mem_documents.mp (List.mem_of_find?_eq_some found)

/-- A row is marked, claimed or reported: it keeps its hash and its message, and
its mark if it has one. -/
structure Amendment (edit : File → File) : Prop where
  hash : ∀ file, (edit file).hash = file.hash
  messageId : ∀ file, (edit file).messageId = file.messageId
  marked : ∀ file, file.deleted = some true → (edit file).deleted = some true

/-- Rows are amended, and neither added nor removed. -/
structure Amends (store store' : FileStore) : Prop where
  rows : ∀ id, ∃ edit : File → File, store'.row id = (store.row id).map edit ∧ Amendment edit
  hashes : store'.hashes = store.hashes
  objects : store'.objects = store.objects

theorem Amendment.refl : Amendment fun file => file where
  hash _ := rfl
  messageId _ := rfl
  marked _ marked := marked

theorem Amends.refl (store : FileStore) : store.Amends store where
  rows _ := ⟨fun file => file, Option.map_id'.symm, .refl⟩
  hashes := rfl
  objects := rfl

theorem amends_update {edit : File → File} {keeps : ∀ file, (edit file).id = file.id}
    (amendment : Amendment edit) :
    store.Amends { store with
      db := { store.db with attachments := store.db.attachments.update id edit keeps } } where
  rows other := by
    by_cases same : other = id
    · subst same
      refine ⟨edit, ?_, amendment⟩
      rw [row, find_update]
      rfl
    · refine ⟨fun file => file, ?_, .refl⟩
      rw [row, find_update_ne same, Option.map_id']
      rfl
  hashes := rfl
  objects := rfl

theorem useAttachment_amends (usedFor : FileUsedFor) (uploaderId : String) :
    store.Amends (store.useAttachment id usedFor uploaderId) :=
  amends_update ⟨fun _ => rfl, fun _ => rfl, fun _ marked => marked⟩

theorem markAttachmentAsReported_amends : store.Amends (store.markAttachmentAsReported id) :=
  amends_update ⟨fun _ => rfl, fun _ => rfl, fun _ marked => marked⟩

theorem deleteManyAttachments_amends (filter : File → Bool) :
    store.Amends (store.deleteManyAttachments filter) where
  rows id := by
    refine ⟨_, row_deleteManyAttachments filter, ?_⟩
    constructor
    case hash =>
      intro file
      split <;> rfl
    case messageId =>
      intro file
      split <;> rfl
    case marked =>
      intro file marked
      split
      · rfl
      · exact marked
  hashes := rfl
  objects := rfl

end FileStore

end Company
