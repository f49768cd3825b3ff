import CompanyBackend.Files.Deletion
import CompanyBackend.Library.Interleaving

/-!
# Files under concurrency

Claims, uploads and the two tasks of the daemon read and write the store in single operations
that are interleaved in any way. A task works through a list that it has read before, and an
upload relies on a record that it has read before.

While the deletion task is on its way, a file that it removes is not quite there: the object goes
first, then the record, then the row. `Sound` says which file that may be. Everything but an
upload keeps it, and a row that is not marked for deletion is then as good as at rest.
-/

namespace Company

open Request Collection List

inductive Pruning where
  | fetching
  | filtering (files : List File)
  | marking (ids : List String)

/-- Progress of `file_deletion`: the rest of the list, and how far its first
file has come. -/
inductive FileDeletion where
  | fetching
  | counting (files : List File)
  | looking (hash : String) (file : File) (rest : List File)
  | destroying (record : FileHash) (file : File) (rest : List File)
  | forgetting (record : FileHash) (file : File) (rest : List File)
  | removing (file : File) (rest : List File)
  | stopped (failure : Failure)

/-- The store, and the daemon that works on it. -/
structure FileWorld where
  store : FileStore
  pruning : Pruning
  deletion : FileDeletion

def Pruning.next (store : FileStore) : Pruning → Pruning × FileStore
  | .fetching => (.filtering store.fetchDanglingFiles, store)
  | .filtering files =>
    let ids := (files.filter (File.expired store.now)).map File.id
    (if ids.isEmpty then .fetching else .marking ids, store)
  | .marking ids => (.fetching, store.markAttachmentsAsDeleted ids)

def FileDeletion.next (store : FileStore) : FileDeletion → FileDeletion × FileStore
  | .fetching => (.counting store.fetchDeletedAttachments, store)
  | .counting [] => (.fetching, store)
  | .counting (file :: rest) =>
    match file.hash with
    | none => (.stopped (.panic "no `hash` present"), store)
    | some hash =>
      (if store.countFileHashReferences hash ≤ 1 then .looking hash file rest
        else .removing file rest, store)
  | .looking hash file rest =>
    match store.fetchAttachmentHash hash with
    | .ok record => (.destroying record file rest, store)
    | .error e => (.stopped (.error e), store)
  | .destroying record file rest =>
    (.forgetting record file rest, store.deleteObject record.location)
  | .forgetting record file rest => (.removing file rest, store.deleteAttachmentHash record.id)
  | .removing file rest => (.counting rest, store.deleteAttachment file.id)
  | .stopped failure => (.stopped failure, store)

namespace FileDeletion

def running : FileDeletion → Bool
  | .stopped _ => false
  | _ => true

def files : FileDeletion → List File
  | .fetching | .stopped _ => []
  | .counting files => files
  | .looking _ file rest | .destroying _ file rest | .forgetting _ file rest
  | .removing file rest => file :: rest

def destroys : FileDeletion → Option String
  | .looking hash _ _ => some hash
  | .destroying record _ _ | .forgetting record _ _ => some record.id
  | _ => none

/-- The row whose record may be gone. -/
def removes : FileDeletion → Option String
  | .removing file _ => some file.id
  | _ => none

def target : FileDeletion → Option FileHash
  | .destroying record _ _ => some record
  | _ => none

end FileDeletion

namespace FileWorld

def prune (world : FileWorld) : FileWorld :=
  if world.deletion.running then
    { world with
      pruning := (world.pruning.next world.store).1
      store := (world.pruning.next world.store).2 }
  else world

def delete (world : FileWorld) : FileWorld :=
  { world with
    deletion := (world.deletion.next world.store).1
    store := (world.deletion.next world.store).2 }

end FileWorld

structure FileClaim where
  id : String
  tag : String
  usedFor : FileUsedFor
  uploaderId : String

/-- How far an upload has come, with the record that it relies on. -/
inductive UploadProgress where
  | fetching
  | creating (record : FileHash)
  | putting (record : FileHash)
  | committing (record : FileHash)
  | inserting (record : FileHash)
  | finished (result : Result Unit)

namespace Upload

variable (upload : Upload)

/-- Processing the bytes touches no store. -/
def process (go : FileHash → UploadProgress) : UploadProgress :=
  match upload.processed with
  | .ok record => go record
  | .error e => .finished (.error e)

def afterFetch : Option FileHash → UploadProgress
  | some record => if record.iv != "" then .inserting record else upload.process .putting
  | none => upload.process .creating

def next (store : FileStore) : UploadProgress → UploadProgress × FileStore
  | .fetching => (upload.afterFetch (store.fetchAttachmentHash upload.hash).toOption, store)
  | .creating record =>
    match store.insertAttachmentHash record with
    | .ok store' => (.putting record, store')
    | .error e => (.finished (.error e), store)
  | .putting record =>
    (.committing record, store.putObject (record.bucketId, record.id) upload.nonce)
  | .committing record => (.inserting record, store.setAttachmentHashNonce record.id upload.nonce)
  | .inserting record =>
    match upload.insertFile record store with
    | .ok store' => (.finished (.ok ()), store')
    | .error e => (.finished (.error e), store)
  | .finished result => (.finished result, store)

end Upload

/-- What is going on: claims, uploads, releases and reports by the API, the
tasks, and time. -/
inductive FileCall where
  | claiming (claim : FileClaim)
  | found (claim : FileClaim) (file : File)
  | claimed (result : Result File)
  | uploading (upload : Upload) (progress : UploadProgress)
  | releasing (filter : File → Bool)
  | reporting (id : String)
  | ended
  | pruner
  | deleter
  | clock

namespace FileCall

def next : FileCall → FileWorld → FileCall × FileWorld
  | .claiming claim, world =>
    (match world.store.findUnusedAttachment claim.id claim.tag with
      | some file => .found claim file
      | none => .claimed (.error .notFound), world)
  | .found claim file, world =>
    (.claimed (.ok file),
      { world with store := world.store.useAttachment claim.id claim.usedFor claim.uploaderId })
  | .claimed result, world => (.claimed result, world)
  | .uploading upload progress, world =>
    (.uploading upload (upload.next world.store progress).1,
      { world with store := (upload.next world.store progress).2 })
  | .releasing filter, world =>
    (.ended, { world with store := world.store.deleteManyAttachments filter })
  | .reporting id, world =>
    (.ended, { world with store := world.store.markAttachmentAsReported id })
  | .ended, world => (.ended, world)
  | .pruner, world => (.pruner, world.prune)
  | .deleter, world => (.deleter, world.delete)
  | .clock, world =>
    (.clock, { world with store := { world.store with now := world.store.now + 1 } })

def isUpload : FileCall → Bool
  | .uploading _ _ => true
  | _ => false

def begun : FileCall → Bool
  | .found _ _ => false
  | .uploading _ .fetching => true
  | .uploading _ _ => false
  | _ => true

end FileCall

abbrev FilePool (ι : Type) := Pool ι FileCall FileWorld

/-! ## Files at rest -/

namespace FileStore

def Recorded (store : FileStore) (hash : String) : Prop :=
  ∃ record, store.hashes.find hash = some record ∧ record.iv ≠ ""

/-- The record of a hash has the nonce that its object was encrypted with. -/
def Intact (store : FileStore) (hash : String) : Prop :=
  ∃ record, store.hashes.find hash = some record ∧ record.iv ≠ "" ∧
    store.objects.lookup record.location = some record.iv

/-- Every row that has a hash can be served, and the object of a record is
stored under its hash. -/
structure Consistent (store : FileStore) : Prop where
  recorded : ∀ id row hash, store.row id = some row → row.hash = some hash → store.Recorded hash
  stored : ∀ hash record, store.hashes.find hash = some record → record.iv ≠ "" →
    store.objects.lookup record.location = some record.iv
  placed : ∀ hash record, store.hashes.find hash = some record → record.path = hash

/-- Whether files are at rest is found out by looking at all documents. -/
theorem consistent_of_documents {store : FileStore}
    (rows : ∀ row ∈ store.db.attachments.documents, ∀ hash ∈ row.hash,
      ((store.hashes.find hash).any fun record => record.iv != ""))
    (records : ∀ record ∈ store.hashes.documents, record.path = record.id ∧
      (record.iv ≠ "" → store.objects.lookup record.location = some record.iv)) :
    store.Consistent where
  recorded := by
    intro id row hash found refers
    obtain rfl := row_id found
    have any := rows row (mem_attachments.mpr found) hash refers
    cases recorded : store.hashes.find hash with
    | none =>
      rw [recorded] at any
      cases any
    | some record =>
      rw [recorded] at any
      exact ⟨record, recorded, by simpa using any⟩
  stored := by
    intro hash record found
    obtain rfl := key_of_find found
    exact (records record (mem_documents.mpr found)).2
  placed := by
    intro hash record found
    obtain rfl := key_of_find found
    exact (records record (mem_documents.mpr found)).1

end FileStore

open FileStore

/-- Nothing has begun yet on files that are at rest. -/
structure FilePool.Begun {ι : Type} (pool : FilePool ι) : Prop where
  consistent : pool.store.store.Consistent
  pruning : pool.store.pruning = .fetching
  deletion : pool.store.deletion = .fetching
  calls : ∀ i, (pool.calls i).begun

/-- Only the file that is being removed may be incomplete, it is marked, and it
is the last one of its hash if the object goes with it. -/
structure FileStore.Sound (store : FileStore) (deletion : FileDeletion) : Prop where
  recorded : ∀ id row hash, store.row id = some row → row.hash = some hash →
    store.Recorded hash ∨ deletion.removes = some id
  stored : ∀ hash record, store.hashes.find hash = some record → record.iv ≠ "" →
    store.objects.lookup record.location = some record.iv ∨ deletion.destroys = some hash
  placed : ∀ hash record, store.hashes.find hash = some record → record.path = hash
  listed : ∀ file ∈ deletion.files, ∃ row, store.row file.id = some row ∧
    row.hash = file.hash ∧ row.deleted = some true
  nodup : (deletion.files.map File.id).Nodup
  last : ∀ hash, deletion.destroys = some hash → ∃ file, deletion.files.head? = some file ∧
    file.hash = some hash ∧
    ∀ id row, store.row id = some row → row.hash = some hash → id = file.id
  aimed : ∀ record, deletion.target = some record → record.path = record.id

namespace FileStore

variable {store store' : FileStore} {deletion : FileDeletion} {id hash : String} {row file : File}
variable {rest : List File} {record : FileHash}

theorem Consistent.sound (consistent : store.Consistent) : store.Sound .fetching where
  recorded id row hash found refers := .inl (consistent.recorded id row hash found refers)
  stored hash record found nonce := .inl (consistent.stored hash record found nonce)
  placed := consistent.placed
  listed _ member := nomatch member
  nodup := .nil
  last _ going := nomatch going
  aimed _ going := nomatch going

section

variable (sound : store.Sound deletion)

include sound

/-- Nothing is known about the daemon as long as it does nothing. -/
theorem Sound.idle (kept : deletion.removes = none)
    (stored : deletion.destroys = none) {idle : FileDeletion} (files : idle.files = [])
    (destroys : idle.destroys = none) (target : idle.target = none) : store.Sound idle where
  recorded := by
    intro id row hash found refers
    obtain recorded | going := sound.recorded id row hash found refers
    · exact .inl recorded
    · rw [kept] at going
      cases going
  stored := by
    intro hash record found nonce
    obtain object | going := sound.stored hash record found nonce
    · exact .inl object
    · rw [stored] at going
      cases going
  placed := sound.placed
  listed := by
    rw [files]
    intro _ member
    cases member
  nodup := by
    rw [files]
    exact .nil
  last := by
    rw [destroys]
    intro _ going
    cases going
  aimed := by
    rw [target]
    intro _ going
    cases going

section

variable (found : store.row id = some row) (unmarked : row.deleted ≠ some true)

include found unmarked

theorem Sound.not_listed : ∀ file ∈ deletion.files, file.id ≠ id := by
  rintro file member rfl
  obtain ⟨row', found', _, marked⟩ := sound.listed file member
  rw [found] at found'
  cases found'
  exact unmarked marked

/-- A row that is not marked can be served. -/
theorem Sound.intact (refers : row.hash = some hash) : store.Intact hash := by
  have free := sound.not_listed found unmarked
  obtain ⟨record, recorded, nonce⟩ | going := sound.recorded id row hash found refers
  · obtain object | going := sound.stored hash record recorded nonce
    · exact ⟨record, recorded, nonce, object⟩
    · obtain ⟨file, first, _, only⟩ := sound.last hash going
      exact absurd (only id row found refers).symm (free file (mem_of_head? first))
  · cases deletion with
    | removing file rest =>
      exact absurd (Option.some.inj going) (free file mem_cons_self)
    | _ => cases going

end

/-- Changes of rows that neither add nor remove any do not disturb the deletion
task. -/
theorem Sound.amends (amends : store.Amends store') : store'.Sound deletion := by
  have before : ∀ id row hash, store'.row id = some row → row.hash = some hash →
      ∃ row', store.row id = some row' ∧ row'.hash = some hash := by
    intro id row hash found refers
    obtain ⟨edit, edited, amendment⟩ := amends.rows id
    rw [edited, Option.map_eq_some_iff] at found
    obtain ⟨row', found', rfl⟩ := found
    exact ⟨row', found', by rw [← amendment.hash, refers]⟩
  constructor
  case recorded =>
    intro id row hash found refers
    obtain ⟨row', found', refers'⟩ := before id row hash found refers
    rw [Recorded, amends.hashes]
    exact sound.recorded id row' hash found' refers'
  case stored =>
    rw [amends.hashes, amends.objects]
    exact sound.stored
  case placed =>
    rw [amends.hashes]
    exact sound.placed
  case listed =>
    intro file member
    obtain ⟨row, found, sameHash, marked⟩ := sound.listed file member
    obtain ⟨edit, edited, amendment⟩ := amends.rows file.id
    refine ⟨edit row, ?_, ?_, amendment.marked row marked⟩
    · rw [edited, found, Option.map_some]
    · rw [amendment.hash, sameHash]
  case nodup => exact sound.nodup
  case last =>
    intro hash going
    obtain ⟨file, first, own, only⟩ := sound.last hash going
    refine ⟨file, first, own, ?_⟩
    intro id row found refers
    obtain ⟨row', found', refers'⟩ := before id row hash found refers
    exact only id row' found' refers'
  case aimed => exact sound.aimed

end

theorem Sound.fetch (sound : store.Sound .fetching) :
    store.Sound (.counting store.fetchDeletedAttachments) where
  recorded := sound.recorded
  stored := sound.stored
  placed := sound.placed
  listed := by
    intro file member
    obtain ⟨found, marked, _⟩ := mem_fetchDeletedAttachments.mp member
    exact ⟨file, found, rfl, marked⟩
  nodup := (nodup_keys store.db.attachments).sublist (filter_sublist.map File.id)
  last _ going := nomatch going
  aimed := sound.aimed

/-- A file that others share is only removed. -/
theorem Sound.share (sound : store.Sound (.counting (file :: rest))) :
    store.Sound (.removing file rest) where
  recorded id row hash found refers :=
    .inl ((sound.recorded id row hash found refers).resolve_right nofun)
  stored := sound.stored
  placed := sound.placed
  listed := sound.listed
  nodup := sound.nodup
  last := sound.last
  aimed := sound.aimed

theorem Sound.look (sound : store.Sound (.counting (file :: rest))) (refers : file.hash = some hash)
    (few : store.countFileHashReferences hash ≤ 1) : store.Sound (.looking hash file rest) where
  recorded := sound.recorded
  stored hash record found nonce :=
    .inl ((sound.stored hash record found nonce).resolve_right nofun)
  placed := sound.placed
  listed := sound.listed
  nodup := sound.nodup
  last := by
    rintro _ ⟨⟩
    obtain ⟨row, found, sameHash, _⟩ := sound.listed file mem_cons_self
    refine ⟨file, rfl, refers, ?_⟩
    intro id row' found' refers'
    have same := eq_of_countFileHashReferences few (row_id found ▸ found)
      (sameHash.trans refers) (row_id found' ▸ found') refers'
    rw [← row_id found', same, row_id found]
  aimed := sound.aimed

/-- The hash that is destroyed has its record until the end. -/
theorem Sound.recorded_of_destroys (sound : store.Sound deletion)
    (going : deletion.destroys = some hash) : store.Recorded hash := by
  obtain ⟨file, first, refers, _⟩ := sound.last hash going
  obtain ⟨row, found, sameHash, _⟩ := sound.listed file (mem_of_head? first)
  refine (sound.recorded file.id row hash found (sameHash.trans refers)).resolve_right ?_
  intro removes
  cases deletion with
  | removing => cases going
  | _ => cases removes

theorem Sound.aim (sound : store.Sound (.looking hash file rest)) :
    ∃ record, store.fetchAttachmentHash hash = .ok record ∧
      store.Sound (.destroying record file rest) := by
  obtain ⟨record, found, _⟩ := sound.recorded_of_destroys rfl
  obtain rfl := key_of_find found
  refine ⟨record, fetchAttachmentHash_eq found, ?_⟩
  constructor
  case recorded => exact sound.recorded
  case stored => exact sound.stored
  case placed => exact sound.placed
  case listed => exact sound.listed
  case nodup => exact sound.nodup
  case last => exact sound.last
  case aimed =>
    rintro _ ⟨⟩
    exact sound.placed record.id record found

theorem Sound.destroy (sound : store.Sound (.destroying record file rest)) :
    (store.deleteObject record.location).Sound (.forgetting record file rest) where
  recorded := sound.recorded
  stored := by
    intro hash record' found nonce
    obtain object | going := sound.stored hash record' found nonce
    · by_cases same : hash = record.id
      · exact .inr (congrArg some same.symm)
      · left
        have apart : record'.location ≠ record.location := by
          intro same'
          have samePath : record'.path = record.path := congrArg Prod.snd same'
          rw [sound.placed hash record' found, sound.aimed record rfl] at samePath
          exact same samePath
        rw [← object]
        exact AList.lookup_erase_ne apart
    · exact .inr going
  placed := sound.placed
  listed := sound.listed
  nodup := sound.nodup
  last := sound.last
  aimed _ going := nomatch going

theorem Sound.forget (sound : store.Sound (.forgetting record file rest)) :
    (store.deleteAttachmentHash record.id).Sound (.removing file rest) := by
  have found_of : ∀ hash record',
      (store.deleteAttachmentHash record.id).hashes.find hash = some record' →
      hash ≠ record.id ∧ store.hashes.find hash = some record' := by
    intro hash record' found
    by_cases same : hash = record.id
    · subst same
      rw [find_deleteAttachmentHash] at found
      cases found
    · rw [find_deleteAttachmentHash_ne same] at found
      exact ⟨same, found⟩
  constructor
  case recorded =>
    intro id row hash found refers
    by_cases same : hash = record.id
    · obtain ⟨_, ⟨⟩, _, only⟩ := sound.last hash (congrArg some same.symm)
      exact .inr (congrArg some (only id row found refers).symm)
    · left
      obtain ⟨record', recorded, nonce⟩ :=
        (sound.recorded id row hash found refers).resolve_right nofun
      exact ⟨record', (find_deleteAttachmentHash_ne same).trans recorded, nonce⟩
  case stored =>
    intro hash record' found nonce
    obtain ⟨ne, found⟩ := found_of hash record' found
    left
    refine (sound.stored hash record' found nonce).resolve_right ?_
    intro going
    exact ne (Option.some.inj going).symm
  case placed =>
    intro hash record' found
    exact sound.placed hash record' (found_of hash record' found).2
  case listed => exact sound.listed
  case nodup => exact sound.nodup
  case last =>
    intro hash going
    cases going
  case aimed => exact sound.aimed

theorem Sound.remove (sound : store.Sound (.removing file rest)) :
    (store.deleteAttachment file.id).Sound (.counting rest) := by
  have row_of : ∀ id row, (store.deleteAttachment file.id).row id = some row →
      id ≠ file.id ∧ store.row id = some row := by
    intro id row found
    by_cases same : id = file.id
    · subst same
      rw [row_deleteAttachment] at found
      cases found
    · rw [row_deleteAttachment_ne same] at found
      exact ⟨same, found⟩
  obtain ⟨fresh, nodup⟩ := nodup_cons.mp sound.nodup
  constructor
  case recorded =>
    intro id row hash found refers
    obtain ⟨ne, found⟩ := row_of id row found
    left
    refine (sound.recorded id row hash found refers).resolve_right ?_
    intro going
    exact ne (Option.some.inj going).symm
  case stored => exact sound.stored
  case placed => exact sound.placed
  case listed =>
    intro later member
    have ne : later.id ≠ file.id := by
      intro same
      exact fresh (same ▸ mem_map_of_mem member)
    rw [row_deleteAttachment_ne ne]
    exact sound.listed later (mem_cons_of_mem _ member)
  case nodup => exact nodup
  case last =>
    intro hash going
    cases going
  case aimed => exact sound.aimed

theorem Sound.next (sound : store.Sound deletion) :
    (deletion.next store).2.Sound (deletion.next store).1 := by
  cases deletion with
  | fetching => exact sound.fetch
  | counting files =>
    cases files with
    | nil => exact sound.idle rfl rfl rfl rfl rfl
    | cons file rest =>
      cases refers : file.hash with
      | none =>
        rw [FileDeletion.next, refers]
        exact sound.idle rfl rfl rfl rfl rfl
      | some hash =>
        rw [FileDeletion.next, refers]
        by_cases few : store.countFileHashReferences hash ≤ 1
        · simpa only [few, if_true] using sound.look refers few
        · simpa only [few, if_false] using sound.share
  | looking hash file rest =>
    obtain ⟨record, fetched, sound⟩ := sound.aim
    rw [FileDeletion.next, fetched]
    exact sound
  | destroying record file rest => exact sound.destroy
  | forgetting record file rest => exact sound.forget
  | removing file rest => exact sound.remove
  | stopped failure => exact sound

end FileStore

theorem Pruning.next_amends (pruning : Pruning) (store : FileStore) :
    store.Amends (pruning.next store).2 := by
  cases pruning with
  | fetching | filtering files => exact .refl store
  | marking ids => exact deleteManyAttachments_amends _

variable {call : FileCall}

/-- Apart from uploads and the deletion task, rows are only amended. -/
theorem FileCall.next_amends (world : FileWorld) (noUpload : call.isUpload = false)
    (other : call ≠ .deleter) :
    world.store.Amends (call.next world).2.store ∧
      (call.next world).2.deletion = world.deletion := by
  cases call with
  | uploading upload progress => cases noUpload
  | deleter => exact absurd rfl other
  | found claim file => exact ⟨useAttachment_amends _ _, rfl⟩
  | releasing filter => exact ⟨deleteManyAttachments_amends filter, rfl⟩
  | reporting id => exact ⟨markAttachmentAsReported_amends, rfl⟩
  | pruner =>
    rw [FileCall.next, FileWorld.prune]
    split
    · exact ⟨world.pruning.next_amends world.store, rfl⟩
    · exact ⟨.refl world.store, rfl⟩
  | clock => exact ⟨⟨(FileStore.Amends.refl world.store).rows, rfl, rfl⟩, rfl⟩
  | claiming | claimed | ended => exact ⟨.refl world.store, rfl⟩

/-- Everything but an upload keeps the files sound. -/
theorem FileCall.next_sound {world : FileWorld}
    (noUpload : call.isUpload = false) (sound : world.store.Sound world.deletion) :
    (call.next world).2.store.Sound (call.next world).2.deletion := by
  by_cases deleter : call = .deleter
  · subst deleter
    exact sound.next
  · obtain ⟨amends, same⟩ := FileCall.next_amends world noUpload deleter
    rw [same]
    exact sound.amends amends

theorem FileCall.isUpload_next (world : FileWorld)
    (noUpload : call.isUpload = false) : (call.next world).1.isUpload = false := by
  cases call with
  | uploading upload progress => cases noUpload
  | claiming claim =>
    rw [FileCall.next]
    split <;> rfl
  | _ => rfl

/-- The files are sound, whatever the daemon is doing. -/
def FilePool.Sound {ι : Type} (pool : FilePool ι) : Prop :=
  pool.store.store.Sound pool.store.deletion

theorem FilePool.Begun.sound {ι : Type} {pool : FilePool ι} (begun : pool.Begun) : pool.Sound := by
  rw [FilePool.Sound, begun.deletion]
  exact begun.consistent.sound

end Company
