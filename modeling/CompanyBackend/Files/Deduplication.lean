import CompanyBackend.Files.Processes

/-!
# Deduplicated files

Uploads of equal bytes share a record and an object, which several operations of several uploads
and of the deletion task bring about and take away. Three things can go wrong between them. Two
uploads that find a record without a nonce both store an object, and each commits its own nonce. An
upload that finds the record of other bytes without a nonce adds a row for a record that nobody has
created. And an upload may rely on a record that the deletion task is about to destroy, because
neither knows of the other.

If the operations by which they enter upon this are ordered, every row that is not marked refers
to a record that has the nonce of its object, whatever else is interleaved.
-/

namespace Company

open FileStore FileCall FilePool FileDeletion

/-- The hash whose record is there for the upload. -/
def UploadProgress.engaged : UploadProgress → Option String
  | .putting record | .committing record | .inserting record => some record.id
  | _ => none

/-- The hash whose object the upload stores. -/
def UploadProgress.storing : UploadProgress → Option String
  | .putting record | .committing record => some record.id
  | _ => none

namespace FileStore

/-- The record that is to be stored is there, for the same bucket, and has no
nonce yet. -/
def Unstored (store : FileStore) (record : FileHash) : Prop :=
  ∃ stored, store.hashes.find record.id = some stored ∧ stored.iv = "" ∧
    stored.bucketId = record.bucketId

end FileStore

/-- What an upload takes for granted. -/
def Upload.Relies (upload : Upload) (store : FileStore) : UploadProgress → Prop
  | .fetching | .finished _ => True
  | .creating record => upload.processed = .ok record
  | .putting record => store.Unstored record
  | .committing record =>
    store.Unstored record ∧ store.objects.lookup (record.bucketId, record.id) = some upload.nonce
  | .inserting record => store.Recorded record.id

namespace FileCall

def engaged : FileCall → Option String
  | .uploading _ progress => progress.engaged
  | _ => none

def storing : FileCall → Option String
  | .uploading _ progress => progress.storing
  | _ => none

def Relies (store : FileStore) : FileCall → Prop
  | .uploading upload progress => upload.Relies store progress
  | _ => True

end FileCall

/-- An upload does not find a record that is being destroyed, and one without a
nonce only if it has been left behind for the same bytes and the same bucket.
The deletion task does not find a hash unreferenced while an upload relies on
it. -/
structure FilePool.Orderly {ι : Type} (pool : FilePool ι) (i : ι) : Prop where
  upload : ∀ upload record, pool.calls i = .uploading upload .fetching →
    pool.store.store.fetchAttachmentHash upload.hash = .ok record →
    pool.store.deletion.destroys ≠ some record.id ∧
      (record.iv = "" → record.id = upload.hash ∧
        (∀ processed, upload.processed = .ok processed → record.bucketId = processed.bucketId) ∧
        ∀ j, (pool.calls j).storing ≠ some record.id)
  deletion : ∀ file rest hash, pool.calls i = .deleter →
    pool.store.deletion = .counting (file :: rest) → file.hash = some hash →
    pool.store.store.countFileHashReferences hash ≤ 1 → ∀ j, (pool.calls j).engaged ≠ some hash

/-- Uploads find what they rely on, the deletion task destroys nothing of it,
and only one of them stores an object. -/
structure FilePool.Tidy {ι : Type} (pool : FilePool ι) : Prop where
  sound : pool.Sound
  relies : ∀ i, (pool.calls i).Relies pool.store.store
  apart : ∀ i hash, (pool.calls i).engaged = some hash → pool.store.deletion.destroys ≠ some hash
  exclusive : ∀ i j hash, (pool.calls i).storing = some hash → (pool.calls j).storing = some hash →
    i = j

variable {upload : Upload} {record : FileHash}

section Writes

variable {store store' : FileStore} {deletion : FileDeletion}
variable {progress : UploadProgress} {hash nonce : String} {file : File}

variable (sound : store.Sound deletion)

include sound

theorem FileStore.Sound.insertAttachmentHash
    (placed : record.path = record.id) (unstored : record.iv = "")
    (inserted : store.insertAttachmentHash record = .ok store') : store'.Sound deletion := by
  obtain ⟨absent, new, others, db, objects⟩ := insertAttachmentHash_eq_ok inserted
  have rows : ∀ id, store'.row id = store.row id := by
    intro id
    rw [row, db]
    rfl
  constructor
  case recorded =>
    intro id row hash found refers
    rw [rows] at found
    obtain ⟨old, recorded, nonce⟩ | going := sound.recorded id row hash found refers
    · left
      have ne : hash ≠ record.id := by
        rintro rfl
        rw [absent] at recorded
        cases recorded
      exact ⟨old, (others hash ne).trans recorded, nonce⟩
    · exact .inr going
  case stored =>
    intro hash found recorded nonce
    by_cases same : hash = record.id
    · rw [same, new] at recorded
      cases recorded
      exact absurd unstored nonce
    · rw [others hash same] at recorded
      rw [objects]
      exact sound.stored hash found recorded nonce
  case placed =>
    intro hash found recorded
    by_cases same : hash = record.id
    · rw [same, new] at recorded
      cases recorded
      rw [same, placed]
    · rw [others hash same] at recorded
      exact sound.placed hash found recorded
  case listed =>
    intro file member
    rw [rows]
    exact sound.listed file member
  case nodup => exact sound.nodup
  case last =>
    intro hash going
    obtain ⟨file, first, own, only⟩ := sound.last hash going
    refine ⟨file, first, own, ?_⟩
    intro id row found
    rw [rows] at found
    exact only id row found
  case aimed => exact sound.aimed

/-- An object that nothing refers to yet may be overwritten. -/
theorem FileStore.Sound.putObject (unstored : store.Unstored record) :
    (store.putObject (record.bucketId, record.id) nonce).Sound deletion where
  recorded := sound.recorded
  stored := by
    intro hash other (found : store.hashes.find hash = some other) stored
    have ne : other.location ≠ (record.bucketId, record.id) := by
      intro same
      have samePath : other.path = record.id := congrArg Prod.snd same
      rw [sound.placed hash other found] at samePath
      obtain ⟨own, found', empty, _⟩ := unstored
      rw [← samePath, found] at found'
      cases found'
      exact stored empty
    rw [FileStore.putObject, HashMap.lookup_put_ne _ ne]
    exact sound.stored hash other found stored
  placed := sound.placed
  listed := sound.listed
  nodup := sound.nodup
  last := sound.last
  aimed := sound.aimed

/-- The nonce of an object that has been stored is committed. -/
theorem FileStore.Sound.setAttachmentHashNonce (drawn : nonce ≠ "")
    (unstored : store.Unstored record)
    (object : store.objects.lookup (record.bucketId, record.id) = some nonce) :
    (store.setAttachmentHashNonce record.id nonce).Sound deletion := by
  obtain ⟨stored, found, _, bucket⟩ := unstored
  have own : (store.setAttachmentHashNonce record.id nonce).hashes.find record.id =
      some { stored with iv := nonce } := by
    rw [find_setAttachmentHashNonce, found, Option.map_some]
  constructor
  case recorded =>
    intro id row hash found' refers
    obtain ⟨old, recorded, kept⟩ | going := sound.recorded id row hash found' refers
    · left
      by_cases same : hash = record.id
      · rw [same]
        exact ⟨_, own, drawn⟩
      · exact ⟨old, (find_setAttachmentHashNonce_ne nonce same).trans recorded, kept⟩
    · exact .inr going
  case stored =>
    intro hash other found' kept
    by_cases same : hash = record.id
    · left
      rw [same, own] at found'
      cases found'
      have location : stored.location = (record.bucketId, record.id) :=
        Prod.ext bucket (sound.placed record.id stored found)
      exact (congrArg store.objects.lookup location).trans object
    · rw [find_setAttachmentHashNonce_ne nonce same] at found'
      exact sound.stored hash other found' kept
  case placed =>
    intro hash other found'
    by_cases same : hash = record.id
    · rw [same, own] at found'
      cases found'
      rw [same]
      exact sound.placed record.id stored found
    · rw [find_setAttachmentHashNonce_ne nonce same] at found'
      exact sound.placed hash other found'
  case listed => exact sound.listed
  case nodup => exact sound.nodup
  case last => exact sound.last
  case aimed => exact sound.aimed

/-- A row may be added for a record that has a nonce and is not being
destroyed. -/
theorem FileStore.Sound.insertAttachment (refers : file.hash = some hash)
    (recorded : store.Recorded hash) (apart : deletion.destroys ≠ some hash)
    (inserted : store.insertAttachment file = .ok store') : store'.Sound deletion := by
  obtain ⟨absent, new, others, hashes, objects⟩ := insertAttachment_eq_ok inserted
  constructor
  case recorded =>
    intro id row hash' found refers'
    rw [Recorded, hashes]
    by_cases same : id = file.id
    · subst same
      rw [new] at found
      cases found
      cases refers.symm.trans refers'
      exact .inl recorded
    · rw [others id same] at found
      exact sound.recorded id row hash' found refers'
  case stored =>
    rw [hashes, objects]
    exact sound.stored
  case placed =>
    rw [hashes]
    exact sound.placed
  case listed =>
    intro listed member
    obtain ⟨row, found, kept⟩ := sound.listed listed member
    refine ⟨row, ?_, kept⟩
    rw [others listed.id, found]
    intro same
    rw [same, absent] at found
    cases found
  case nodup => exact sound.nodup
  case last =>
    intro hash' going
    obtain ⟨first, isFirst, own, only⟩ := sound.last hash' going
    refine ⟨first, isFirst, own, ?_⟩
    intro id row found refers'
    by_cases same : id = file.id
    · subst same
      rw [new] at found
      cases found
      cases refers.symm.trans refers'
      exact absurd going apart
    · rw [others id same] at found
      exact only id row found refers'
  case aimed => exact sound.aimed

omit sound in
theorem UploadProgress.engaged_of_storing (storing : progress.storing = some hash) :
    progress.engaged = some hash := by
  cases progress with
  | putting record | committing record => exact storing
  | fetching | creating | inserting | finished => cases storing

omit sound in
/-- An upload notices only what is done to the hash that it is engaged with. -/
theorem Upload.Relies.frame (relies : upload.Relies store progress)
    (stored : ∀ hash, progress.storing = some hash →
      store'.hashes.find hash = store.hashes.find hash ∧
      ∀ bucket, store'.objects.lookup (bucket, hash) = store.objects.lookup (bucket, hash))
    (recorded : ∀ hash, progress.engaged = some hash → store.Recorded hash →
      store'.Recorded hash) : upload.Relies store' progress := by
  cases progress with
  | fetching | finished result => trivial
  | creating record => exact relies
  | putting record =>
    rw [Relies, FileStore.Unstored, (stored record.id rfl).1]
    exact relies
  | committing record =>
    rw [Relies, FileStore.Unstored, (stored record.id rfl).1, (stored record.id rfl).2]
    exact relies
  | inserting record => exact recorded record.id rfl relies

omit sound in
theorem Upload.Relies.found (relies : upload.Relies store progress)
    (engaged : progress.engaged = some hash) : store.hashes.find hash ≠ none := by
  intro absent
  cases progress with
  | putting record | inserting record =>
    cases engaged
    obtain ⟨stored, found, _⟩ := relies
    cases absent.symm.trans found
  | committing record =>
    cases engaged
    obtain ⟨⟨stored, found, _⟩, _⟩ := relies
    cases absent.symm.trans found
  | fetching | creating | finished => cases engaged

omit sound in
/-- The deletion task touches only the record that it destroys. -/
theorem FileDeletion.find_next (other : deletion.destroys ≠ some hash) :
    (deletion.next store).2.hashes.find hash = store.hashes.find hash := by
  cases deletion with
  | forgetting record file rest =>
    refine find_deleteAttachmentHash_ne ?_
    rintro rfl
    exact other rfl
  | counting files =>
    cases files with
    | nil => rfl
    | cons file rest =>
      rw [next]
      split <;> rfl
  | looking hash file rest =>
    rw [next]
    split <;> rfl
  | _ => rfl

/-- The deletion task touches only the object that it destroys. -/
theorem FileDeletion.lookup_next {bucket : String} (other : deletion.destroys ≠ some hash) :
    (deletion.next store).2.objects.lookup (bucket, hash) =
      store.objects.lookup (bucket, hash) := by
  cases deletion with
  | destroying record file rest =>
    refine AList.lookup_erase_ne ?_
    intro same
    have samePath : hash = record.path := congrArg Prod.snd same
    rw [sound.aimed record rfl] at samePath
    exact other (congrArg some samePath.symm)
  | counting files =>
    cases files with
    | nil => rfl
    | cons file rest =>
      rw [next]
      split <;> rfl
  | looking hash file rest =>
    rw [next]
    split <;> rfl
  | _ => rfl

/-- The deletion task enters upon a hash by finding it unreferenced. -/
theorem FileDeletion.destroys_next (going : (deletion.next store).1.destroys = some hash) :
    deletion.destroys = some hash ∨ ∃ file rest, deletion = .counting (file :: rest) ∧
      file.hash = some hash ∧ store.countFileHashReferences hash ≤ 1 := by
  cases deletion with
  | counting files =>
    cases files with
    | nil => cases going
    | cons file rest =>
      rw [next] at going
      split at going
      · cases going
      · next found refers =>
        split at going
        · next few =>
          cases going
          exact .inr ⟨file, rest, rfl, refers, few⟩
        · cases going
  | looking hash' file rest =>
    left
    obtain ⟨record, found, _⟩ := sound.recorded_of_destroys rfl
    rw [next, fetchAttachmentHash_eq found] at going
    rw [← going]
    exact congrArg some (Collection.key_of_find found).symm
  | destroying record file rest => exact .inl going
  | fetching | forgetting | removing | stopped => cases going

end Writes

variable {call : FileCall}

namespace FileCall

variable {store store' : FileStore} {hash : String}

theorem engaged_of_storing (storing : call.storing = some hash) : call.engaged = some hash := by
  cases call with
  | uploading upload progress => exact UploadProgress.engaged_of_storing storing
  | _ => cases storing

theorem idle_of_isUpload (noUpload : call.isUpload = false) :
    call.engaged = none ∧ call.storing = none ∧ ∀ store, call.Relies store := by
  cases call with
  | uploading upload progress => cases noUpload
  | _ => exact ⟨rfl, rfl, fun _ => trivial⟩

theorem idle_of_begun (begun : call.begun) :
    call.engaged = none ∧ call.storing = none ∧ ∀ store, call.Relies store := by
  cases call with
  | uploading upload progress =>
    cases progress with
    | fetching => exact ⟨rfl, rfl, fun _ => trivial⟩
    | _ => cases begun
  | _ => exact ⟨rfl, rfl, fun _ => trivial⟩

theorem Relies.frame (relies : call.Relies store)
    (stored : ∀ hash, call.storing = some hash →
      store'.hashes.find hash = store.hashes.find hash ∧
      ∀ bucket, store'.objects.lookup (bucket, hash) = store.objects.lookup (bucket, hash))
    (recorded : ∀ hash, call.engaged = some hash → store.Recorded hash → store'.Recorded hash) :
    call.Relies store' := by
  cases call with
  | uploading upload progress => exact Upload.Relies.frame relies stored recorded
  | _ => trivial

theorem Relies.found (relies : call.Relies store) (engaged : call.engaged = some hash) :
    store.hashes.find hash ≠ none := by
  cases call with
  | uploading upload progress => exact Upload.Relies.found relies engaged
  | _ => cases engaged

end FileCall

namespace FilePool

variable {ι : Type} [DecidableEq ι] {pool : FilePool ι} {i : ι}

omit [DecidableEq ι] in
theorem Begun.tidy (begun : pool.Begun) : pool.Tidy := by
  have idle := fun i => idle_of_begun (begun.calls i)
  constructor
  case sound => exact begun.sound
  case relies => exact fun i => (idle i).2.2 _
  case apart =>
    intro i hash engaged
    rw [(idle i).1] at engaged
    cases engaged
  case exclusive =>
    intro i j hash storing
    rw [(idle i).2.1] at storing
    cases storing

/-- The next step of a call keeps the files tidy. -/
abbrev StaysTidy (pool : FilePool ι) (i : ι) : Prop := FilePool.Tidy (pool.step FileCall.next i)

section Steps

variable {progress progress' : UploadProgress}
variable (tidy : pool.Tidy)
include tidy

/-- What the other calls rely on has to be left to them. -/
theorem Tidy.step_of {world : FileWorld} (stepped : (pool.calls i).next pool.store = (call, world))
    (sound : world.store.Sound world.deletion) (self : call.Relies world.store)
    (others : ∀ j, j ≠ i → (pool.calls j).Relies world.store)
    (apart : ∀ hash, world.deletion.destroys = some hash →
      call.engaged ≠ some hash ∧ ∀ j, j ≠ i → (pool.calls j).engaged ≠ some hash)
    (alone : ∀ hash, call.storing = some hash → (pool.calls i).storing ≠ some hash →
      ∀ j, (pool.calls j).storing ≠ some hash) : pool.StaysTidy i := by
  have store : (pool.step FileCall.next i).store = world := congrArg Prod.snd stepped
  have next : ((pool.calls i).next pool.store).1 = call := congrArg Prod.fst stepped
  constructor
  case sound =>
    rw [FilePool.Sound, store]
    exact sound
  case relies =>
    rw [store]
    apply Pool.forall_step (P := fun _ (call : FileCall) => call.Relies world.store)
    · rw [next]
      exact self
    · exact others
  case apart =>
    rw [store]
    intro j hash engaged going
    refine Pool.forall_step (P := fun _ (call : FileCall) => call.engaged ≠ some hash) ?_
      (apart hash going).2 j engaged
    rw [next]
    exact (apart hash going).1
  case exclusive =>
    intro j k hash
    refine Pool.unique_step (P := fun _ (call : FileCall) => call.storing = some hash)
      (fun j k => tidy.exclusive j k hash) ?_ j k
    intro storing j other storing'
    rw [next] at storing
    by_cases before : (pool.calls i).storing = some hash
    · exact other (tidy.exclusive j i hash storing' before)
    · exact alone hash storing before j storing'

section

variable (calls : pool.calls i = .uploading upload progress)

include calls

theorem Tidy.step_upload {store : FileStore}
    (stepped : upload.next pool.store.store progress = (progress', store))
    (sound : store.Sound pool.store.deletion) (self : upload.Relies store progress')
    (others : ∀ j, j ≠ i → (pool.calls j).Relies store)
    (apart : ∀ hash, progress'.engaged = some hash → pool.store.deletion.destroys ≠ some hash)
    (alone : ∀ hash, progress'.storing = some hash → progress.storing ≠ some hash →
      ∀ j, (pool.calls j).storing ≠ some hash) : pool.StaysTidy i := by
  have next : (pool.calls i).next pool.store =
      (.uploading upload progress', { pool.store with store := store }) := by
    rw [calls, FileCall.next, stepped]
  apply tidy.step_of next sound self others
  · intro hash going
    refine ⟨fun engaged => apart hash engaged going, ?_⟩
    intro j _ engaged
    exact tidy.apart j hash engaged going
  · intro hash storing before
    rw [calls] at before
    exact alone hash storing before

/-- A step of an upload that writes nothing. -/
theorem Tidy.step_read
    (stepped : upload.next pool.store.store progress = (progress', pool.store.store))
    (self : upload.Relies pool.store.store progress')
    (apart : ∀ hash, progress'.engaged = some hash → pool.store.deletion.destroys ≠ some hash)
    (alone : ∀ hash, progress'.storing = some hash → progress.storing ≠ some hash →
      ∀ j, (pool.calls j).storing ≠ some hash) : pool.StaysTidy i :=
  tidy.step_upload calls stepped tidy.sound self (fun j _ => tidy.relies j) apart alone

/-- An upload that has finished relies on nothing any more. -/
theorem Tidy.step_finished {result : Result Unit}
    (stepped : upload.next pool.store.store progress = (.finished result, pool.store.store)) :
    pool.StaysTidy i := by
  apply tidy.step_read calls stepped trivial
  · rintro _ ⟨⟩
  · rintro _ ⟨⟩

end

theorem Tidy.process {go : FileHash → UploadProgress}
    (calls : pool.calls i = .uploading upload .fetching)
    (stepped : upload.next pool.store.store .fetching = (upload.process go, pool.store.store))
    (self : ∀ record, upload.processed = .ok record → upload.Relies pool.store.store (go record))
    (apart : ∀ record hash, upload.processed = .ok record → (go record).engaged = some hash →
      pool.store.deletion.destroys ≠ some hash)
    (alone : ∀ record hash, upload.processed = .ok record → (go record).storing = some hash →
      ∀ j, (pool.calls j).storing ≠ some hash) : pool.StaysTidy i := by
  rw [Upload.process] at stepped
  cases processed : upload.processed with
  | error e =>
    rw [processed] at stepped
    exact tidy.step_finished calls stepped
  | ok record =>
    rw [processed] at stepped
    apply tidy.step_read calls stepped (self record processed)
    · exact fun hash => apart record hash processed
    · exact fun hash storing _ => alone record hash processed storing

theorem Tidy.fetch (orderly : pool.Orderly i) (calls : pool.calls i = .uploading upload .fetching) :
    pool.StaysTidy i := by
  have stepped : upload.next pool.store.store .fetching = (upload.afterFetch
      (pool.store.store.fetchAttachmentHash upload.hash).toOption, pool.store.store) := rfl
  cases fetched : pool.store.store.fetchAttachmentHash upload.hash with
  | error e =>
    rw [fetched] at stepped
    apply tidy.process calls stepped
    · exact fun _ processed => processed
    · rintro _ _ _ ⟨⟩
    · rintro _ _ _ ⟨⟩
  | ok record =>
    rw [fetched, Except.toOption, Upload.afterFetch] at stepped
    obtain ⟨apart, unstored⟩ := orderly.upload upload record calls fetched
    have found := find_of_fetchAttachmentHash fetched
    by_cases stored : record.iv = ""
    · obtain ⟨own, bucket, alone⟩ := unstored stored
      rw [if_neg (by simpa using stored)] at stepped
      have same : ∀ processed, upload.processed = .ok processed → processed.id = record.id := by
        intro processed done
        exact (upload.own processed done).1.trans own.symm
      apply tidy.process calls stepped
      · intro processed done
        exact ⟨record, (same processed done).symm ▸ found, stored, bucket processed done⟩
      · rintro processed _ done ⟨⟩
        exact (same processed done).symm ▸ apart
      · rintro processed _ done ⟨⟩
        exact (same processed done).symm ▸ alone
    · rw [if_pos (by simpa using stored)] at stepped
      apply tidy.step_read calls stepped ⟨record, found, stored⟩
      · rintro _ ⟨⟩
        exact apart
      · rintro _ ⟨⟩

theorem Tidy.create (calls : pool.calls i = .uploading upload (.creating record)) :
    pool.StaysTidy i := by
  have processed : upload.processed = .ok record := by
    have relies := tidy.relies i
    rwa [calls] at relies
  obtain ⟨own, placed, unstored⟩ := upload.own record processed
  cases inserted : pool.store.store.insertAttachmentHash record with
  | error e =>
    exact tidy.step_finished calls (by rw [Upload.next, inserted])
  | ok store =>
    obtain ⟨absent, new, others, _, objects⟩ := insertAttachmentHash_eq_ok inserted
    have stepped : upload.next pool.store.store (.creating record) =
        (.putting record, store) := by
      rw [Upload.next, inserted]
    have other : ∀ j hash, (pool.calls j).engaged = some hash → hash ≠ record.id := by
      rintro j _ engaged rfl
      exact (tidy.relies j).found engaged absent
    apply tidy.step_upload calls stepped
    · exact tidy.sound.insertAttachmentHash (placed.trans own.symm) unstored inserted
    · exact ⟨record, new, unstored, rfl⟩
    · intro j _
      apply (tidy.relies j).frame
      · intro hash storing
        refine ⟨others hash (other j hash (engaged_of_storing storing)), ?_⟩
        intro bucket
        rw [objects]
      · rintro hash engaged ⟨stored, found, nonce⟩
        exact ⟨stored, (others hash (other j hash engaged)).trans found, nonce⟩
    · rintro _ ⟨⟩ going
      obtain ⟨stored, found, _⟩ := tidy.sound.recorded_of_destroys going
      cases absent.symm.trans found
    · rintro _ ⟨⟩ _ j storing
      exact other j _ (engaged_of_storing storing) rfl

theorem Tidy.put (calls : pool.calls i = .uploading upload (.putting record)) :
    pool.StaysTidy i := by
  have unstored : pool.store.store.Unstored record := by
    have relies := tidy.relies i
    rwa [calls] at relies
  have storing : (pool.calls i).storing = some record.id := by
    rw [calls]
    rfl
  apply tidy.step_upload calls rfl
  · exact tidy.sound.putObject unstored
  · exact ⟨unstored, HashMap.lookup_put _ _ _⟩
  · intro j ne
    apply (tidy.relies j).frame
    · intro hash storing'
      refine ⟨rfl, ?_⟩
      intro bucket
      refine HashMap.lookup_put_ne _ ?_ _
      intro same
      obtain rfl : hash = record.id := congrArg Prod.snd same
      exact ne (tidy.exclusive j i record.id storing' storing)
    · intro _ _ recorded
      exact recorded
  · exact fun hash engaged => tidy.apart i hash (by rw [calls]; exact engaged)
  · intro hash storing' before
    exact absurd storing' before

theorem Tidy.commit (calls : pool.calls i = .uploading upload (.committing record)) :
    pool.StaysTidy i := by
  obtain ⟨unstored, object⟩ : pool.store.store.Unstored record ∧
      pool.store.store.objects.lookup (record.bucketId, record.id) = some upload.nonce := by
    have relies := tidy.relies i
    rwa [calls] at relies
  have storing : (pool.calls i).storing = some record.id := by
    rw [calls]
    rfl
  obtain ⟨stored, found, _⟩ := id unstored
  have own :
      (pool.store.store.setAttachmentHashNonce record.id upload.nonce).Recorded record.id := by
    refine ⟨{ stored with iv := upload.nonce }, ?_, upload.nonce_ne⟩
    rw [find_setAttachmentHashNonce, found, Option.map_some]
  apply tidy.step_upload calls rfl
  · exact tidy.sound.setAttachmentHashNonce upload.nonce_ne unstored object
  · exact own
  · intro j ne
    apply (tidy.relies j).frame
    · intro hash storing'
      refine ⟨find_setAttachmentHashNonce_ne _ ?_, fun _ => rfl⟩
      rintro rfl
      exact ne (tidy.exclusive j i record.id storing' storing)
    · rintro hash _ ⟨other, found', nonce⟩
      by_cases same : hash = record.id
      · rw [same]
        exact own
      · exact ⟨other, (find_setAttachmentHashNonce_ne _ same).trans found', nonce⟩
  · exact fun hash engaged => tidy.apart i hash (by rw [calls]; exact engaged)
  · rintro _ ⟨⟩

theorem Tidy.insert (calls : pool.calls i = .uploading upload (.inserting record)) :
    pool.StaysTidy i := by
  have recorded : pool.store.store.Recorded record.id := by
    have relies := tidy.relies i
    rwa [calls] at relies
  have apart : pool.store.deletion.destroys ≠ some record.id :=
    tidy.apart i record.id (by rw [calls]; rfl)
  cases inserted : upload.insertFile record pool.store.store with
  | error e =>
    exact tidy.step_finished calls (by rw [Upload.next, inserted])
  | ok store =>
    obtain ⟨_, _, _, hashes, objects⟩ := insertAttachment_eq_ok inserted
    have stepped : upload.next pool.store.store (.inserting record) =
        (.finished (.ok ()), store) := by
      rw [Upload.next, inserted]
    apply tidy.step_upload calls stepped
    · exact tidy.sound.insertAttachment rfl recorded apart inserted
    · trivial
    · intro j _
      apply (tidy.relies j).frame
      · intro hash _
        rw [hashes, objects]
        exact ⟨rfl, fun _ => rfl⟩
      · intro hash _ recorded
        rwa [FileStore.Recorded, hashes]
    · rintro _ ⟨⟩
    · rintro _ ⟨⟩

theorem Tidy.step_uploading (orderly : pool.Orderly i)
    (calls : pool.calls i = .uploading upload progress) : pool.StaysTidy i := by
  cases progress with
  | fetching => exact tidy.fetch orderly calls
  | creating record => exact tidy.create calls
  | putting record => exact tidy.put calls
  | committing record => exact tidy.commit calls
  | inserting record => exact tidy.insert calls
  | finished result => exact tidy.step_finished calls rfl

/-- The deletion task destroys nothing that uploads rely on. -/
theorem Tidy.delete (orderly : pool.Orderly i)
    (calls : pool.calls i = .deleter) : pool.StaysTidy i := by
  have next : (pool.calls i).next pool.store = (.deleter, pool.store.delete) := by
    rw [calls]
    rfl
  apply tidy.step_of next tidy.sound.next trivial
  · intro j _
    apply (tidy.relies j).frame
    · intro hash storing
      have apart := tidy.apart j hash (engaged_of_storing storing)
      exact ⟨find_next apart, fun _ => lookup_next tidy.sound apart⟩
    · rintro hash engaged ⟨stored, found, nonce⟩
      exact ⟨stored, (find_next (tidy.apart j hash engaged)).trans found, nonce⟩
  · intro hash going
    refine ⟨(Option.some_ne_none hash).symm, ?_⟩
    intro j _ engaged
    obtain before | ⟨file, rest, counting, refers, few⟩ := destroys_next tidy.sound going
    · exact tidy.apart j hash engaged before
    · exact orderly.deletion file rest hash calls counting refers few j engaged
  · rintro _ ⟨⟩

theorem Tidy.amend (noUpload : (pool.calls i).isUpload = false)
    (other : pool.calls i ≠ .deleter) : pool.StaysTidy i := by
  obtain ⟨amends, deletion⟩ := next_amends pool.store noUpload other
  have sound := next_sound noUpload tidy.sound
  have idle := idle_of_isUpload (isUpload_next pool.store noUpload)
  cases stepped : (pool.calls i).next pool.store with
  | mk call world =>
    rw [stepped] at amends deletion sound idle
    obtain ⟨engaged, storing, relies⟩ := idle
    apply tidy.step_of stepped sound (relies _)
    · intro j _
      apply (tidy.relies j).frame
      · intro hash _
        rw [amends.hashes, amends.objects]
        exact ⟨rfl, fun _ => rfl⟩
      · intro hash _ recorded
        rwa [FileStore.Recorded, amends.hashes]
    · intro hash going
      rw [engaged]
      refine ⟨(Option.some_ne_none hash).symm, ?_⟩
      intro j _ engaged'
      rw [deletion] at going
      exact tidy.apart j hash engaged' going
    · intro hash storing'
      rw [storing] at storing'
      cases storing'

theorem Tidy.step (orderly : pool.Orderly i) : pool.StaysTidy i := by
  cases calls : pool.calls i with
  | uploading upload progress => exact tidy.step_uploading orderly calls
  | deleter => exact tidy.delete orderly calls
  | _ => exact tidy.amend (by rw [calls]; rfl) (by rw [calls]; nofun)

end Steps

end FilePool

/-! ## Interleavings -/

namespace FilePool

variable {ι : Type} {pool : FilePool ι} {i : ι}

/-- An upload that has begun goes on in any order. -/
theorem orderly_of_not_begun (going : (pool.calls i).begun = false) : pool.Orderly i where
  upload := by
    intro upload _ calls
    rw [calls] at going
    cases going
  deletion := by
    intro _ _ _ calls
    rw [calls] at going
    cases going

/-- An upload may always go on with a stored record if the deletion task leaves
it alone. -/
theorem orderly_of_stored (calls : pool.calls i = .uploading upload .fetching)
    (stored : ∀ record, pool.store.store.fetchAttachmentHash upload.hash = .ok record →
      record.iv ≠ "" ∧ pool.store.deletion.destroys ≠ some record.id) : pool.Orderly i where
  upload := by
    intro upload' record calls' fetched
    rw [calls] at calls'
    cases calls'
    obtain ⟨nonce, apart⟩ := stored record fetched
    exact ⟨apart, fun unstored => absurd unstored nonce⟩
  deletion := by
    intro _ _ _ calls'
    rw [calls] at calls'
    cases calls'

end FilePool

/-- In every interleaving of uploads, claims, releases and the tasks in which
all steps are orderly, every row that is not marked refers to a record whose
object exists and was encrypted with the nonce of the record. -/
theorem deduplicated_files_consistent {ι : Type} [DecidableEq ι] {start pool : FilePool ι}
    (begun : start.Begun) (reached : Pool.Reaches FileCall.next FilePool.Orderly start pool) :
    ∀ id row hash, pool.store.store.row id = some row → row.deleted ≠ some true →
      row.hash = some hash → pool.store.store.Intact hash := by
  have tidy : pool.Tidy := reached.invariant begun.tidy fun _ _ tidy orderly => tidy.step orderly
  intro id row hash found unmarked refers
  exact tidy.sound.intact found unmarked refers

def sharedRecord : FileHash where
  id := "hash"
  processedHash := "stripped"
  createdAt := 0
  bucketId := "bucket"
  path := "hash"
  iv := ""
  metadata := .file
  contentType := "image/png"
  size := 17

theorem sharedRecord_own : ∀ record, (Except.ok sharedRecord : Result FileHash) = .ok record →
    record.id = "hash" ∧ record.path = "hash" ∧ record.iv = "" := by
  rintro _ ⟨⟩
  exact ⟨rfl, rfl, rfl⟩

theorem sharedNonce_ne (first : Bool) : (if first then "nonce 1" else "nonce 2") ≠ "" := by
  cases first <;> decide

def sharedUpload (first : Bool) : Upload where
  id := if first then "file 1" else "file 2"
  tag := "attachments"
  filename := "image.png"
  uploaderId := "alice"
  hash := "hash"
  processed := .ok sharedRecord
  nonce := if first then "nonce 1" else "nonce 2"
  own := sharedRecord_own
  nonce_ne := sharedNonce_ne first

def sharedUploads : FilePool Bool where
  calls first := .uploading (sharedUpload first) .fetching
  store := { store := .empty, pruning := .fetching, deletion := .fetching }

theorem sharedUploads_begun : sharedUploads.Begun where
  consistent := consistent_of_documents (by decide) (by decide)
  pruning := rfl
  deletion := rfl
  calls _ := rfl

/-- The second upload comes when the first one has finished. -/
theorem deduplicated_files_consistent_in_turn :
    ((sharedUploads.run FileCall.next [true, true, true, true, true, false, false]).store.store.row
        "file 2").map File.hash = some (some "hash") ∧
      (sharedUploads.run FileCall.next
        [true, true, true, true, true, false, false]).store.store.Intact "hash" := by
  have reached : Pool.Reaches FileCall.next FilePool.Orderly sharedUploads
      (sharedUploads.run FileCall.next [true, true, true, true, true, false, false]) := by
    apply Pool.reaches_run
    refine ⟨?_, ?_, ?_, ?_, ?_, ?_, ?_, trivial⟩
    · exact orderly_of_stored rfl nofun
    · exact orderly_of_not_begun rfl
    · exact orderly_of_not_begun rfl
    · exact orderly_of_not_begun rfl
    · exact orderly_of_not_begun rfl
    · refine orderly_of_stored rfl ?_
      rintro record ⟨⟩
      exact ⟨by decide, nofun⟩
    · exact orderly_of_not_begun rfl
  refine ⟨by decide +kernel, ?_⟩
  exact deduplicated_files_consistent sharedUploads_begun reached "file 2"
    ((sharedUpload false).file { sharedRecord with iv := "nonce 1" } 0) "hash" rfl nofun rfl

/-- The second upload finds the record that the first one has created and not
stored yet, both store an object, the second one commits its nonce first, and
both go on to the end. -/
def racedUploads : FilePool Bool :=
  sharedUploads.run FileCall.next [true, true, false, true, false, false, true, true, false]

/-- Two uploads of the same bytes both store an object. Both have succeeded, and
the nonce of the record is not that of the object. -/
theorem deduplicated_nonces_differ :
    (racedUploads.calls true = .uploading (sharedUpload true) (.finished (.ok ())) ∧
      racedUploads.calls false = .uploading (sharedUpload false) (.finished (.ok ()))) ∧
    (racedUploads.store.store.row "file 1").map (fun row => (row.hash, row.deleted)) =
      some (some "hash", none) ∧
    (racedUploads.store.store.row "file 2").map (fun row => (row.hash, row.deleted)) =
      some (some "hash", none) ∧
    (racedUploads.store.store.hashes.find "hash").map FileHash.iv = some "nonce 1" ∧
    racedUploads.store.store.objects.lookup ("bucket", "hash") = some "nonce 2" := by
  refine ⟨⟨rfl, rfl⟩, ?_⟩
  decide +kernel

end Company
