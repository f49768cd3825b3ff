import CompanyBackend.Files.Processes

/-!
# Claimed files

A claim looks for a row that nobody uses and then writes who uses it. It does not look at the
mark of the row, and the pruner marks the rows that it has listed without looking at them again.

The file of a claim is kept as long as it is not released if, when the claim writes, the row is
still there, it is not marked, and the pruner does not hold it on its list. Otherwise the file is
lost, or it may still be: the pruner is free to go on.
-/

namespace Company

open FileStore FilePool Pool List Option

/-- The rows that the pruner may mark without looking at them again. -/
def Pruning.pending : Pruning → List String
  | .fetching => []
  | .filtering files => (files.filter fun file => file.uploadedAt.isSome).map File.id
  | .marking ids => ids

def FileWorld.pending (world : FileWorld) : List String :=
  if world.deletion.running then world.pruning.pending else []

/-- The row is there and not marked, and so is everything that it refers to. -/
def FileStore.Kept (store : FileStore) (id : String) : Prop :=
  ∃ row, store.row id = some row ∧ row.deleted ≠ some true ∧
    ∀ hash, row.hash = some hash → store.Intact hash

/-- A claim of the file is in time. -/
def FileWorld.Claimable (world : FileWorld) (id : String) : Prop :=
  (∃ row, world.store.row id = some row ∧ row.deleted ≠ some true) ∧ id ∉ world.pending

/-- The file is claimed, and nobody is about to mark it. -/
structure FileWorld.Claimed (world : FileWorld) (id : String) : Prop where
  row : ∃ row, world.store.row id = some row ∧ row.usedFor.isSome ∧ row.deleted ≠ some true
  pending : id ∉ world.pending

def Unreleased (id : String) {ι : Type} (pool : FilePool ι) (i : ι) : Prop :=
  (pool.calls i).isUpload = false ∧ ∀ filter row, pool.calls i = .releasing filter →
    pool.store.store.row id = some row → filter row = false

variable {store : FileStore}

section Rows

variable {id other : String}

theorem FileStore.row_useAttachment (usedFor : FileUsedFor) (uploaderId : String) :
    (store.useAttachment id usedFor uploaderId).row id = (store.row id).map fun file =>
      { file with usedFor := some usedFor, uploaderId := some uploaderId } := by
  rw [row, useAttachment, MongoDb.useAttachment, Collection.find_update]
  rfl

theorem FileStore.row_useAttachment_ne (usedFor : FileUsedFor) (uploaderId : String)
    (ne : other ≠ id) :
    (store.useAttachment id usedFor uploaderId).row other = store.row other := by
  rw [row, useAttachment, MongoDb.useAttachment, Collection.find_update_ne ne]
  rfl

theorem FileStore.row_markAttachmentAsReported :
    (store.markAttachmentAsReported id).row id = (store.row id).map fun file =>
      { file with reported := some true } := by
  rw [row, markAttachmentAsReported, Collection.find_update]
  rfl

theorem FileStore.row_markAttachmentAsReported_ne (ne : other ≠ id) :
    (store.markAttachmentAsReported id).row other = store.row other := by
  rw [row, markAttachmentAsReported, Collection.find_update_ne ne]
  rfl

end Rows

section Tasks

variable {id : String} {pruning : Pruning}

theorem Pruning.row_next (free : id ∉ pruning.pending) :
    (pruning.next store).2.row id = store.row id := by
  cases pruning with
  | fetching | filtering files => rfl
  | marking ids =>
    rw [Pruning.next, markAttachmentsAsDeleted, row_deleteManyAttachments]
    cases found : store.row id with
    | none => rfl
    | some row =>
      have other : ids.contains row.id = false := by
        rw [FileStore.row_id found, contains_eq_mem]
        exact decide_eq_false free
      rw [map_some, other]
      rfl

theorem File.uploadedAt_of_expired {now : Timestamp} {file : File}
    (expired : file.expired now) : file.uploadedAt.isSome := by
  rw [File.expired] at expired
  cases uploaded : file.uploadedAt with
  | none =>
    rw [uploaded] at expired
    cases expired
  | some uploadedAt => rfl

/-- What the pruner holds next it holds already, or it finds it dangling. -/
theorem Pruning.pending_next (listed : id ∈ (pruning.next store).1.pending) :
    id ∈ pruning.pending ∨ ∃ file ∈ store.fetchDanglingFiles, file.id = id := by
  cases pruning with
  | fetching =>
    obtain ⟨file, member, same⟩ := List.mem_map.mp listed
    exact .inr ⟨file, (mem_filter.mp member).1, same⟩
  | filtering files =>
    left
    have marked : id ∈ (files.filter (File.expired store.now)).map File.id := by
      unfold Pruning.next at listed
      dsimp only at listed
      split at listed
      · cases listed
      · exact listed
    obtain ⟨file, member, same⟩ := List.mem_map.mp marked
    obtain ⟨member, expired⟩ := mem_filter.mp member
    exact List.mem_map.mpr ⟨file, mem_filter.mpr ⟨member, File.uploadedAt_of_expired expired⟩, same⟩
  | marking ids => cases listed

theorem FileDeletion.row_next {deletion : FileDeletion}
    (free : ∀ file ∈ deletion.files, file.id ≠ id) :
    (deletion.next store).2.row id = store.row id := by
  cases deletion with
  | removing file rest =>
    exact row_deleteAttachment_ne (free file mem_cons_self).symm
  | counting files =>
    cases files with
    | nil => rfl
    | cons file rest =>
      rw [FileDeletion.next]
      split <;> rfl
  | looking hash file rest =>
    rw [FileDeletion.next]
    split <;> rfl
  | _ => rfl

end Tasks

namespace FileWorld

variable {world world' : FileWorld} {id : String} {call : FileCall}

section

variable (claimed : world.Claimed id)

include claimed

theorem Claimed.kept (sound : world.store.Sound world.deletion) : world.store.Kept id := by
  obtain ⟨row, found, _, unmarked⟩ := claimed.row
  exact ⟨row, found, unmarked, fun _ => sound.intact found unmarked⟩

/-- A change of the row by which it remains claimed and unmarked. -/
theorem Claimed.of_edit {edit : File → File}
    (edited : world'.store.row id = (world.store.row id).map edit)
    (keeps : ∀ file, file.usedFor.isSome → file.deleted ≠ some true →
      world.store.row id = some file →
      (edit file).usedFor.isSome ∧ (edit file).deleted ≠ some true)
    (pending : world'.pending ⊆ world.pending) : world'.Claimed id := by
  obtain ⟨row, found, used, unmarked⟩ := claimed.row
  refine ⟨⟨edit row, ?_, keeps row used unmarked found⟩, ?_⟩
  · rw [edited, found, map_some]
  · exact fun listed => claimed.pending (pending listed)

theorem Claimed.of_row (same : world'.store.row id = world.store.row id)
    (pending : world'.pending ⊆ world.pending) : world'.Claimed id :=
  claimed.of_edit (same.trans Option.map_id'.symm) (fun _ used unmarked _ => ⟨used, unmarked⟩)
    pending

/-- The pruner lists no file that is claimed. -/
theorem Claimed.not_dangling : ∀ file ∈ world.store.fetchDanglingFiles, file.id ≠ id := by
  rintro file member rfl
  obtain ⟨found, unused, _⟩ := mem_fetchDanglingFiles.mp member
  obtain ⟨row, found', used, _⟩ := claimed.row
  rw [found] at found'
  cases found'
  rw [unused] at used
  cases used

theorem Claimed.prune : world.prune.Claimed id := by
  rw [FileWorld.prune]
  split
  case isFalse => exact claimed
  case isTrue running =>
    have pending := claimed.pending
    rw [FileWorld.pending, if_pos running] at pending
    constructor
    · dsimp only
      rw [Pruning.row_next pending]
      exact claimed.row
    · rw [FileWorld.pending, if_pos running]
      intro listed
      obtain held | ⟨file, dangling, same⟩ := Pruning.pending_next listed
      · exact pending held
      · exact claimed.not_dangling file dangling same

omit claimed in
theorem pending_delete : world.delete.pending ⊆ world.pending := by
  obtain ⟨store, pruning, deletion⟩ := world
  cases deletion with
  | stopped failure => exact List.Subset.refl _
  | _ =>
    intro id listed
    rw [FileWorld.pending] at listed
    split at listed
    · exact listed
    · cases listed

theorem Claimed.delete (sound : world.store.Sound world.deletion) : world.delete.Claimed id := by
  obtain ⟨row, found, _, unmarked⟩ := claimed.row
  exact claimed.of_row (FileDeletion.row_next (sound.not_listed found unmarked)) pending_delete

theorem Claimed.next (sound : world.store.Sound world.deletion) (noUpload : call.isUpload = false)
    (unreleased : ∀ filter row, call = .releasing filter → world.store.row id = some row →
      filter row = false) : (call.next world).2.Claimed id := by
  cases call with
  | uploading upload progress => cases noUpload
  | deleter => exact claimed.delete sound
  | pruner => exact claimed.prune
  | found claim file =>
    by_cases same : id = claim.id
    · subst same
      exact claimed.of_edit (row_useAttachment _ _)
        (fun _ _ unmarked _ => ⟨rfl, unmarked⟩) (List.Subset.refl _)
    · exact claimed.of_row (row_useAttachment_ne _ _ same) (List.Subset.refl _)
  | releasing filter =>
    refine claimed.of_edit (row_deleteManyAttachments filter) ?_ (List.Subset.refl _)
    intro row used unmarked found
    rw [unreleased filter row rfl found]
    exact ⟨used, unmarked⟩
  | reporting id' =>
    by_cases same : id = id'
    · subst same
      exact claimed.of_edit row_markAttachmentAsReported
        (fun _ used unmarked _ => ⟨used, unmarked⟩) (List.Subset.refl _)
    · exact claimed.of_row (row_markAttachmentAsReported_ne same) (List.Subset.refl _)
  | clock => exact claimed.of_row rfl (List.Subset.refl _)
  | claiming | claimed | ended => exact claimed

end

end FileWorld

open FileCall

namespace FilePool

variable {ι : Type} [DecidableEq ι] {start pool : FilePool ι} {i j : ι} {id : String}

def WithoutUploads (pool : FilePool ι) (i : ι) : Prop := (pool.calls i).isUpload = false

theorem Begun.sound_of_reaches (begun : start.Begun)
    (reached : Pool.Reaches next WithoutUploads start pool) : pool.Sound :=
  reached.invariant begun.sound fun _ _ sound noUpload => next_sound noUpload sound

/-- The file is claimed, and the files are sound. -/
structure Holds (id : String) (pool : FilePool ι) : Prop where
  claimed : pool.store.Claimed id
  sound : pool.Sound

theorem kept_of_claimed (claimed : start.store.Claimed id) (sound : start.Sound)
    (reached : Pool.Reaches next (Unreleased id) start pool) : pool.store.store.Kept id := by
  have holds : Holds id pool := by
    refine reached.invariant ⟨claimed, sound⟩ ?_
    rintro pool i ⟨claimed, sound⟩ ⟨noUpload, unreleased⟩
    exact ⟨claimed.next sound noUpload unreleased, next_sound noUpload sound⟩
  exact holds.claimed.kept holds.sound

variable {task : FileCall}

/-- The tasks and the clock go on as long as anything does. -/
theorem task_stays (stays : ∀ world, (task.next world).1 = task)
    {condition : FilePool ι → ι → Prop} (running : start.calls j = task)
    (reached : Pool.Reaches next condition start pool) : pool.calls j = task := by
  refine reached.forall_calls (fun i call => start.calls i = task → call = task)
    (fun _ same => same) ?_ j running
  intro i call world same running
  rw [same running, stays]

omit [DecidableEq ι] in
theorem unreleased_of_eq (running : pool.calls j = task) (noUpload : task.isUpload = false)
    (other : ∀ filter, task ≠ .releasing filter) : Unreleased id pool j := by
  refine ⟨running ▸ noUpload, ?_⟩
  intro filter _ releases _
  exact absurd (running.symm.trans releases) (other filter)

omit [DecidableEq ι] in
theorem unreleased_of_pruner (pruner : pool.calls j = .pruner) : Unreleased id pool j := by
  apply unreleased_of_eq pruner rfl
  rintro _ ⟨⟩

theorem reaches_later (clock : pool.calls j = .clock) (n : Nat) :
    Pool.Reaches next (Unreleased id) pool { pool with
      store := { pool.store with
        store := { pool.store.store with now := pool.store.store.now + n } } } := by
  induction n with
  | zero =>
    rw [Nat.cast_zero, add_zero]
    exact .refl
  | succ n ih =>
    refine ih.tail ⟨j, unreleased_of_eq clock rfl (by rintro _ ⟨⟩), ?_⟩
    rw [step_eq_of_stays (by rw [clock]; rfl), clock, FileCall.next, Nat.cast_succ, add_assoc]

variable {ids : List String}

omit [DecidableEq ι] in
theorem not_kept_of_marked (listed : id ∈ ids) :
    ¬ (store.markAttachmentsAsDeleted ids).Kept id := by
  rintro ⟨row, found, unmarked, _⟩
  rw [markAttachmentsAsDeleted, row_deleteManyAttachments, map_eq_some_iff] at found
  obtain ⟨old, stored, rfl⟩ := found
  have matched : ids.contains old.id = true := by
    rw [FileStore.row_id stored, contains_eq_mem]
    exact decide_eq_true listed
  rw [matched] at unmarked
  exact unmarked rfl

/-- A list that the pruner has made up is marked. -/
theorem lost_of_marking (pruner : pool.calls j = .pruner) (running : pool.store.deletion.running)
    (pruning : pool.store.pruning = .marking ids) (listed : id ∈ ids) :
    ∃ later, Pool.Reaches next (Unreleased id) pool later ∧
      ¬ later.store.store.Kept id := by
  refine ⟨pool.step next j, .single ⟨j, unreleased_of_pruner pruner, rfl⟩, ?_⟩
  rw [step_eq_of_stays (by rw [pruner]; rfl), pruner, FileCall.next, FileWorld.prune,
    if_pos running, pruning]
  exact not_kept_of_marked listed

/-- What has expired on a list that the pruner has fetched is marked. -/
theorem lost_of_expired {files : List File} {file : File} (pruner : pool.calls j = .pruner)
    (running : pool.store.deletion.running) (pruning : pool.store.pruning = .filtering files)
    (listed : file ∈ files) (expired : file.expired pool.store.store.now) :
    ∃ later, Pool.Reaches next (Unreleased file.id) pool later ∧
      ¬ later.store.store.Kept file.id := by
  have marks : file.id ∈ (files.filter (File.expired pool.store.store.now)).map File.id :=
    mem_map_of_mem (mem_filter.mpr ⟨listed, expired⟩)
  have filtered : pool.step next j = { pool with store := { pool.store with
      pruning := .marking ((files.filter (File.expired pool.store.store.now)).map File.id) } } := by
    rw [step_eq_of_stays (by rw [pruner]; rfl), pruner, FileCall.next, FileWorld.prune,
      if_pos running, pruning, Pruning.next, if_neg]
    rw [List.isEmpty_iff]
    exact ne_nil_of_mem marks
  obtain ⟨later, reached, lost⟩ :=
    @lost_of_marking ι _ (pool.step next j) j file.id _
      (by rw [filtered]; exact pruner) (by rw [filtered]; exact running) (by rw [filtered]) marks
  exact ⟨later, .head ⟨j, unreleased_of_pruner pruner, rfl⟩ reached, lost⟩

theorem exists_later (lifetime now uploadedAt : Int) : ∃ n : Nat, now + n - uploadedAt > lifetime :=
  ⟨(lifetime + uploadedAt - now + 1).toNat, by omega⟩

/-- What the pruner may mark without looking at it again may be lost. -/
theorem lost_of_pending (pruner : pool.calls j = .pruner) (clock : pool.calls i = .clock)
    (pending : id ∈ pool.store.pending) :
    ∃ later, Pool.Reaches next (Unreleased id) pool later ∧
      ¬ later.store.store.Kept id := by
  rw [FileWorld.pending] at pending
  split at pending
  case isFalse => cases pending
  case isTrue running =>
    cases pruning : pool.store.pruning with
    | fetching =>
      rw [pruning] at pending
      cases pending
    | filtering files =>
      rw [pruning] at pending
      obtain ⟨file, member, rfl⟩ := List.mem_map.mp pending
      obtain ⟨listed, uploaded⟩ := mem_filter.mp member
      obtain ⟨uploadedAt, uploaded⟩ := isSome_iff_exists.mp uploaded
      -- The file expires if the pruner waits.
      obtain ⟨n, enough⟩ := exists_later danglingLifetime pool.store.store.now uploadedAt
      have expired : file.expired (pool.store.store.now + n) = true := by
        rw [File.expired, uploaded]
        exact decide_eq_true enough
      obtain ⟨later, reached, lost⟩ := @lost_of_expired ι _ { pool with
        store := { pool.store with
          store := { pool.store.store with now := pool.store.store.now + n } } }
        j files file pruner running pruning listed expired
      exact ⟨later, (reaches_later clock n).trans reached, lost⟩
    | marking ids =>
      rw [pruning] at pending
      exact lost_of_marking pruner running pruning pending

end FilePool

section Claims

variable {world : FileWorld} {claim : FileClaim} {file : File}

theorem FileWorld.Claimable.claimed (claimable : world.Claimable claim.id) :
    ((found claim file).next world).2.Claimed claim.id := by
  obtain ⟨⟨row, found, unmarked⟩, free⟩ := claimable
  refine ⟨⟨{ row with usedFor := some claim.usedFor, uploaderId := some claim.uploaderId },
    ?_, rfl, unmarked⟩, free⟩
  rw [FileCall.next, row_useAttachment, found, map_some]

/-- A claim does not bring back what is lost. -/
theorem FileStore.Kept.of_claim (kept : ((found claim file).next world).2.store.Kept claim.id) :
    ∃ row, world.store.row claim.id = some row ∧ row.deleted ≠ some true := by
  obtain ⟨row, found, unmarked, _⟩ := kept
  rw [FileCall.next, row_useAttachment, map_eq_some_iff] at found
  obtain ⟨old, stored, rfl⟩ := found
  exact ⟨old, stored, unmarked⟩

/-- The file of a claim that has returned is kept, whatever happens but its
release, exactly if the claim was in time: the row was not yet marked, and the
file was not on the list that the pruner works through. -/
theorem claimed_file_kept_iff {ι : Type} [DecidableEq ι] {start pool : FilePool ι} {i : ι}
    {claim : FileClaim} {file : File} (begun : start.Begun)
    (pruner : ∃ j, start.calls j = .pruner) (clock : ∃ j, start.calls j = .clock)
    (reached : Pool.Reaches FileCall.next WithoutUploads start pool)
    (found : pool.calls i = .found claim file) :
    (∀ later, Pool.Reaches FileCall.next (Unreleased claim.id) (pool.step FileCall.next i) later →
      later.store.store.Kept claim.id) ↔ pool.store.Claimable claim.id := by
  have noUpload : WithoutUploads pool i := by
    rw [WithoutUploads, found]
    rfl
  have returned : (pool.step next i).store =
      ((FileCall.found claim file).next pool.store).2 := by
    rw [← found]
    rfl
  constructor
  · intro kept
    have now := kept _ .refl
    rw [returned] at now
    refine ⟨now.of_claim, ?_⟩
    intro pending
    obtain ⟨j, pruner⟩ := pruner
    obtain ⟨k, clock⟩ := clock
    have stepped := reached.tail ⟨i, noUpload, rfl⟩
    have pending' : claim.id ∈ (pool.step next i).store.pending := by
      rw [returned]
      exact pending
    obtain ⟨later, reached', lost⟩ := lost_of_pending
      (task_stays (fun _ => rfl) pruner stepped)
      (task_stays (fun _ => rfl) clock stepped) pending'
    exact lost (kept later reached')
  · intro claimable later reached'
    have claimed : (pool.step next i).store.Claimed claim.id := by
      rw [returned]
      exact claimable.claimed
    exact kept_of_claimed claimed
      (begun.sound_of_reaches (reached.tail ⟨i, noUpload, rfl⟩)) reached'

/-- An image that was uploaded two hours ago and has not been claimed. -/
def unclaimedImage : File where
  id := "image"
  tag := "attachments"
  filename := "image.png"
  hash := some "hash"
  uploadedAt := some 0

def imageStore : FileStore where
  db := { MongoDb.empty with attachments := .ofDocuments [unclaimedImage] }
  hashes := .ofDocuments [{
    id := "hash", processedHash := "stripped", createdAt := 0, bucketId := "bucket",
    path := "hash", iv := "nonce", metadata := .file, contentType := "image/png", size := 17 }]
  objects := HashMap.put ("bucket", "hash") "nonce" ∅
  now := 7200000

def imageClaim : FileClaim where
  id := "image"
  tag := "attachments"
  usedFor := { objectType := .message, id := "message" }
  uploaderId := "alice"

def imagePool (other : FileCall) : FilePool (Option Bool) where
  calls
    | none => .claiming imageClaim
    | some true => .pruner
    | some false => other
  store := { store := imageStore, pruning := .fetching, deletion := .fetching }

theorem imagePool_begun : (imagePool .clock).Begun where
  consistent := consistent_of_documents (by decide +kernel) (by decide +kernel)
  pruning := rfl
  deletion := rfl
  calls := by rintro (_ | _ | _) <;> rfl

/-- The pruner comes too late if the claim has written before it looks. -/
theorem claimed_file_kept_from_pruner :
    ((imagePool .clock).step FileCall.next none).calls none =
        .found imageClaim unclaimedImage ∧
      ∀ later, Pool.Reaches FileCall.next (Unreleased "image")
        ((imagePool .clock).run FileCall.next [none, none]) later →
        later.store.store.Kept "image" := by
  have found : ((imagePool .clock).step next none).calls none =
      .found imageClaim unclaimedImage := rfl
  refine ⟨found, ?_⟩
  apply (claimed_file_kept_iff imagePool_begun ⟨some true, rfl⟩ ⟨some false, rfl⟩
    (.single ⟨none, rfl, rfl⟩) found).mpr
  exact ⟨⟨unclaimedImage, rfl, by decide⟩, by decide +kernel⟩

/-- The claim looks, the pruner lists the file, and the claim returns. -/
def imageClaimed : FilePool (Option Bool) :=
  (imagePool .deleter).run FileCall.next [none, some true, some true, none]

/-- The pruner marks what it has listed, and the deletion task goes through its
operations. -/
def imageLost : FilePool (Option Bool) :=
  imageClaimed.run FileCall.next
    [some true, some false, some false, some false, some false, some false, some false]

/-- The claim has returned, its row is used and not marked, and later the row,
the record and the object are gone. -/
theorem claimed_file_destroyed :
    imageClaimed.calls none = .claimed (.ok unclaimedImage) ∧
      imageClaimed.store.store.row "image" = some { unclaimedImage with
        usedFor := some { objectType := .message, id := "message" }, uploaderId := some "alice" } ∧
      imageLost.store.store.row "image" = none ∧
      imageLost.store.store.hashes.find "hash" = none ∧
      imageLost.store.store.objects.lookup ("bucket", "hash") = none := by
  refine ⟨rfl, ?_⟩
  decide +kernel

end Claims

/-! ## Claims of one file

Claims that have found the file before one of them writes all return it, and the last one to write
is the owner. -/

section Exclusive

variable {ι : Type} [DecidableEq ι] {id : String} {start pool : FilePool ι} {i j : ι}

def FileCall.Claims (id : String) : FileCall → Prop
  | .claiming claim | .found claim _ => claim.id = id
  | .claimed _ => True
  | _ => False

def FileCall.succeeded : FileCall → Bool
  | .claimed result => result.isOk
  | _ => false

/-- If the call is a claim that writes, the file that it has found is still
unused. -/
def FileCall.inTime (store : FileStore) : FileCall → Bool
  | .found claim _ => (store.findUnusedAttachment claim.id claim.tag).isSome
  | _ => true

structure FilePool.Exclusive (pool : FilePool ι) (id : String) : Prop where
  claims : ∀ i, (pool.calls i).Claims id
  taken : ∀ i, (pool.calls i).succeeded → ∀ tag, pool.store.store.findUnusedAttachment id tag = none
  unique : ∀ i j, (pool.calls i).succeeded → (pool.calls j).succeeded → i = j

theorem FileStore.findUnusedAttachment_useAttachment (store : FileStore) (id tag : String)
    (usedFor : FileUsedFor) (uploaderId : String) :
    (store.useAttachment id usedFor uploaderId).findUnusedAttachment id tag = none := by
  rw [findUnusedAttachment, row_useAttachment]
  cases store.row id <;> simp [Option.filter]

theorem FilePool.Exclusive.step (exclusive : pool.Exclusive id)
    (inTime : (pool.calls i).inTime pool.store.store) :
    FilePool.Exclusive (pool.step next i) id := by
  have claims := exclusive.claims i
  have taken := exclusive.taken
  have unique := @Pool.unique_step ι FileCall FileWorld _ next pool i
    (fun _ call => call.succeeded = true) exclusive.unique
  cases calls : pool.calls i with
  | claiming claim =>
    rw [calls] at claims
    have looked : (next (pool.calls i) pool.store).1.Claims id ∧
        (next (pool.calls i) pool.store).1.succeeded = false := by
      rw [calls, FileCall.next]
      cases pool.store.store.findUnusedAttachment claim.id claim.tag with
      | none => exact ⟨trivial, rfl⟩
      | some file => exact ⟨claims, rfl⟩
    rw [looked.2] at unique
    refine ⟨forall_step looked.1 fun j _ => exclusive.claims j, ?_,
      unique fun never => absurd never Bool.false_ne_true⟩
    rw [show (pool.step next i).store = pool.store by rw [Pool.step, calls, FileCall.next]]
    refine forall_step (P := fun _ (call : FileCall) => call.succeeded = true → _) ?_
      fun j _ => taken j
    rw [looked.2]
    exact fun never => absurd never Bool.false_ne_true
  | found claim file =>
    rw [calls] at claims inTime
    obtain rfl := claims
    -- a claim that has returned would have left nothing to be found
    have first : ∀ j, ¬ (pool.calls j).succeeded = true := by
      intro j succeeded
      rw [FileCall.inTime, taken j succeeded] at inTime
      cases inTime
    refine ⟨forall_step ?_ fun j _ => exclusive.claims j, ?_, unique fun _ j _ => first j⟩
    · rw [calls]
      trivial
    · rw [Pool.step, calls]
      exact fun _ _ _ => findUnusedAttachment_useAttachment ..
  | claimed result =>
    rw [step_eq_self]
    · exact exclusive
    · rw [calls, FileCall.next]
  | _ =>
    rw [calls] at claims
    exact claims.elim

/-- At most one claim of a file returns it, if the file is unused when a claim
writes. -/
theorem claims_exclusive
    (begun : ∀ i, ∃ claim, start.calls i = .claiming claim ∧ claim.id = id)
    (reached : Pool.Reaches FileCall.next (fun pool i => (pool.calls i).inTime pool.store.store)
      start pool)
    (left : (pool.calls i).succeeded) (right : (pool.calls j).succeeded) : i = j := by
  have started : start.Exclusive id := by
    have looking : ∀ i, (start.calls i).Claims id ∧ (start.calls i).succeeded = false := by
      intro i
      obtain ⟨claim, calls, own⟩ := begun i
      rw [calls]
      exact ⟨own, rfl⟩
    refine ⟨fun i => (looking i).1, fun i succeeded => ?_, fun i _ succeeded => ?_⟩
    all_goals cases (looking i).2.symm.trans succeeded
  have exclusive : pool.Exclusive id :=
    reached.invariant started fun _ _ exclusive inTime => FilePool.Exclusive.step exclusive inTime
  exact exclusive.unique i j left right

end Exclusive

def imageClaims : FilePool Bool where
  calls first := .claiming { imageClaim with
    usedFor := { objectType := .message, id := if first then "message" else "answer" } }
  store := { store := imageStore, pruning := .fetching, deletion := .fetching }

theorem claims_exclusive_inTurn :
    ((imageClaims.run FileCall.next [true, true, false, false]).calls true).succeeded ∧
      ∀ j, ((imageClaims.run FileCall.next [true, true, false, false]).calls j).succeeded →
        true = j := by
  have begun : ∀ i, ∃ claim, imageClaims.calls i = .claiming claim ∧ claim.id = "image" :=
    fun _ => ⟨_, rfl, rfl⟩
  exact ⟨rfl, fun _ => claims_exclusive begun (reaches_run (by decide +kernel)) rfl⟩

/-- Two messages claim one image. Both find it unused before either of them
writes, and both get it. -/
theorem claims_share_file :
    ((imageClaims.run FileCall.next [true, false, true, false]).calls true).succeeded ∧
      ((imageClaims.run FileCall.next [true, false, true, false]).calls false).succeeded := by
  decide +kernel

end Company
