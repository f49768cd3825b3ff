import CompanyBackend.Routes.Basic

/-!
# Joining and leaving a server

A member who leaves, or is kicked, loses the document, unless a timeout is running. Then the
document stays, marked for deletion at the end of the timeout and without the join date, the
nickname, the avatar and the roles. A user who joins again gets the marked document back, and a
clean-up job deletes the documents whose time has come.

So a timeout cannot be shed: until it ends, whatever the order of leaving, joining and
cleaning up, there is a document that carries it, and once the user has left, the document has
neither roles nor a nickname.

The channels that a new member sees, events and system messages are left out.
-/

namespace Company

open Request Collection MongoDb MemberDocument Option Route

namespace MemberDocument

/-- Take back a document that was marked for deletion. -/
def merged (joinedAt : Option Timestamp) (document : MemberDocument) : MemberDocument :=
  { document with joinedAt, pendingDeletionAt := none }

/-- Mark a document for deletion, and clear what a member has. -/
def softDeleted (pendingDeletionAt : Timestamp) (document : MemberDocument) : MemberDocument :=
  { document with
    pendingDeletionAt := some pendingDeletionAt
    joinedAt := none
    avatar := none
    nickname := none
    roles := [] }

theorem merged_id (joinedAt : Option Timestamp) (document : MemberDocument) :
    (document.merged joinedAt).id = document.id := rfl

theorem softDeleted_id (pendingDeletionAt : Timestamp) (document : MemberDocument) :
    (document.softDeleted pendingDeletionAt).id = document.id := rfl

end MemberDocument

variable {document : MemberDocument} {now : Timestamp}

namespace MongoDb

variable (db : MongoDb)

variable (id : MemberCompositeKey)

def mergeMember (joinedAt : Option Timestamp) : MongoDb :=
  { db with
    serverMembers := db.serverMembers.update id (.merged joinedAt) (merged_id _) }

def insertMember (member : Member) : MongoDb :=
  { db with serverMembers := db.serverMembers.insert (.ofMember member) }

def markMember (pendingDeletionAt : Timestamp) : MongoDb :=
  { db with
    serverMembers := db.serverMembers.update id (.softDeleted pendingDeletionAt)
      (softDeleted_id _) }

def forceDeleteMember : MongoDb :=
  { db with serverMembers := db.serverMembers.erase id }

theorem find_mergeMember (joinedAt : Option Timestamp) :
    (db.mergeMember id joinedAt).serverMembers.find id =
      (db.serverMembers.find id).map (.merged joinedAt) := by
  rw [mergeMember, find_update]

theorem find_markMember (pendingDeletionAt : Timestamp) :
    (db.markMember id pendingDeletionAt).serverMembers.find id =
      (db.serverMembers.find id).map (.softDeleted pendingDeletionAt) := by
  rw [markMember, find_update]

/-- Mark the document of a member in timeout for deletion, delete that of any
other. -/
def dropMember (now : Timestamp) (id : MemberCompositeKey) (timeout : Option Timestamp) : MongoDb :=
  match timeout with
  | some timeout => if timeout > now then db.markMember id timeout else db.forceDeleteMember id
  | none => db.forceDeleteMember id

variable {timeout : Option Timestamp} {id : MemberCompositeKey}

theorem dropMember_keeps {P : MongoDb → Prop} (kept : ∀ serverMembers, P { db with serverMembers })
    : P (db.dropMember now id timeout) := by
  rw [dropMember.eq_def]
  split
  · split
    · exact kept _
    · exact kept _
  · exact kept _

theorem find_dropMember_ne {key : MemberCompositeKey} (ne : key ≠ id) :
    (db.dropMember now id timeout).serverMembers.find key = db.serverMembers.find key := by
  rw [dropMember.eq_def]
  split
  · split
    · rw [markMember, find_update_ne ne]
    · exact find_erase_ne ne
  · exact find_erase_ne ne

theorem dropMember_marked
    (found : (db.dropMember now id timeout).serverMembers.find id = some document) :
    document.pendingDeletionAt.isSome := by
  have gone : (db.forceDeleteMember id).serverMembers.find id ≠ some document := by
    rw [forceDeleteMember, find_erase]
    rintro ⟨⟩
  rw [dropMember.eq_def] at found
  split at found
  · split at found
    · rw [find_markMember, map_eq_some_iff] at found
      obtain ⟨stored, _, rfl⟩ := found
      rfl
    · exact absurd found gone
  · exact absurd found gone

end MongoDb

/-- The document that the store returns, as a member. -/
def MemberDocument.decoded (document : MemberDocument) : Result Member :=
  match document.toMember with
  | some member => .ok member
  | none => .error (.databaseError "update_one" "server_members")

variable (readSeconds : Timestamp → Option Timestamp) (now : Timestamp)

/-- Insert a member, or take back the document that is marked for deletion. The
join date is then written as a number of seconds; `readSeconds` is what reading
it as a time gives. -/
def insertOrMergeMember (member : Member) : Route (Option Member) := do
  let existing ← fetch fun db => .ok (db.serverMembers.find member.id)
  match existing with
  | some document =>
    if document.pendingDeletionAt.isSome then do
      let joinedAt := readSeconds member.joinedAt
      update fun db => .ok (db.mergeMember member.id joinedAt)
      let updated ← lift (document.merged joinedAt).decoded
      return some updated
    else fail (.error (.databaseError "insert_one" "server_members"))
  | none => do
    update fun db => .ok (db.insertMember member)
    return none

section Merging

variable {readSeconds : Timestamp → Option Timestamp} {db : MongoDb} {member : Member}

theorem find_run : fetch (fun db => .ok (db.serverMembers.find member.id)) db =
    (.ok (db.serverMembers.find member.id), db) :=
  rfl

theorem insertOrMergeMember_fresh (fresh : db.serverMembers.find member.id = none) :
    insertOrMergeMember readSeconds member db = (.ok none, db.insertMember member) := by
  rw [insertOrMergeMember, bind_of_ok find_run, fresh]
  rfl

variable (found : db.serverMembers.find member.id = some document)

include found

/-- A document that is marked for deletion is taken back, even if it cannot be
read then. -/
theorem insertOrMergeMember_marked (marked : document.pendingDeletionAt.isSome) :
    insertOrMergeMember readSeconds member db =
      (((document.merged (readSeconds member.joinedAt)).decoded.map some).mapError .error,
        db.mergeMember member.id (readSeconds member.joinedAt)) := by
  rw [insertOrMergeMember, bind_of_ok find_run, found]
  dsimp only
  rw [if_pos marked]
  cases (document.merged (readSeconds member.joinedAt)).decoded with
  | ok updated | error e => rfl

theorem insertOrMergeMember_taken (unmarked : ¬document.pendingDeletionAt.isSome) :
    insertOrMergeMember readSeconds member db =
      (.error (.error (.databaseError "insert_one" "server_members")), db) := by
  rw [insertOrMergeMember, bind_of_ok find_run, found]
  dsimp only
  rw [if_neg unmarked]
  rfl

end Merging

def softDeleteMember (now : Timestamp) (id : MemberCompositeKey) : Route Unit := do
  let fetched ← result (fetch fun db => db.fetchMember id.server id.user)
  match fetched with
  | .ok member => update fun db => .ok (db.dropMember now id member.timeout)
  | .error _ => fail (.error (.databaseError "fetch_member" "server_members"))

/-- Delete the documents whose time has come. -/
def MongoDb.removeDanglingMembers (db : MongoDb) (now : Timestamp) : MongoDb :=
  { db with
    serverMembers := db.serverMembers.retain fun document =>
      !document.pendingDeletionAt.any fun pending => decide (pending < now) }

/-- Create a member, for a user who may be banned. -/
def Member.create (banned : Bool) (server user : String) : Route Member := do
  ensure (!banned) (.error .banned)
  let existing ← result (fetch fun db => db.fetchMember server user)
  ensure (!existing.isOk) (.error .alreadyInServer)
  let member : Member := { id := { server, user }, joinedAt := now }
  let updated ← insertOrMergeMember readSeconds member
  return updated.getD member

/-- Remove a member. The routes for leaving and for kicking fetch the member
first. -/
def Member.remove (now : Timestamp) (server user : String) : Route Unit := do
  let member ← fetch fun db => db.fetchMember server user
  softDeleteMember now member.id

/-- What happens to the members of the servers. -/
inductive MembershipEvent where
  | join (server user : String) (banned : Bool)
  /-- A user leaves or is kicked. -/
  | leave (server user : String)
  | cleanUp
  deriving DecidableEq, Repr

open Member

def MembershipEvent.run (db : MongoDb) : MembershipEvent → MongoDb
  | .join server user banned => (create readSeconds now banned server user db).2
  | .leave server user => (remove now server user db).2
  | .cleanUp => db.removeDanglingMembers now

/-- Events one after the other, each at its time. -/
def runMembership (events : List (Timestamp × MembershipEvent)) (db : MongoDb) : MongoDb :=
  events.foldl (fun db event => event.2.run readSeconds event.1 db) db

/-- A new document can be stored, or one that is marked can be taken back and
read. -/
def MongoDb.HasRoom (db : MongoDb) (key : MemberCompositeKey) : Prop :=
  ∀ document, db.serverMembers.find key = some document →
    document.pendingDeletionAt.isSome = true ∧ (readSeconds now).isSome = true

variable {readSeconds : Timestamp → Option Timestamp} {db : MongoDb}

section Creating

variable {now : Timestamp} {banned : Bool}
variable {server user : String} {db' : MongoDb} {member : Member}

theorem insertOrMergeMember_ok {updated : Option Member}
    (ran : insertOrMergeMember readSeconds member db = (.ok updated, db')) :
    db.HasRoom readSeconds member.joinedAt member.id ∧
      db'.fetchMember member.id.server member.id.user = .ok (updated.getD member) := by
  cases found : db.serverMembers.find member.id with
  | none =>
    cases (insertOrMergeMember_fresh found).symm.trans ran
    refine ⟨fun document other => ?_, ?_⟩
    · cases found.symm.trans other
    · exact fetchMember_eq_ok.mpr ⟨_, find_insert, rfl, rfl⟩
  | some document =>
    by_cases marked : document.pendingDeletionAt.isSome = true
    · obtain ⟨decoded, rfl⟩ := Prod.mk.inj
        ((insertOrMergeMember_marked found marked).symm.trans ran)
      have stored : (db.mergeMember member.id (readSeconds member.joinedAt)).serverMembers.find
          member.id = some (document.merged (readSeconds member.joinedAt)) := by
        rw [find_mergeMember, found, map_some]
      cases read : readSeconds member.joinedAt with
      | none =>
        rw [read] at decoded
        cases decoded
      | some joinedAt =>
        rw [read] at decoded stored
        cases decoded
        refine ⟨fun other same => ?_, fetchMember_eq_ok.mpr ⟨_, stored, rfl, rfl⟩⟩
        cases found.symm.trans same
        exact ⟨marked, by rw [read, isSome_some]⟩
    · cases (insertOrMergeMember_taken found marked).symm.trans ran

theorem insertOrMergeMember_of_room (room : db.HasRoom readSeconds member.joinedAt member.id) :
    (insertOrMergeMember readSeconds member db).1.isOk := by
  cases found : db.serverMembers.find member.id with
  | none =>
    rw [insertOrMergeMember_fresh found]
    rfl
  | some document =>
    obtain ⟨marked, readable⟩ := room document found
    obtain ⟨joinedAt, read⟩ := isSome_iff_exists.mp readable
    rw [insertOrMergeMember_marked found marked, read]
    rfl

theorem Member.create_ok (ran : create readSeconds now banned server user db = (.ok member, db')) :
    banned = false ∧ db.HasRoom readSeconds now { server, user } ∧
      db'.fetchMember server user = .ok member := by
  obtain ⟨unbanned, ran⟩ := of_ensure_bind_eq_ok ran
  obtain ⟨existing, middle, ⟨⟩, ran⟩ := of_bind_eq_ok ran
  replace ran := (of_ensure_bind_eq_ok ran).2
  obtain ⟨updated, last, written, ⟨⟩⟩ := of_bind_eq_ok ran
  exact ⟨by simpa using unbanned, insertOrMergeMember_ok written⟩

/-- Nothing else keeps a user from joining. -/
theorem Member.create_of_room (absent : (db.fetchMember server user).isOk = false)
    (room : db.HasRoom readSeconds now { server, user }) :
    (create readSeconds now false server user db).1.isOk := by
  obtain ⟨updated, written⟩ := exists_of_isOk
    (@insertOrMergeMember_of_room readSeconds db { id := { server, user }, joinedAt := now } room)
  have missing : (!((db.fetchMember server user).mapError Failure.error).isOk) = true := by
    rw [isOk_mapError, absent, Bool.not_false]
  rw [create, ensure_bind_of_met Bool.not_false, fetch, bind_of_ok (result_attempt_run ..),
    ensure_bind_of_met missing, bind_of_ok written]
  rfl

end Creating

section Steps

variable {now : Timestamp}
variable {server user : String} {banned : Bool}

/-- What an event may do to the document under a key. -/
inductive MembershipStep (now : Timestamp) (before after : Option MemberDocument) : Prop
  | keeps (same : after = before)
  /-- A user without a document joins. -/
  | inserts (fresh : before = none)
  /-- A document that is marked for deletion is taken back. -/
  | merges (document : MemberDocument) (joinedAt : Option Timestamp)
      (found : before = some document)
      (marked : document.pendingDeletionAt.isSome)
      (written : after = some (document.merged joinedAt))
  /-- A member in timeout leaves. -/
  | softDeletes (document : MemberDocument) (timeout : Timestamp) (found : before = some document)
      (unmarked : document.pendingDeletionAt = none) (running : document.timeout = some timeout)
      (written : after = some (document.softDeleted timeout))
  /-- A member who is not in timeout leaves. -/
  | deletes (document : MemberDocument) (found : before = some document)
      (unmarked : document.pendingDeletionAt = none)
      (free : ∀ timeout ∈ document.timeout, timeout ≤ now)
  /-- A document is cleaned up. -/
  | cleans (document : MemberDocument) (pending : Timestamp) (found : before = some document)
      (marked : document.pendingDeletionAt = some pending) (due : pending < now)

/-- Whether the document is marked or deleted, there is no member. -/
theorem MongoDb.fetchMember_dropMember (timeout : Option Timestamp) :
    ((db.dropMember now { server, user } timeout).fetchMember server user).isOk = false := by
  cases fetched : (db.dropMember now { server, user } timeout).fetchMember server user with
  | error e => rfl
  | ok member =>
    obtain ⟨document, found, unmarked, _⟩ := fetchMember_eq_ok.mp fetched
    have marked := dropMember_marked db found
    rw [unmarked] at marked
    cases marked

/-- What a request may do to the documents of the members. -/
def MembershipSteps (now : Timestamp) (db : MongoDb) {α : Type} (_ : Except Failure α)
    (db' : MongoDb) : Prop :=
  ∀ key, MembershipStep now (db.serverMembers.find key) (db'.serverMembers.find key)

theorem MembershipSteps.refl {α : Type} (r : Except Failure α) : MembershipSteps now db r db :=
  fun _ => .keeps rfl

open MembershipSteps

theorem insertOrMergeMember_steps (member : Member) :
    Outcome (insertOrMergeMember readSeconds member) db (MembershipSteps now db) := by
  unfold Outcome
  cases found : db.serverMembers.find member.id with
  | none =>
    rw [insertOrMergeMember_fresh found]
    intro key
    by_cases same : key = member.id
    · rw [same]
      exact .inserts found
    · exact .keeps (find_insert_ne same)
  | some document =>
    by_cases marked : document.pendingDeletionAt.isSome = true
    · rw [insertOrMergeMember_marked found marked]
      intro key
      by_cases same : key = member.id
      · rw [same]
        refine .merges document (readSeconds member.joinedAt) found marked ?_
        rw [find_mergeMember, found, map_some]
      · exact .keeps (by rw [mergeMember, find_update_ne same])
    · rw [insertOrMergeMember_taken found marked]
      exact refl _

theorem MongoDb.dropMember_steps {id : MemberCompositeKey}
    (found : db.serverMembers.find id = some document)
    (unmarked : document.pendingDeletionAt = none) (key : MemberCompositeKey) :
    MembershipStep now (db.serverMembers.find key)
      ((db.dropMember now id document.timeout).serverMembers.find key) := by
  have deletes : (∀ timeout ∈ document.timeout, timeout ≤ now) → MembershipStep now
      (db.serverMembers.find key) ((db.forceDeleteMember id).serverMembers.find key) := by
    intro free
    by_cases same : key = id
    · rw [same]
      exact .deletes document found unmarked free
    · exact .keeps (find_erase_ne same)
  cases set : document.timeout with
  | none =>
    refine deletes ?_
    rw [set]
    rintro _ ⟨⟩
  | some timeout =>
    rw [dropMember]
    by_cases running : timeout > now
    · rw [if_pos running]
      by_cases same : key = id
      · rw [same]
        refine .softDeletes document timeout found unmarked set ?_
        rw [find_markMember, found, map_some]
      · exact .keeps (by rw [markMember, find_update_ne same])
    · rw [if_neg running]
      refine deletes ?_
      rw [set]
      rintro _ ⟨⟩
      exact Int.not_lt.mp running

theorem softDeleteMember_steps (id : MemberCompositeKey) :
    Outcome (softDeleteMember now id) db (MembershipSteps now db) := by
  rw [softDeleteMember]
  apply Outcome.result_bind (R := fun r db' => db' = db ∧
    r = (db.fetchMember id.server id.user).mapError Failure.error) ⟨rfl, rfl⟩
  rintro _ db' ⟨rfl, rfl⟩
  cases fetched : db'.fetchMember id.server id.user with
  | error e => exact refl _
  | ok member =>
    obtain ⟨document, found, unmarked, decoded⟩ := fetchMember_eq_ok.mp fetched
    intro key
    show MembershipStep now _ ((db'.dropMember now id member.timeout).serverMembers.find key)
    rw [(toMember_eq_some decoded).2.1]
    exact dropMember_steps found unmarked key

theorem MongoDb.removeDanglingMembers_steps (key : MemberCompositeKey) :
    MembershipStep now (db.serverMembers.find key)
      ((db.removeDanglingMembers now).serverMembers.find key) := by
  rw [removeDanglingMembers, find_retain]
  cases found : db.serverMembers.find key with
  | none => exact .keeps rfl
  | some document =>
    cases marked : document.pendingDeletionAt with
    | none => exact .keeps (by simp [marked])
    | some pending =>
      by_cases due : pending < now
      · exact .cleans document pending rfl marked due
      · exact .keeps (by simpa [marked] using due)

/-- One lemma for all events: what they may do to a document. -/
theorem MembershipEvent.run_step (event : MembershipEvent) (key : MemberCompositeKey) :
    MembershipStep now (db.serverMembers.find key)
      ((event.run readSeconds now db).serverMembers.find key) := by
  cases event with
  | join server user banned =>
    have joins : Outcome (create readSeconds now banned server user) db
        (MembershipSteps now db) := by
      rw [create]
      apply Outcome.ensure_bind _ fun _ => refl _
      intro _
      refine Outcome.result_bind (R := fun _ db' => db' = db) (readOnly_attempt _ _) ?_
      rintro existing db' rfl
      apply Outcome.ensure_bind _ fun _ => refl _
      intro _
      apply Outcome.bind (insertOrMergeMember_steps _)
      · intro _ _ steps
        exact steps
      · intro _ _ steps
        exact steps
    exact joins key
  | leave server user =>
    have leaves : Outcome (remove now server user) db (MembershipSteps now db) := by
      rw [remove]
      apply Outcome.fetch_bind _ fun _ => refl _
      intro member _
      exact softDeleteMember_steps member.id
    exact leaves key
  | cleanUp => exact removeDanglingMembers_steps key

end Steps

/-! ## Whole runs -/

/-- The document carries a timeout. It is visible, or marked for deletion at the
end of the timeout. -/
structure MemberDocument.Held (t : Timestamp) (document : MemberDocument) : Prop where
  timeout : document.timeout = some t
  marked : ∀ pending ∈ document.pendingDeletionAt, pending = t

/-- Nothing is left of what the member had. -/
structure MemberDocument.Cleared (document : MemberDocument) : Prop where
  roles : document.roles = []
  nickname : document.nickname = none

section Runs

variable {t now : Timestamp}
variable {before after : Option MemberDocument}

/-- Before the timeout ends, every event leaves a document that carries it. A
cleared document stays cleared, and one that is not visible any more is
cleared. -/
theorem MembershipStep.held (step : MembershipStep now before after) (early : now < t)
    (found : before = some document) (held : document.Held t)
    (shown : document.pendingDeletionAt = none ∧ document.joinedAt.isSome ∨ document.Cleared) :
    ∃ document', after = some document' ∧ document'.Held t ∧
      (document.Cleared → document'.Cleared) ∧
      (document'.pendingDeletionAt = none ∧ document'.joinedAt.isSome ∨ document'.Cleared) := by
  cases step with
  | keeps same => exact ⟨document, same.trans found, held, id, shown⟩
  | inserts fresh =>
    rw [fresh] at found
    cases found
  | merges other joinedAt stored marked written =>
    cases found.symm.trans stored
    have cleared : document.Cleared := by
      refine shown.resolve_left ?_
      rintro ⟨unmarked, _⟩
      rw [unmarked] at marked
      cases marked
    refine ⟨_, written, ⟨held.timeout, ?_⟩, fun _ => ⟨cleared.roles, cleared.nickname⟩,
      .inr ⟨cleared.roles, cleared.nickname⟩⟩
    rintro _ ⟨⟩
  | softDeletes other ending stored unmarked running written =>
    cases found.symm.trans stored
    cases running.symm.trans held.timeout
    refine ⟨_, written, ⟨held.timeout, ?_⟩, fun _ => ⟨rfl, rfl⟩, .inr ⟨rfl, rfl⟩⟩
    rintro _ ⟨⟩
    rfl
  | deletes other stored unmarked free =>
    cases found.symm.trans stored
    exact absurd early (Int.not_lt.mpr (free t held.timeout))
  | cleans other pending stored marked due =>
    cases found.symm.trans stored
    rw [held.marked pending marked] at due
    exact absurd due (Int.not_lt.mpr (Int.le_of_lt early))

theorem runMembership_held {key : MemberCompositeKey}
    {events : List (Timestamp × MembershipEvent)} (early : ∀ event ∈ events, event.1 < t)
    (found : db.serverMembers.find key = some document) (held : document.Held t)
    (shown : document.pendingDeletionAt = none ∧ document.joinedAt.isSome ∨ document.Cleared) :
    ∃ document', (runMembership readSeconds events db).serverMembers.find key = some document' ∧
      document'.Held t ∧ (document.Cleared → document'.Cleared) ∧
      (document'.pendingDeletionAt = none ∧ document'.joinedAt.isSome ∨ document'.Cleared) := by
  induction events generalizing db document with
  | nil => exact ⟨document, found, held, id, shown⟩
  | cons event events ih =>
    obtain ⟨document₁, found₁, held₁, cleared₁, shown₁⟩ :=
      (event.2.run_step key).held (early event List.mem_cons_self) found held shown
    obtain ⟨document₂, found₂, held₂, cleared₂, shown₂⟩ :=
      ih (fun later member => early later (List.mem_cons_of_mem _ member)) found₁ held₁ shown₁
    exact ⟨document₂, found₂, held₂, fun cleared => cleared₂ (cleared₁ cleared), shown₂⟩

/-- A document that is not marked and has a join date is a member. -/
theorem MongoDb.fetchMember_of_shown {server user : String}
    (found : db.serverMembers.find { server, user } = some document)
    (unmarked : document.pendingDeletionAt = none) (joined : document.joinedAt.isSome) :
    ∃ member, db.fetchMember server user = .ok member := by
  obtain ⟨joinedAt, joined⟩ := isSome_iff_exists.mp joined
  simp [fetchMember, found, unmarked, MemberDocument.toMember, joined]

end Runs

/-- While a timeout is running, whatever the order in which users leave, join
and are cleaned up, there is a document that carries the timeout, and so does
the member whenever the user is one. A user who was no member at some point in
between has neither roles nor a nickname. -/
theorem timeout_survives_rejoining {readSeconds : Timestamp → Option Timestamp} {db : MongoDb}
    {server user : String} {member : Member} {t : Timestamp}
    (fetched : db.fetchMember server user = .ok member) (timeout : member.timeout = some t)
    {events : List (Timestamp × MembershipEvent)} (early : ∀ event ∈ events, event.1 < t) :
    (∃ document, (runMembership readSeconds events db).serverMembers.find { server, user } =
      some document ∧ document.timeout = some t) ∧
    ∀ member', (runMembership readSeconds events db).fetchMember server user = .ok member' →
      member'.timeout = some t ∧ ∀ before after, events = before ++ after →
        (∀ present, (runMembership readSeconds before db).fetchMember server user ≠ .ok present) →
          member'.roles = [] ∧ member'.nickname = none := by
  obtain ⟨document, found, unmarked, decoded⟩ := fetchMember_eq_ok.mp fetched
  have held : document.Held t := by
    refine ⟨(toMember_eq_some decoded).2.1.symm.trans timeout, ?_⟩
    rw [unmarked]
    rintro _ ⟨⟩
  have joined : document.joinedAt.isSome = true := by
    cases absent : document.joinedAt with
    | none => simp [MemberDocument.toMember, absent] at decoded
    | some joinedAt => rfl
  have shown : document.pendingDeletionAt = none ∧ document.joinedAt.isSome ∨ document.Cleared :=
    .inl ⟨unmarked, joined⟩
  obtain ⟨last, found', held', _, _⟩ := runMembership_held early found held shown
  refine ⟨⟨last, found', held'.timeout⟩, ?_⟩
  intro member' fetched'
  obtain ⟨document', stored, _, decoded'⟩ := fetchMember_eq_ok.mp fetched'
  cases found'.symm.trans stored
  obtain ⟨_, sameTimeout, sameRoles, sameNickname⟩ := toMember_eq_some decoded'
  refine ⟨sameTimeout.trans held'.timeout, ?_⟩
  rintro before after rfl absent
  obtain ⟨middle, foundMiddle, heldMiddle, _, shownMiddle⟩ :=
    runMembership_held (fun event inside => early event (List.mem_append_left _ inside)) found held
      shown
  have cleared : middle.Cleared := by
    refine shownMiddle.resolve_left ?_
    rintro ⟨unmarked, joined⟩
    obtain ⟨present, fetched⟩ := fetchMember_of_shown foundMiddle unmarked joined
    exact absent present fetched
  -- What comes after the absence starts from a cleared document.
  obtain ⟨document₂, found₂, _, cleared₂, _⟩ :=
    runMembership_held (fun event inside => early event (List.mem_append_right _ inside))
      foundMiddle heldMiddle shownMiddle
  have whole : (runMembership readSeconds (before ++ after) db).serverMembers.find
      { server, user } = some document₂ := by
    rw [runMembership, List.foldl_append]
    exact found₂
  cases found'.symm.trans whole
  exact ⟨sameRoles.trans (cleared₂ cleared).roles, sameNickname.trans (cleared₂ cleared).nickname⟩

/-! A moderator in timeout leaves, is not cleaned up, and joins again. -/

def silencedMember : Member where
  id := { server := "server", user := "staff-user" }
  nickname := some "The Boss"
  roles := ["staff"]
  timeout := some 1000

def silencedStore : MongoDb :=
  { sampleStore with serverMembers := .ofDocuments [.ofMember silencedMember] }

def returnEvents : List (Timestamp × MembershipEvent) :=
  [(10, .leave "server" "staff-user"), (20, .cleanUp), (30, .join "server" "staff-user" false)]

theorem timeout_survives_returning : ∃ member,
    (runMembership some returnEvents silencedStore).fetchMember "server" "staff-user" =
      .ok member ∧ member.timeout = some 1000 ∧ member.roles = [] ∧ member.nickname = none := by
  have fetched : silencedStore.fetchMember "server" "staff-user" = .ok silencedMember := rfl
  have returned :
      (runMembership some returnEvents silencedStore).fetchMember "server" "staff-user" =
      .ok { silencedMember with joinedAt := 30, nickname := none, roles := [] } := rfl
  obtain ⟨_, carries⟩ := @timeout_survives_rejoining some _ _ _ _ 1000 fetched rfl returnEvents
    (by decide)
  obtain ⟨timeout, cleared⟩ := carries _ returned
  have away : ∀ present, (runMembership some (returnEvents.take 1) silencedStore).fetchMember
      "server" "staff-user" ≠ .ok present := by
    intro present fetched
    cases fetched
  exact ⟨_, returned, timeout, cleared (returnEvents.take 1) (returnEvents.drop 1) rfl away⟩

end Company
