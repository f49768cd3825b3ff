import CompanyBackend.Library.Interleaving
import CompanyBackend.Users.Sequential

/-!
# Relationships under concurrency

Each write of a status is atomic, an operation is not: it decides on records that it has
loaded, and it writes two documents one after the other. Operations that overlap may leave
statuses that do not match. Operations that do not overlap never do, in whatever order they
come.
-/

namespace Company

open MongoDb

/-- How far an operation has come, with the records that it has loaded. -/
inductive RelationshipProgress where
  | begun (call : RelationshipCall)
  | loaded (call : RelationshipCall) (user : User)
  | decided (user target : User) (statuses : Statuses)
  | targetWritten (user target : User) (status : RelationshipStatus)
  | finished (result : Result Unit)
  deriving DecidableEq

namespace RelationshipProgress

/-- The next access to the database: two loads, the decision with the second of
them, and two writes. -/
def next (services : UserServices) : RelationshipProgress → MongoDb → RelationshipProgress × MongoDb
  | begun call, db =>
    match db.fetchUser call.userId with
    | .ok user => (loaded call user, db)
    | .error e => (finished (.error e), db)
  | loaded call user, db =>
    match db.fetchUser call.targetId with
    | .ok target =>
      match call.operation.statuses services user target with
      | .ok statuses => (decided user target statuses, db)
      | .error e => (finished (.error e), db)
    | .error e => (finished (.error e), db)
  | decided user target statuses, db =>
    (targetWritten user target statuses.1, db.setRelationship target.id user.id statuses.2)
  | targetWritten user target status, db =>
    (finished (.ok ()), db.setRelationship user.id target.id status)
  | finished result, db => (finished result, db)

def isBegun : RelationshipProgress → Bool
  | begun _ => true
  | _ => false

/-- The operation has loaded a record and not yet ended. -/
def InProgress : RelationshipProgress → Prop
  | loaded _ _ | decided _ _ _ | targetWritten _ _ _ => True
  | begun _ | finished _ => False

instance decidableInProgress : (progress : RelationshipProgress) → Decidable progress.InProgress
  | loaded _ _ | decided _ _ _ | targetWritten _ _ _ => .isTrue trivial
  | begun _ | finished _ => .isFalse id

/-- What is known of the store while the operation of one of two users runs
alone. -/
def Tracks (a b : String) (db : MongoDb) : RelationshipProgress → Prop
  | begun call => Sides a b call.userId call.targetId
  | loaded call user =>
    Sides a b call.userId call.targetId ∧ db.users.find call.userId = some user ∧
      Matched (db.relationship a b) (db.relationship b a)
  | decided user target statuses =>
    Sides a b user.id target.id ∧ Matched statuses.1 statuses.2
  | targetWritten user target status =>
    Sides a b user.id target.id ∧ Matched status (db.relationship target.id user.id)
  | finished _ => True

end RelationshipProgress

open Request in
/-- An operation that runs alone is the request that was modelled in one
piece. -/
theorem RelationshipProgress.alone (services : UserServices) (now : Timestamp)
    (call : RelationshipCall) (db : MongoDb) :
    ((fun state => next services state.1 state.2)^[4] (begun call, db)).2 =
      (call.perform services now db).2 := by
  have outcome : Outcome (call.perform services now) db fun _ db' =>
      ((fun state => next services state.1 state.2)^[4] (begun call, db)).2 = db' := by
    simp only [Function.iterate_succ, Function.iterate_zero, Function.comp_apply, id]
    apply Outcome.attempt_bind
    · intro user found
      simp only [next, mapError_eq_ok.mp found]
      apply Outcome.attempt_bind
      · intro target found'
        simp only [mapError_eq_ok.mp found']
        apply Outcome.attempt_bind
        · intro statuses decided
          simp only [mapError_eq_ok.mp decided]
          refine Outcome.intro ?_
          intro _ db' applied
          exact ((applyRelationship_store user target statuses).elim applied).symm
        · intro _ refused
          obtain ⟨e, decided, _⟩ := mapError_eq_error.mp refused
          simp only [decided]
      · intro _ missing
        obtain ⟨e, unknown, _⟩ := mapError_eq_error.mp missing
        simp only [unknown]
    · intro _ missing
      obtain ⟨e, unknown, _⟩ := mapError_eq_error.mp missing
      simp only [next, unknown]
  exact outcome

abbrev RelationshipPool (ι : Type) := Pool ι RelationshipProgress MongoDb

/-- An operation loads its first record only while no other one is in
progress. -/
def Serial {ι : Type} (pool : RelationshipPool ι) (i : ι) : Prop :=
  (pool.calls i).isBegun → ∀ j, ¬ (pool.calls j).InProgress

instance decidableSerial {ι : Type} [Fintype ι] (pool : RelationshipPool ι) (i : ι) :
    Decidable (Serial pool i) :=
  inferInstanceAs (Decidable ((pool.calls i).isBegun → ∀ j, ¬ (pool.calls j).InProgress))

/-- Two stored users whose statuses match whenever no operation is in
progress. -/
structure RelationshipPool.Ordered {ι : Type} (a b : String) (pool : RelationshipPool ι) :
    Prop where
  first : (pool.store.users.find a).isSome
  second : (pool.store.users.find b).isSome
  tracks : ∀ i, (pool.calls i).Tracks a b pool.store
  single : ∀ i j, (pool.calls i).InProgress → (pool.calls j).InProgress → i = j
  settled : (∀ i, ¬ (pool.calls i).InProgress) →
    Matched (pool.store.relationship a b) (pool.store.relationship b a)

section Races

open RelationshipProgress

variable {ι : Type} {services : UserServices} {a b : String} {pool : RelationshipPool ι}
variable {db db' : MongoDb} {progress : RelationshipProgress}

/-- An operation that is not in progress does not look at the store. -/
theorem RelationshipProgress.Tracks.of_idle (tracks : progress.Tracks a b db)
    (idle : ¬ progress.InProgress) : progress.Tracks a b db' := by
  cases progress with
  | begun call => exact tracks
  | finished result => trivial
  | _ => exact absurd trivial idle

variable {x y : String}

theorem Sides.matched (sides : Sides a b x y)
    (matched : Matched (db.relationship a b) (db.relationship b a)) :
    Matched (db.relationship x y) (db.relationship y x) := by
  rcases sides with ⟨rfl, rfl⟩ | ⟨rfl, rfl⟩
  · exact matched
  · exact matched.symm

theorem Sides.swap (sides : Sides a b x y) : Sides x y a b := by
  rcases sides with ⟨rfl, rfl⟩ | ⟨rfl, rfl⟩
  · exact .inl ⟨rfl, rfl⟩
  · exact .inr ⟨rfl, rfl⟩

theorem Sides.distinct (sides : Sides a b x y) (distinct : a ≠ b) : x ≠ y := by
  rcases sides with ⟨rfl, rfl⟩ | ⟨rfl, rfl⟩
  · exact distinct
  · exact distinct.symm

variable (ordered : pool.Ordered a b)

include ordered

theorem RelationshipPool.Ordered.present (sides : Sides a b x y) :
    (pool.store.users.find x).isSome ∧ (pool.store.users.find y).isSome := by
  rcases sides with ⟨rfl, rfl⟩ | ⟨rfl, rfl⟩
  · exact ⟨ordered.first, ordered.second⟩
  · exact ⟨ordered.second, ordered.first⟩

variable [DecidableEq ι] {i : ι}

/-- An operation takes a step while all others are idle. -/
theorem RelationshipPool.Ordered.replace (idle : ∀ j, j ≠ i → ¬ (pool.calls j).InProgress)
    (taken : next services (pool.calls i) pool.store = (progress, db'))
    (present : ∀ id, (db'.users.find id).isSome = (pool.store.users.find id).isSome)
    (tracks : progress.Tracks a b db')
    (settled : ¬ progress.InProgress → Matched (db'.relationship a b) (db'.relationship b a)) :
    RelationshipPool.Ordered a b (pool.step (next services) i) := by
  have store : (pool.step (next services) i).store = db' := by rw [Pool.step, taken]
  have self : (pool.step (next services) i).calls i = progress := by rw [Pool.step_self, taken]
  have alone : ∀ j, ((pool.step (next services) i).calls j).InProgress → j = i := by
    intro j busy
    by_contra other
    rw [Pool.step_ne other] at busy
    exact idle j other busy
  constructor
  · rw [store, present]
    exact ordered.first
  · rw [store, present]
    exact ordered.second
  · rw [store]
    refine Pool.forall_step ?_ ?_
    · rwa [taken]
    · intro j other
      exact (ordered.tracks j).of_idle (idle j other)
  · intro j k busy busy'
    rw [alone j busy, alone k busy']
  · intro quiet
    rw [store]
    exact settled (self ▸ quiet i)

variable {operation : Operation} {statuses : Statuses}

omit ordered in
theorem Operation.table_matched {full : Bool} {x y : RelationshipStatus} (matched : Matched x y)
    (decided : operation.table full x y = some statuses) : Matched statuses.1 statuses.2 := by
  have moved := @Operation.next_matched operation full (x, y) matched
  rwa [Operation.next, decided] at moved

omit ordered in
/-- What an operation decides on matching records is a matching pair. -/
theorem Operation.statuses_matched {user target : User}
    (matched : Matched (user.relationshipWith target.id) (target.relationshipWith user.id))
    (decided : operation.statuses services user target = .ok statuses) :
    Matched statuses.1 statuses.2 := by
  have tabled := operation.statuses_toOption services user target
  rw [decided] at tabled
  exact Operation.table_matched matched tabled.symm

/-- The second load: the operation decides on what is stored. -/
theorem RelationshipPool.Ordered.load {call : RelationshipCall} {user : User}
    (reached : pool.calls i = .loaded call user) (idle : ∀ j, j ≠ i → ¬ (pool.calls j).InProgress) :
    RelationshipPool.Ordered a b (pool.step (next services) i) := by
  obtain ⟨sides, found, matched⟩ : Tracks a b pool.store (.loaded call user) :=
    reached ▸ ordered.tracks i
  have failed : ∀ e, next services (pool.calls i) pool.store = (.finished (.error e), pool.store) →
      RelationshipPool.Ordered a b (pool.step (next services) i) := fun _ taken =>
    ordered.replace idle taken (fun _ => rfl) trivial fun _ => matched
  cases fetched : pool.store.fetchUser call.targetId with
  | error e => exact failed e (by simp only [reached, next, fetched])
  | ok target =>
    cases decided : call.operation.statuses services user target with
    | error e => exact failed e (by simp only [reached, next, fetched, decided])
    | ok statuses =>
      have found' := orNotFound_eq_ok.mp fetched
      have userId : user.id = call.userId := Collection.key_of_find found
      have targetId : target.id = call.targetId := Collection.key_of_find found'
      have agreed : Matched (user.relationshipWith target.id)
          (target.relationshipWith user.id) := by
        rw [userId, targetId, ← relationship_of_find found, ← relationship_of_find found']
        exact sides.matched matched
      have taken : next services (pool.calls i) pool.store =
          (.decided user target statuses, pool.store) := by
        simp only [reached, next, fetched, decided]
      refine ordered.replace idle taken (fun _ => rfl) ⟨?_, ?_⟩ fun idle => absurd trivial idle
      · rwa [userId, targetId]
      · exact Operation.statuses_matched agreed decided

/-- A step of an operation that starts while no other one is in progress, or has
started so. -/
theorem RelationshipPool.Ordered.step (distinct : a ≠ b) (i : ι)
    (serial : Serial pool i) : RelationshipPool.Ordered a b (pool.step (next services) i) := by
  have alone : (pool.calls i).InProgress → ∀ j, j ≠ i → ¬ (pool.calls j).InProgress := by
    intro busy j other busy'
    exact other (ordered.single j i busy' busy)
  have tracks := ordered.tracks i
  have kept : ∀ (userId targetId : String) (status : RelationshipStatus) (id : String),
      ((pool.store.setRelationship userId targetId status).users.find id).isSome =
        (pool.store.users.find id).isSome :=
    fun _ _ _ _ => isSome_find_setRelationship
  cases reached : pool.calls i with
  | begun call =>
    rw [reached] at tracks
    have idle := serial (by rw [reached]; rfl)
    have matched := ordered.settled idle
    cases fetched : pool.store.fetchUser call.userId with
    | error e =>
      have taken : next services (pool.calls i) pool.store =
          (.finished (.error e), pool.store) := by
        simp only [reached, next, fetched]
      exact ordered.replace (fun j _ => idle j) taken (fun _ => rfl) trivial fun _ => matched
    | ok user =>
      have taken : next services (pool.calls i) pool.store = (.loaded call user, pool.store) := by
        simp only [reached, next, fetched]
      refine ordered.replace (fun j _ => idle j) taken (fun _ => rfl) ?_ fun _ => matched
      exact ⟨tracks, orNotFound_eq_ok.mp fetched, matched⟩
  | loaded call user => exact ordered.load reached (alone (reached ▸ trivial))
  | decided user target statuses =>
    rw [reached] at tracks
    obtain ⟨sides, matched⟩ := tracks
    obtain ⟨stored, found⟩ := Option.isSome_iff_exists.mp (ordered.present sides).2
    have taken : next services (pool.calls i) pool.store =
        (.targetWritten user target statuses.1,
          pool.store.setRelationship target.id user.id statuses.2) := by
      simp only [reached, next]
    refine ordered.replace (alone (reached ▸ trivial)) taken (kept _ _ _) ⟨sides, ?_⟩
      fun idle => absurd trivial idle
    rwa [relationship_setRelationship (sides.distinct distinct).symm found]
  | targetWritten user target status =>
    rw [reached] at tracks
    obtain ⟨sides, matched⟩ := tracks
    obtain ⟨stored, found⟩ := Option.isSome_iff_exists.mp (ordered.present sides).1
    have taken : next services (pool.calls i) pool.store =
        (.finished (.ok ()), pool.store.setRelationship user.id target.id status) := by
      simp only [reached, next]
    refine ordered.replace (alone (reached ▸ trivial)) taken (kept _ _ _) trivial fun _ => ?_
    refine sides.swap.matched ?_
    rwa [relationship_setRelationship (sides.distinct distinct) found,
      relationship_setRelationship_ne (sides.distinct distinct).symm]
  | finished result =>
    rw [Pool.step_eq_self (by simp only [reached, next])]
    exact ordered

end Races

/-- Operations of two users on each other, in any interleaving in which each
starts to load while no other one is in progress, leave statuses that match. -/
theorem serial_relationships_match {ι : Type} [DecidableEq ι] {services : UserServices}
    {a b : String} {start pool : RelationshipPool ι} (distinct : a ≠ b)
    (stored : (start.store.users.find a).isSome ∧ (start.store.users.find b).isSome)
    (matched : Matched (start.store.relationship a b) (start.store.relationship b a))
    (begun : ∀ i, ∃ call, start.calls i = .begun call ∧ Sides a b call.userId call.targetId)
    (reached : Pool.Reaches (RelationshipProgress.next services) Serial start pool)
    (ended : ∀ i, ∃ result, pool.calls i = .finished result) :
    Matched (pool.store.relationship a b) (pool.store.relationship b a) := by
  have idle : ∀ i, ¬ (start.calls i).InProgress := by
    intro i busy
    obtain ⟨call, waits, _⟩ := begun i
    rw [waits] at busy
    exact busy
  have first : RelationshipPool.Ordered a b start := by
    refine ⟨stored.1, stored.2, ?_, fun i _ busy => absurd busy (idle i), fun _ => matched⟩
    intro i
    obtain ⟨call, waits, sides⟩ := begun i
    rw [waits]
    exact sides
  have last : RelationshipPool.Ordered a b pool :=
    reached.invariant first fun _ i ordered serial => ordered.step distinct i serial
  apply last.settled
  intro i busy
  obtain ⟨result, done⟩ := ended i
  rw [done] at busy
  exact busy

/-! Two users who send each other a friend request. -/

def crossedRequests : RelationshipPool Bool where
  calls
    | true => .begun ⟨.addFriend, "alice", "bob"⟩
    | false => .begun ⟨.addFriend, "bob", "alice"⟩
  store := acquaintances

/-- One request after the other: the second one accepts the first. -/
def acceptance : RelationshipPool Bool :=
  crossedRequests.run (RelationshipProgress.next quietServices)
    [true, true, true, true, false, false, false, false]

theorem serial_relationships_match_sample :
    Matched (acceptance.store.relationship "alice" "bob")
        (acceptance.store.relationship "bob" "alice") ∧
      acceptance.store.relationship "alice" "bob" = .friend := by
  have reached : Pool.Reaches (RelationshipProgress.next quietServices) Serial crossedRequests
      acceptance := Pool.reaches_run (by decide +kernel)
  have ended : ∀ i, acceptance.calls i = .finished (.ok ()) := by decide +kernel
  refine ⟨?_, by decide +kernel⟩
  apply @serial_relationships_match Bool _ quietServices "alice" "bob" crossedRequests acceptance
  · decide
  · decide
  · decide
  · intro i
    cases i with
    | true => exact ⟨_, rfl, .inl ⟨rfl, rfl⟩⟩
    | false => exact ⟨_, rfl, .inr ⟨rfl, rfl⟩⟩
  · exact reached
  · intro i
    exact ⟨_, ended i⟩

def crossing : RelationshipPool Bool :=
  crossedRequests.run (RelationshipProgress.next quietServices)
    [true, true, false, false, true, false, true, false]

/-- Both requests have read the users before either of them writes. Each user
ends up waiting for an answer of the other. -/
theorem crossed_requests_mismatch :
    Matched (crossedRequests.store.relationship "alice" "bob")
        (crossedRequests.store.relationship "bob" "alice") ∧
      Pool.Reaches (RelationshipProgress.next quietServices) (fun _ _ => True) crossedRequests
        crossing ∧
      (∀ i, crossing.calls i = .finished (.ok ())) ∧
      crossing.store.relationship "alice" "bob" = .outgoing ∧
      crossing.store.relationship "bob" "alice" = .outgoing ∧
      ¬ Matched (crossing.store.relationship "alice" "bob")
        (crossing.store.relationship "bob" "alice") := by
  refine ⟨by decide, Pool.reaches_run (Pool.admits_any _), ?_, ?_, ?_, ?_⟩ <;> decide +kernel

end Company
