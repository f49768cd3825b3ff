import CompanyBackend.Users.Relationships

/-!
# Relationships as a machine of two sides

Seen from the outside, an operation on two users moves a pair of statuses: that of the
acting user for the target, and that of the target for the acting user. `Operation.table`
is this machine on pairs. A request that runs alone follows it, so what holds for every
step of the machine holds after every sequence of requests: the two sides always match, and
only the user who blocked can undo it.

While one side blocks the other, neither of them gets more than a view of their direct
messages.
-/

namespace Company

open Request Operation Outcome List

/-- The pairs of statuses that belong together. -/
def Matched : RelationshipStatus → RelationshipStatus → Prop
  | .none, .none | .friend, .friend | .outgoing, .incoming | .incoming, .outgoing
  | .blocked, .blockedOther | .blockedOther, .blocked | .blocked, .blocked => True
  | _, _ => False

instance decidableMatched (x y : RelationshipStatus) : Decidable (Matched x y) := by
  unfold Matched
  split <;> infer_instance

/-- The new pair, for the acting side first. No request goes out if too many are
pending. -/
def Operation.table (full : Bool) :
    Operation → RelationshipStatus → RelationshipStatus → Option Statuses
  | .addFriend, .incoming, _ => some (.friend, .friend)
  | .addFriend, .none, _ => if full then none else some (.outgoing, .incoming)
  | .removeFriend, .friend, _ | .removeFriend, .outgoing, _ | .removeFriend, .incoming, _ =>
    some (.none, .none)
  | .blockUser, .blockedOther, _ => some (.blocked, .blocked)
  | .blockUser, .none, _ | .blockUser, .friend, _ | .blockUser, .incoming, _
  | .blockUser, .outgoing, _ => some (.blocked, .blockedOther)
  | .unblockUser, .blocked, .blocked => some (.blockedOther, .blocked)
  | .unblockUser, .blocked, .blockedOther => some (.none, .none)
  | _, _, _ => none

/-- The pair after an operation, the old one if it has no effect. -/
def Operation.next (full : Bool) (operation : Operation) (pair : Statuses) : Statuses :=
  (operation.table full pair.1 pair.2).getD pair

section Machine

variable {operation : Operation} {full : Bool} {pair : Statuses} {x y : RelationshipStatus}

theorem Matched.symm (matched : Matched x y) : Matched y x := by
  revert matched
  cases x <;> cases y <;> decide

/-- Operations lead from matching pairs to matching pairs. -/
theorem Operation.next_matched (matched : Matched pair.1 pair.2) :
    Matched (operation.next full pair).1 (operation.next full pair).2 := by
  obtain ⟨x, y⟩ := pair
  revert matched
  cases operation <;> cases full <;> cases x <;> cases y <;> decide

/-- The acting side stays blocked unless it unblocks. -/
theorem Operation.next_blocked (other : operation ≠ .unblockUser) (blocked : pair.1 = .blocked) :
    (operation.next full pair).1 = .blocked := by
  obtain ⟨x, y⟩ := pair
  cases blocked
  revert other
  cases operation <;> cases full <;> cases y <;> decide

/-- What the acting side does leaves the other side blocked. -/
theorem Operation.next_blocked_other (matched : Matched pair.1 pair.2)
    (blocked : pair.2 = .blocked) : (operation.next full pair).2 = .blocked := by
  obtain ⟨x, y⟩ := pair
  cases blocked
  revert matched
  cases operation <;> cases full <;> cases x <;> decide

theorem Operation.next_block (distinct : pair.1 ≠ .user) :
    (Operation.blockUser.next full pair).1 = .blocked := by
  obtain ⟨x, y⟩ := pair
  revert distinct
  cases full <;> cases x <;> cases y <;> decide

theorem Matched.ne_user (matched : Matched x y) : x ≠ .user := by
  rintro rfl
  cases y <;> exact matched

/-- A blocked pair has nothing but blocks. -/
theorem Matched.blocks (matched : Matched x y) (blocked : x = .blocked ∨ y = .blocked) :
    x = .blocked ∨ x = .blockedOther := by
  revert matched blocked
  cases x <;> cases y <;> decide

end Machine

/-- The operations decide by the two statuses and by the number of pending
requests. -/
theorem Operation.statuses_toOption (services : UserServices) (user target : User)
    (operation : Operation) :
    (operation.statuses services user target).toOption =
      operation.table (decide (services.outgoingFriendRequests user ≤ user.outgoingRequests))
        (user.relationshipWith target.id) (target.relationshipWith user.id) := by
  cases operation with
  | addFriend =>
    rw [statuses, User.addFriend]
    cases user.relationshipWith target.id <;> try rfl
    by_cases full : services.outgoingFriendRequests user ≤ user.outgoingRequests <;>
      simp [full, table, Except.toOption]
  | removeFriend =>
    rw [statuses, User.removeFriend]
    cases user.relationshipWith target.id <;> rfl
  | blockUser =>
    rw [statuses, User.blockUser]
    cases user.relationshipWith target.id <;> rfl
  | unblockUser =>
    rw [statuses, User.unblockUser]
    cases user.relationshipWith target.id <;> cases target.relationshipWith user.id <;> rfl

/-- Two stored users and their statuses for each other. -/
structure MongoDb.Pair (db : MongoDb) (a b : String) (pair : Statuses) : Prop where
  first : (db.users.find a).isSome
  second : (db.users.find b).isSome
  here : db.relationship a b = pair.1
  there : db.relationship b a = pair.2

def Sides (a b x y : String) : Prop := x = a ∧ y = b ∨ x = b ∧ y = a

/-- The store after a sequence of requests, each of which starts when the one
before has ended. -/
def performAll (services : UserServices) (now : Timestamp) (calls : List RelationshipCall)
    (db : MongoDb) : MongoDb :=
  calls.foldl (fun db call => (call.perform services now db).2) db

section Requests

variable {services : UserServices} {now : Timestamp} {db : MongoDb} {a b : String}
variable {pair : Statuses} {call : RelationshipCall} {calls : List RelationshipCall}

variable (stored : db.Pair a b pair)

include stored

theorem MongoDb.Pair.symm : db.Pair b a pair.swap :=
  ⟨stored.second, stored.first, stored.there, stored.here⟩

theorem MongoDb.Pair.write (distinct : a ≠ b) (statuses : Statuses) :
    ((db.setRelationship b a statuses.2).setRelationship a b statuses.1).Pair a b statuses := by
  obtain ⟨user, found⟩ := Option.isSome_iff_exists.mp stored.first
  obtain ⟨target, found'⟩ := Option.isSome_iff_exists.mp stored.second
  have later : (db.setRelationship b a statuses.2).users.find a = some user := by
    rw [find_setRelationship_ne distinct, found]
  refine ⟨?_, ?_, relationship_setRelationship distinct later, ?_⟩
  · rw [find_setRelationship later]
    rfl
  · rw [find_setRelationship_ne distinct.symm, find_setRelationship found']
    rfl
  · rw [relationship_setRelationship_ne distinct.symm,
      relationship_setRelationship distinct.symm found']

omit stored in
theorem User.into_readOnly (perspective : Option User) (user : User) :
    ReadOnly (user.into services now perspective) := by
  refine ReadOnly.bind ?_ fun _ => readOnly_pure _
  unfold User.shownTo
  split
  · exact readOnly_pure _
  · cases perspective with
    | none => exact readOnly_pure _
    | some other =>
      dsimp only
      split
      · exact readOnly_pure _
      · exact .read fun _ => readOnly_pure _

omit stored in
theorem User.setRelationship_id (userB : String) (status : RelationshipStatus) (user : User) :
    (user.setRelationship userB status).id = user.id := by
  cases status <;> rfl

omit stored in
theorem applyRelationship_store (user target : User) (statuses : Statuses) :
    Outcome (applyRelationship services now user target statuses) db fun _ db' =>
      db' = (db.setRelationship target.id user.id statuses.2).setRelationship user.id target.id
        statuses.1 := by
  have told : ∀ user target, ReadOnly (tellBoth services now user target) := fun _ _ =>
    (User.into_readOnly _ _).bind fun _ => (User.into_readOnly _ _).bind fun _ => readOnly_pure _
  refine write_bind ?_ (by rintro _ ⟨⟩)
  rintro _ ⟨⟩
  refine write_bind ?_ (by rintro _ ⟨⟩)
  rintro _ ⟨⟩
  rw [User.setRelationship_id]
  exact of_readOnly (told _ _) fun _ => rfl

/-- A request on a stored pair takes one step of the machine. -/
theorem MongoDb.Pair.perform (distinct : a ≠ b)
    (services : UserServices) (now : Timestamp) (operation : Operation) :
    ∃ full, (RelationshipCall.perform services now ⟨operation, a, b⟩ db).2.Pair a b
      (operation.next full pair) := by
  obtain ⟨user, found⟩ := Option.isSome_iff_exists.mp stored.first
  obtain ⟨target, found'⟩ := Option.isSome_iff_exists.mp stored.second
  have userId : user.id = a := Collection.key_of_find found
  have targetId : target.id = b := Collection.key_of_find found'
  have here : user.relationshipWith b = pair.1 := by rw [← relationship_of_find found, stored.here]
  have there : target.relationshipWith a = pair.2 := by
    rw [← relationship_of_find found', stored.there]
  have decided := operation.statuses_toOption services user target
  rw [userId, targetId, here, there] at decided
  refine ⟨decide (services.outgoingFriendRequests user ≤ user.outgoingRequests), ?_⟩
  rw [Operation.next, ← decided]
  have fetched : ∀ {id : String} {user : User}, db.users.find id = some user →
      (db.fetchUser id).mapError Failure.error = .ok user := by
    intro id user found
    rw [MongoDb.fetchUser, found]
    rfl
  have outcome : Outcome (RelationshipCall.perform services now ⟨operation, a, b⟩) db fun _ db' =>
      db'.Pair a b (((operation.statuses services user target).toOption).getD pair) := by
    refine attempt_ok_bind (fetched found) ?_
    refine attempt_ok_bind (fetched found') ?_
    cases operation.statuses services user target with
    | error e => exact stored
    | ok statuses =>
      refine attempt_ok_bind (a := statuses) rfl (Outcome.intro ?_)
      intro _ db' applied
      rw [(applyRelationship_store user target statuses).elim applied, userId, targetId]
      exact stored.write distinct statuses
  exact outcome

variable (matched : Matched pair.1 pair.2)

include matched

/-- A request of either user keeps a matching pair, and keeps the block of the
user who does not undo it. -/
theorem MongoDb.Pair.step (distinct : a ≠ b) (services : UserServices) (now : Timestamp)
    (sides : Sides a b call.userId call.targetId) :
    ∃ pair', (call.perform services now db).2.Pair a b pair' ∧ Matched pair'.1 pair'.2 ∧
      (pair.1 = .blocked → call ≠ ⟨.unblockUser, a, b⟩ → pair'.1 = .blocked) := by
  obtain ⟨operation, userId, targetId⟩ := call
  rcases sides with ⟨rfl, rfl⟩ | ⟨rfl, rfl⟩
  · obtain ⟨full, taken⟩ := stored.perform distinct services now operation
    refine ⟨_, taken, next_matched matched, ?_⟩
    intro blocked other
    exact next_blocked (fun undone => other (by rw [undone])) blocked
  · obtain ⟨full, taken⟩ := stored.symm.perform distinct.symm services now operation
    have matched' : Matched pair.swap.1 pair.swap.2 := matched.symm
    refine ⟨_, taken.symm, (next_matched matched').symm, ?_⟩
    intro blocked _
    exact next_blocked_other matched' blocked

theorem MongoDb.Pair.performAll (distinct : a ≠ b) (services : UserServices) (now : Timestamp)
    (sides : ∀ call ∈ calls, Sides a b call.userId call.targetId) :
    ∃ pair', (performAll services now calls db).Pair a b pair' ∧ Matched pair'.1 pair'.2 ∧
      (pair.1 = .blocked → ⟨.unblockUser, a, b⟩ ∉ calls → pair'.1 = .blocked) := by
  induction calls generalizing db pair with
  | nil => exact ⟨pair, stored, matched, fun blocked _ => blocked⟩
  | cons call calls ih =>
    obtain ⟨next, stored', matched', kept⟩ :=
      stored.step matched distinct services now (sides call mem_cons_self)
    obtain ⟨final, reached, match_final, kept'⟩ :=
      ih stored' matched' fun other listed => sides other (mem_cons_of_mem _ listed)
    refine ⟨final, reached, match_final, ?_⟩
    intro blocked absent
    obtain ⟨first, rest⟩ := not_or.mp (mt mem_cons.mpr absent)
    exact kept' (kept blocked (Ne.symm first)) rest

/-- Once a user has blocked the other one, the block stays until the user undoes
it. -/
theorem MongoDb.Pair.performAll_block (distinct : a ≠ b) (services : UserServices)
    (now : Timestamp) {before rest : List RelationshipCall}
    (sides : ∀ call ∈ before ++ ⟨.blockUser, a, b⟩ :: rest, Sides a b call.userId call.targetId)
    (kept : ⟨.unblockUser, a, b⟩ ∉ rest) :
    (Company.performAll services now (before ++ ⟨.blockUser, a, b⟩ :: rest) db).relationship a b =
      .blocked := by
  obtain ⟨earlier, stored₁, matched₁, _⟩ := stored.performAll matched distinct services now
    fun call listed => sides call (mem_append_left _ listed)
  obtain ⟨full, stored₂⟩ := stored₁.perform distinct services now .blockUser
  have blocked := @next_block full earlier matched₁.ne_user
  obtain ⟨final, stored₃, _, stays⟩ := stored₂.performAll (next_matched matched₁) distinct
    services now fun call listed =>
      sides call (mem_append_right _ (mem_cons_of_mem _ listed))
  have run : Company.performAll services now (before ++ ⟨.blockUser, a, b⟩ :: rest) db =
      Company.performAll services now rest (RelationshipCall.perform services now
        ⟨.blockUser, a, b⟩ (Company.performAll services now before db)).2 := by
    rw [Company.performAll, foldl_append, foldl_cons]
    rfl
  rw [run, stored₃.here]
  exact stays blocked kept

end Requests

/-! ## Direct messages of the two users -/

namespace DatabasePermissionQuery

open PermissionQuery

variable {q : DatabasePermissionQuery} {message : DirectMessage} {target : User} {other : String}

theorem userRelationship_eq (selected : q.user = some target) (human : target.bot = none) :
    q.userRelationship = q.perspective.relationshipWith target.id := by
  rw [userRelationship, selected, User.relationshipWith]
  by_cases same : q.perspective.id = target.id
  · simp [same]
  · simp [same, human]
    rfl

/-- A block leaves nothing but the view of a direct message, whatever else the
two users have in common. -/
theorem calculateChannelPermissions_run_blocked
    (selected : q.channel = some (.directMessage message))
    (restricted : q.perspective.privileged = false)
    (takesPart : q.perspective.id ∈ message.recipients)
    (recipient : message.recipients.find? (fun id => id != q.perspective.id) = some other)
    (fetched : q.database.fetchUser other = .ok target) (distinct : q.perspective.id ≠ target.id)
    (human : target.bot = none)
    (blocks : q.perspective.relationshipWith target.id = .blocked ∨
      q.perspective.relationshipWith target.id = .blockedOther) :
    calculateChannelPermissions.run q =
      .ok ((DEFAULT_PERMISSION_VIEW_ONLY : PermissionValue), { q with user := some target }) := by
  have kind : q.getChannelType = .directMessage := by simp [getChannelType, selected]
  have part : q.areWePartOfTheChannel = true := by simp [areWePartOfTheChannel, selected, takesPart]
  have moved : PermissionQuery.setRecipientAsUser.run q =
      .ok ((), { q with user := some target }) := by
    simp [StateT.run, PermissionQuery.setRecipientAsUser, setRecipientAsUser, selected, recipient,
      fetched]
  have related : userRelationship { q with user := some target } =
      q.perspective.relationshipWith target.id := userRelationship_eq rfl human
  have calculated : calculateUserPermissions.run { q with user := some target } =
      .ok ((UserPermission.access.toU64 : PermissionValue), { q with user := some target }) := by
    rcases blocks with blocks | blocks <;>
      simp [calculateUserPermissions, areWePrivileged, areTheUsersSame, restricted, distinct,
        PermissionQuery.userRelationship, related, blocks, relationshipPermissions]
  have silent : (UserPermission.access.toU64 : PermissionValue).hasUserPermission .sendMessage =
      false := by decide
  simp [calculateChannelPermissions, calculateChannelPermissionsWith, areWePrivileged, restricted,
    PermissionQuery.getChannelType, kind, PermissionQuery.areWePartOfTheChannel, part, moved,
    calculated, silent]

end DatabasePermissionQuery

/-- A direct message between exactly these two users. -/
structure DirectMessage.Between (message : DirectMessage) (a b : String) : Prop where
  first : a ∈ message.recipients
  second : b ∈ message.recipients
  only : ∀ id ∈ message.recipients, id = a ∨ id = b

section DirectMessages

variable {db : MongoDb} {a b : String} {pair : Statuses} {message : DirectMessage}

theorem DirectMessage.Between.symm (between : message.Between a b) : message.Between b a :=
  ⟨between.second, between.first, fun id listed => (between.only id listed).symm⟩

theorem DirectMessage.Between.recipient (between : message.Between a b) (distinct : a ≠ b) :
    message.recipients.find? (fun id => id != a) = some b := by
  cases found : message.recipients.find? (fun id => id != a) with
  | none =>
    have same := List.find?_eq_none.mp found b between.second
    exact absurd (by simpa using same) distinct.symm
  | some id =>
    have other : id ≠ a := by simpa using List.find?_some found
    have listed := mem_of_find?_eq_some found
    rw [(between.only id listed).resolve_left other]

/-- While the stored pair has a block, the first user may only view the direct
message. -/
theorem MongoDb.Pair.directMessage (stored : db.Pair a b pair) (matched : Matched pair.1 pair.2)
    (distinct : a ≠ b) (blocked : pair.1 = .blocked ∨ pair.2 = .blocked)
    (between : message.Between a b) {user target : User} (found : db.users.find a = some user)
    (found' : db.users.find b = some target) (restricted : user.privileged = false)
    (human : target.bot = none) {reads : Database} (fetched : reads.fetchUser b = .ok target)
    (now : Timestamp) :
    ∃ q, PermissionQuery.calculateChannelPermissions.run
        ((DatabasePermissionQuery.new reads now user).withChannel (.directMessage message)) =
      .ok ((DEFAULT_PERMISSION_VIEW_ONLY : PermissionValue), q) := by
  have userId : user.id = a := Collection.key_of_find found
  have targetId : target.id = b := Collection.key_of_find found'
  have here : user.relationshipWith target.id = pair.1 := by
    rw [targetId, ← relationship_of_find found, stored.here]
  refine ⟨_, @DatabasePermissionQuery.calculateChannelPermissions_run_blocked _ message target b rfl
    restricted ?_ ?_ fetched ?_ human ?_⟩
  · exact userId ▸ between.first
  · exact userId ▸ between.recipient distinct
  · show user.id ≠ target.id
    rwa [userId, targetId]
  · show user.relationshipWith target.id = .blocked ∨
        user.relationshipWith target.id = .blockedOther
    rw [here]
    exact matched.blocks blocked

end DirectMessages

/-- After any sequence of operations of two users on each other, their statuses
match, a block stays until its author undoes it, and a block on either side
leaves both of them nothing but the view of their direct messages. -/
theorem relationships_stay_matched {services : UserServices} {now : Timestamp} {a b : String}
    {db : MongoDb} {calls : List RelationshipCall} (distinct : a ≠ b)
    (stored : (db.users.find a).isSome ∧ (db.users.find b).isSome)
    (start : Matched (db.relationship a b) (db.relationship b a))
    (sides : ∀ call ∈ calls, Sides a b call.userId call.targetId) :
    let after := performAll services now calls db
    Matched (after.relationship a b) (after.relationship b a) ∧
      (∀ x y before rest, Sides a b x y → calls = before ++ ⟨.blockUser, x, y⟩ :: rest →
        ⟨.unblockUser, x, y⟩ ∉ rest → after.relationship x y = .blocked) ∧
      (after.relationship a b = .blocked ∨ after.relationship b a = .blocked →
        ∀ x y user target message (reads : Database) instant, Sides a b x y →
          after.users.find x = some user → after.users.find y = some target →
          reads.fetchUser y = .ok target → user.privileged = false → target.bot = none →
          message.Between a b →
          ∃ q, PermissionQuery.calculateChannelPermissions.run
              ((DatabasePermissionQuery.new reads instant user).withChannel
                (.directMessage message)) =
            .ok ((DEFAULT_PERMISSION_VIEW_ONLY : PermissionValue), q)) := by
  intro after
  have first : db.Pair a b (db.relationship a b, db.relationship b a) :=
    ⟨stored.1, stored.2, rfl, rfl⟩
  obtain ⟨pair, reached, matched, _⟩ := first.performAll start distinct services now sides
  refine ⟨?_, ?_, ?_⟩
  · rw [reached.here, reached.there]
    exact matched
  · rintro x y before rest (⟨rfl, rfl⟩ | ⟨rfl, rfl⟩) rfl kept
    · exact first.performAll_block start distinct services now sides kept
    · exact first.symm.performAll_block start.symm distinct.symm services now
        (fun call listed => (sides call listed).symm) kept
  · intro blocked x y user target message reads instant either found found' fetched restricted human
      between
    rw [reached.here, reached.there] at blocked
    rcases either with ⟨rfl, rfl⟩ | ⟨rfl, rfl⟩
    · exact reached.directMessage matched distinct blocked between found found' restricted human
        fetched instant
    · exact reached.symm.directMessage matched.symm distinct.symm blocked.symm between.symm found
        found' restricted human fetched instant

/-! Two users who do not know each other yet. -/

def alice : User where
  id := "alice"

def bob : User where
  id := "bob"

def acquaintances : MongoDb where
  users := .ofDocuments [alice, bob]
  servers := .empty
  channels := .empty
  serverMembers := .empty
  attachments := .empty
  rolesKeyed := noServers_keyed

def quietServices : UserServices where
  isOnline _ := false
  getBadges _ := 0
  outgoingFriendRequests _ := 10

/-- A request, its acceptance, and a block that the other side answers with a
block. -/
def quarrel : List RelationshipCall :=
  [⟨.addFriend, "alice", "bob"⟩, ⟨.addFriend, "bob", "alice"⟩, ⟨.blockUser, "alice", "bob"⟩,
    ⟨.blockUser, "bob", "alice"⟩, ⟨.unblockUser, "bob", "alice"⟩]

theorem relationships_stay_matched_sample :
    (performAll quietServices 0 quarrel acquaintances).relationship "alice" "bob" = .blocked ∧
      (performAll quietServices 0 quarrel acquaintances).relationship "bob" "alice" =
        .blockedOther := by
  have sides : ∀ call ∈ quarrel, Sides "alice" "bob" call.userId call.targetId := by
    unfold Sides
    decide
  have held := @relationships_stay_matched quietServices 0 "alice" "bob" acquaintances quarrel
    (by decide) (by decide) (by decide) sides
  refine ⟨?_, by decide +kernel⟩
  exact held.2.1 "alice" "bob" [_, _] [_, _] (.inl ⟨rfl, rfl⟩) rfl (by decide)

end Company
