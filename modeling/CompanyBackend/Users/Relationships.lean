import CompanyBackend.Bonfire.Events
import CompanyBackend.Routes.Basic

/-!
# Relationships between users

A relationship is stored twice, once with each of the two users. An operation loads both
users, decides from the loaded records which status each side gets, writes the target
first and the acting user second, and tells both of them.

The decisions are kept apart from the writes: `Operation.statuses` is what an operation
computes from the records that it has loaded, and everything else is the same for all four
operations. Notifications of other services are left out.
-/

namespace Company

open Request

namespace User

variable (target : String) (status : RelationshipStatus) (user : User)

def pullRelation (user : User) : User :=
  { user with
    relations := user.relations.map fun relations =>
      relations.filter fun relation => relation.id != target }

/-- The user with a new relation at the end, in the place of an old one. -/
def pushRelation : User :=
  { user with
    relations := some ((user.relations.getD []).filter (fun relation => relation.id != target) ++
      [{ id := target, status }]) }

def setRelationship (userB : String) (status : RelationshipStatus) (user : User) : User :=
  match status with
  | .none | .user => user.pullRelation userB
  | status => user.pushRelation userB status

/-- The stored document after a change of a relationship: only `None` removes
it. -/
def storeRelationship : User :=
  match status with
  | .none => user.pullRelation target
  | status => user.pushRelation target status

theorem storeRelationship_id : (user.storeRelationship target status).id = user.id := by
  cases status <;> rfl

end User

namespace MongoDb

variable (db : MongoDb)

def setRelationship (userId targetId : String) (status : RelationshipStatus) : MongoDb :=
  { db with
    users := db.users.update userId (User.storeRelationship targetId status)
      (User.storeRelationship_id targetId status) }

def relationship (userId targetId : String) : RelationshipStatus :=
  ((db.users.find userId).map fun user => user.relationshipWith targetId).getD .none

end MongoDb

/-- The status of the acting user for the target, and that of the target for the
acting user. -/
abbrev Statuses := RelationshipStatus × RelationshipStatus

namespace User

def outgoingRequests (user : User) : Nat :=
  ((user.relations.getD []).filter fun relation => relation.status == .outgoing).length

/-- Add another user as a friend: the statuses that are applied. -/
def addFriend (limit : Nat) (user target : User) : Result Statuses :=
  match user.relationshipWith target.id with
  | .user => .error .noEffect
  | .friend => .error .alreadyFriends
  | .outgoing => .error .alreadySentRequest
  | .blocked => .error .blocked
  | .blockedOther => .error .blockedByOther
  | .incoming => .ok (.friend, .friend)
  | .none =>
    if limit ≤ user.outgoingRequests then .error (.tooManyPendingFriendRequests limit)
    else .ok (.outgoing, .incoming)

/-- Remove another user as a friend: the statuses that are applied. -/
def removeFriend (user target : User) : Result Statuses :=
  match user.relationshipWith target.id with
  | .friend | .outgoing | .incoming => .ok (.none, .none)
  | _ => .error .noEffect

/-- Block another user: the statuses that are applied. -/
def blockUser (user target : User) : Result Statuses :=
  match user.relationshipWith target.id with
  | .user | .blocked => .error .noEffect
  | .blockedOther => .ok (.blocked, .blocked)
  | .none | .friend | .incoming | .outgoing => .ok (.blocked, .blockedOther)

/-- Unblock another user: the statuses that are applied. -/
def unblockUser (user target : User) : Result Statuses :=
  match user.relationshipWith target.id with
  | .blocked =>
    match target.relationshipWith user.id with
    | .blocked => .ok (.blockedOther, .blocked)
    | .blockedOther => .ok (.none, .none)
    | _ => .error .internalError
  | _ => .error .noEffect

end User

inductive Operation where
  | addFriend | removeFriend | blockUser | unblockUser
  deriving DecidableEq, Repr

/-- What the operations ask of the rest of the backend. -/
structure UserServices where
  isOnline : (userId : String) → Bool
  getBadges : User → UInt32
  /-- The number of friend requests that a user may have pending. -/
  outgoingFriendRequests : User → Nat

variable (services : UserServices) (now : Timestamp)

/-- What an operation decides on the records that it has loaded. -/
def Operation.statuses (user target : User) : Operation → Result Statuses
  | .addFriend => user.addFriend (services.outgoingFriendRequests user) target
  | .removeFriend => user.removeFriend target
  | .blockUser => user.blockUser target
  | .unblockUser => user.unblockUser target

/-- An event and the topic on which it is published. -/
structure Published where
  topic : String
  event : EventV1

/-- The status as the API shows it, without one that says nothing. -/
def UserStatus.into (discardInvisible : Bool) (status : UserStatus) : Option UserStatus :=
  let presence :=
    if discardInvisible && status.presence == some .invisible then none else status.presence
  if status.text.isNone && presence.isNone then none else some { text := status.text, presence }

/-- The relationship that is shown with a user, and whether the profile may be
seen. -/
def User.shownTo (now : Timestamp) (perspective : Option User) (user : User) :
    Route (RelationshipStatus × Bool) :=
  if user.bot.isSome then pure (.none, true)
  else
    match perspective with
    | some perspective =>
      if perspective.id = user.id then pure (.user, true)
      else do
        let (permissions, _) ← Route.ask
          (fun db => (DatabasePermissionQuery.new db now perspective).withUser user)
          PermissionQuery.calculateUserPermissions
        let relation := (perspective.relations.getD []).find? fun relation =>
          relation.id == user.id
        return ((relation.map Relationship.status).getD .none,
          permissions.hasUserPermission .viewProfile)
    | none => pure (.none, false)

/-- The user as the API shows them to another user. -/
def User.into (perspective : Option User) (user : User) : Route ApiUser := do
  let (relationship, canSeeProfile) ← user.shownTo now perspective
  let invisible := (user.status.bind UserStatus.presence) == some .invisible
  let own := perspective.any fun other => other.id == user.id
  return {
    id := user.id
    username := user.username
    discriminator := user.discriminator
    displayName := user.displayName
    avatar := user.avatar
    relations := if own then user.relations.getD [] else []
    badges := services.getBadges user
    online := canSeeProfile && services.isOnline user.id && !invisible
    status := if canSeeProfile then user.status.bind (UserStatus.into true) else none
    flags := (user.flags.getD 0).toUInt32
    privileged := user.privileged
    bot := user.bot
    relationship
    presenceStyle := user.presenceStyle }

/-- The events after a change: each of the two users is told about the other. -/
def tellBoth (user target : User) : Route (List Published) := do
  let userForTarget ← user.into services now (some target)
  let targetForUser ← target.into services now (some user)
  return [
    { topic := privateTopic target.id, event := .userRelationship target.id userForTarget },
    { topic := privateTopic user.id, event := .userRelationship user.id targetForUser }]

/-- Store the statuses, the one of the target first, and tell both users. -/
def applyRelationship (user target : User) (statuses : Statuses) : Route (List Published) := do
  Route.update fun db => .ok (db.setRelationship target.id user.id statuses.2)
  let target := target.setRelationship user.id statuses.2
  Route.update fun db => .ok (db.setRelationship user.id target.id statuses.1)
  let user := user.setRelationship target.id statuses.1
  tellBoth services now user target

/-- An operation of one user on another. -/
structure RelationshipCall where
  operation : Operation
  userId : String
  targetId : String
  deriving DecidableEq, Repr

/-- A request that loads both users and runs the operation. -/
def RelationshipCall.perform (call : RelationshipCall) : Route (List Published) := do
  let user ← Route.fetch fun db => db.fetchUser call.userId
  let target ← Route.fetch fun db => db.fetchUser call.targetId
  let statuses ← Route.lift (call.operation.statuses services user target)
  applyRelationship services now user target statuses

section Writes

variable {user : User} {target other userId targetId : String} {status : RelationshipStatus}

theorem User.relationshipWith_pullRelation (distinct : user.id ≠ target) :
    (user.pullRelation target).relationshipWith target = .none := by
  have absent : ((user.pullRelation target).relations.getD []).find?
      (fun relation => relation.id == target) = none := by
    cases known : user.relations <;> simp [pullRelation, known]
  have sameId : (user.pullRelation target).id = user.id := rfl
  rw [relationshipWith, sameId, if_neg distinct, absent]

theorem User.relationshipWith_pushRelation (distinct : user.id ≠ target) :
    (user.pushRelation target status).relationshipWith target = status := by
  have found : ((user.pushRelation target status).relations.getD []).find?
      (fun relation => relation.id == target) = some { id := target, status } := by
    have replaced : ((user.relations.getD []).filter fun relation => relation.id != target).find?
        (fun relation => relation.id == target) = none := by simp
    rw [pushRelation, Option.getD_some, List.find?_append, replaced]
    simp
  have sameId : (user.pushRelation target status).id = user.id := rfl
  rw [relationshipWith, sameId, if_neg distinct, found]

namespace MongoDb

variable {db : MongoDb}

theorem relationship_of_find (found : db.users.find userId = some user) :
    db.relationship userId targetId = user.relationshipWith targetId := by
  rw [relationship, found]
  rfl

theorem find_setRelationship (found : db.users.find userId = some user) :
    (db.setRelationship userId targetId status).users.find userId =
      some (user.storeRelationship targetId status) := by
  rw [setRelationship, Collection.find_update, found, Option.map_some]

theorem find_setRelationship_ne (distinct : other ≠ userId) :
    (db.setRelationship userId targetId status).users.find other = db.users.find other := by
  rw [setRelationship, Collection.find_update_ne distinct]

theorem isSome_find_setRelationship :
    ((db.setRelationship userId targetId status).users.find other).isSome =
      (db.users.find other).isSome := by
  by_cases same : other = userId
  · subst same
    rw [setRelationship, Collection.find_update, Option.isSome_map]
  · rw [find_setRelationship_ne same]

theorem relationship_setRelationship (distinct : userId ≠ targetId)
    (found : db.users.find userId = some user) :
    (db.setRelationship userId targetId status).relationship userId targetId = status := by
  have own : user.id ≠ targetId := by rwa [Collection.key_of_find found]
  rw [relationship_of_find (find_setRelationship found)]
  cases status with
  | none => exact User.relationshipWith_pullRelation own
  | _ => exact User.relationshipWith_pushRelation own

theorem relationship_setRelationship_ne (distinct : other ≠ userId) (subject : String) :
    (db.setRelationship userId targetId status).relationship other subject =
      db.relationship other subject := by
  rw [relationship, find_setRelationship_ne distinct, relationship]

end MongoDb

end Writes

end Company
