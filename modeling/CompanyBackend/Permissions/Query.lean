import CompanyBackend.Database.Models

/-!
# Permission calculations over a query

The calculations are generic over the query that answers questions about the
perspective user. A query may fetch and cache documents while it answers, so each
question is a state transformer on the query itself, and it may panic.
-/

namespace Company

open UserPermission

/-- A question put to a query of type `Q`. -/
abbrev QueryM (Q : Type) := StateT Q (Except Panic)

namespace QueryM

variable {Q α β : Type}

/-- A question answered from the state of the query alone. -/
def answer (f : Q → α) : QueryM Q α := fun q => .ok (f q, q)

@[simp] theorem answer_run (f : Q → α) (q : Q) : (answer f).run q = .ok (f q, q) := rfl

@[simp] theorem ok_bind {ε : Type} (a : α) (f : α → Except ε β) : (Except.ok a >>= f) = f a := rfl

@[simp] theorem pure_eq_ok {ε : Type} (a : α) : (pure a : Except ε α) = .ok a := rfl

end QueryM

inductive ChannelType where
  | savedMessages | directMessage | group | serverChannel | unknown
  deriving DecidableEq, Repr

class PermissionQuery (Q : Type) where
  areWePrivileged : QueryM Q Bool
  areWeABot : QueryM Q Bool
  areTheUsersSame : QueryM Q Bool
  userRelationship : QueryM Q RelationshipStatus
  userIsBot : QueryM Q Bool
  haveMutualConnection : QueryM Q Bool
  areWeServerOwner : QueryM Q Bool
  areWeAMember : QueryM Q Bool
  getDefaultServerPermissions : QueryM Q UInt64
  getOurServerRoleOverrides : QueryM Q (List Override)
  areWeTimedOut : QueryM Q Bool
  doWeHavePublishOverwrites : QueryM Q Bool
  doWeHaveReceiveOverwrites : QueryM Q Bool
  getChannelType : QueryM Q ChannelType
  getDefaultChannelPermissions : QueryM Q Override
  getOurChannelRoleOverrides : QueryM Q (List Override)
  doWeOwnTheChannel : QueryM Q Bool
  areWeAGroupModerator : QueryM Q Bool
  areWePartOfTheChannel : QueryM Q Bool
  setRecipientAsUser : QueryM Q Unit
  setServerFromChannel : QueryM Q Unit

namespace PermissionQuery

variable {Q : Type} [PermissionQuery Q]

/-- The largest permission word, returned for unrestricted access to a user. -/
def u64Max : UInt64 := 0xFFFFFFFFFFFFFFFF

/-- Permissions that the relationship to the selected user settles or starts
from. -/
def relationshipPermissions : RelationshipStatus → PermissionValue ⊕ UInt64
  | .friend => .inl u64Max
  | .blocked | .blockedOther => .inl access.toU64
  | .incoming | .outgoing => .inr access.toU64
  | .none | .user => .inr 0

def calculateUserPermissions : QueryM Q PermissionValue := do
  if ← areWePrivileged then
    return (u64Max : PermissionValue)
  if ← areTheUsersSame then
    return (u64Max : PermissionValue)
  match relationshipPermissions (← userRelationship) with
  | .inl settled => return settled
  | .inr permissions =>
    if ← haveMutualConnection then
      let permissions := access.toU64 + viewProfile.toU64
      let bot ← do if ← userIsBot then pure true else areWeABot
      if bot then
        return (permissions + sendMessage.toU64 : UInt64)
      else
        return (permissions : PermissionValue)
    else
      return (permissions : PermissionValue)

def calculateServerPermissions : QueryM Q PermissionValue := do
  let unrestricted ← do if ← areWePrivileged then pure true else areWeServerOwner
  if unrestricted then
    return .ofChannelPermission .grantAllSafe
  if !(← areWeAMember) then
    return (0 : UInt64)
  let permissions : PermissionValue := (← getDefaultServerPermissions)
  let permissions := permissions.applyAll (← getOurServerRoleOverrides)
  let permissions :=
    if !(← doWeHavePublishOverwrites) then
      (permissions.revoke ChannelPermission.speak.toU64).revoke ChannelPermission.video.toU64
    else permissions
  let permissions :=
    if !(← doWeHaveReceiveOverwrites) then permissions.revoke ChannelPermission.listen.toU64
    else permissions
  if ← areWeTimedOut then
    return permissions.restrict ALLOW_IN_TIMEOUT
  else
    return permissions

/-- The server channel branch for a member, up to the final `ViewChannel`
check. -/
def calculateMemberChannelPermissions : QueryM Q PermissionValue := do
  let permissions ← calculateServerPermissions
  let permissions := permissions.apply (← getDefaultChannelPermissions)
  let permissions := permissions.applyAll (← getOurChannelRoleOverrides)
  if ← areWeTimedOut then
    return permissions.restrict ALLOW_IN_TIMEOUT
  else
    return permissions

/-- The final check of a server channel: without `ViewChannel` nothing is
granted. -/
def wipeUnlessViewable (permissions : PermissionValue) : PermissionValue :=
  if !permissions.hasChannelPermission .viewChannel then permissions.revokeAll else permissions

/-- The channel calculation with its final check of a server channel as a
parameter. -/
def calculateChannelPermissionsWith (check : PermissionValue → PermissionValue) :
    QueryM Q PermissionValue := do
  if ← areWePrivileged then
    return .ofChannelPermission .grantAllSafe
  match ← getChannelType with
  | .savedMessages =>
    if ← doWeOwnTheChannel then
      return (DEFAULT_PERMISSION_SAVED_MESSAGES : PermissionValue)
    else
      return (0 : UInt64)
  | .directMessage =>
    if ← areWePartOfTheChannel then
      setRecipientAsUser
      let permissions ← calculateUserPermissions
      if permissions.hasUserPermission .sendMessage then
        return (DEFAULT_PERMISSION_DIRECT_MESSAGE : PermissionValue)
      else
        return (DEFAULT_PERMISSION_VIEW_ONLY : PermissionValue)
    else
      return (0 : UInt64)
  | .group =>
    if ← doWeOwnTheChannel then
      return .ofChannelPermission .grantAllSafe
    else if ← areWeAGroupModerator then
      return .ofChannelPermission .grantAllSafe
    else if ← areWePartOfTheChannel then
      return (DEFAULT_PERMISSION_VIEW_ONLY ||| (← getDefaultChannelPermissions).allow : UInt64)
    else
      return (0 : UInt64)
  | .serverChannel =>
    setServerFromChannel
    if ← areWeServerOwner then
      return .ofChannelPermission .grantAllSafe
    else if ← areWeAMember then
      return check (← calculateMemberChannelPermissions)
    else
      return (0 : UInt64)
  | .unknown => return (0 : UInt64)

def calculateChannelPermissions : QueryM Q PermissionValue :=
  calculateChannelPermissionsWith wipeUnlessViewable

/-- The channel calculation stopped before the final `ViewChannel` check. -/
def calculateChannelPermissionsUnwiped : QueryM Q PermissionValue :=
  calculateChannelPermissionsWith id

end PermissionQuery

end Company
