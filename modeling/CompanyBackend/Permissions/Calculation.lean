import CompanyBackend.Permissions.Database

/-!
# Closed forms of the permission calculations

Run on a `DatabasePermissionQuery`, the calculations against a server, a group and
a server channel are pure functions of the documents involved. The run lemmas say
which value is returned and which documents the query holds afterwards; later
proofs use them and never unfold the monadic calculations.

At one bit, the value of a member in a server channel is the resolution of one
stack of layers, with the timeout and the `ViewChannel` check applied to it.
-/

namespace Company

/-- Privileged, or the owner of the server. -/
def User.unrestricted (user : User) (server : Server) : Bool :=
  user.privileged || server.owner == user.id

/-- The server value of a member before the timeout is applied. -/
def memberServerValue (server : Server) (member : Member) : PermissionValue :=
  let permissions := (PermissionValue.ofI64 server.defaultPermissions).applyAll
    (orderedOverrides (server.rankedOverrides member.roles))
  let permissions :=
    if !member.canPublish then
      (permissions.revoke ChannelPermission.speak.toU64).revoke ChannelPermission.video.toU64
    else permissions
  if !member.canReceive then permissions.revoke ChannelPermission.listen.toU64 else permissions

variable (now : Timestamp) (server : Server)

def restrictTimeout (member : Member) (permissions : PermissionValue) : PermissionValue :=
  if member.inTimeout now then permissions.restrict ALLOW_IN_TIMEOUT else permissions

def memberServerPermissions (member : Member) : PermissionValue :=
  restrictTimeout now member (memberServerValue server member)

/-- The server calculation for a user with the member document that is known for
it. -/
def serverPermissions (user : User) (member : Option Member) : PermissionValue :=
  if user.unrestricted server then .ofChannelPermission .grantAllSafe
  else
    match member with
    | some member => memberServerPermissions now server member
    | none => (0 : UInt64)

def TextChannel.defaultOverride (channel : TextChannel) : Override :=
  (channel.defaultPermissions.getD {}).toOverride

/-- The channel value of a member before the final `ViewChannel` check. -/
def memberChannelPermissions (channel : TextChannel) (member : Member) : PermissionValue :=
  restrictTimeout now member
    (((memberServerPermissions now server member).apply channel.defaultOverride).applyAll
      (orderedOverrides (channel.rankedOverrides server member.roles)))

def textChannelPermissions (check : PermissionValue → PermissionValue) (now : Timestamp)
    (server : Server) (channel : TextChannel) (user : User) (member : Option Member) :
    PermissionValue :=
  if user.unrestricted server then .ofChannelPermission .grantAllSafe
  else
    match member with
    | some member => check (memberChannelPermissions now server channel member)
    | none => (0 : UInt64)

def groupPermissions (group : Group) (user : User) : PermissionValue :=
  if user.privileged || group.owner == user.id || group.moderators.contains user.id then
    .ofChannelPermission .grantAllSafe
  else if group.recipients.contains user.id then
    (DEFAULT_PERMISSION_VIEW_ONLY ||| group.memberPermissions : UInt64)
  else (0 : UInt64)

namespace DatabasePermissionQuery

open PermissionQuery

variable {q : DatabasePermissionQuery} {server : Server} {channel : TextChannel} {group : Group}
variable {check : PermissionValue → PermissionValue}

/-- The query after the server calculation: a member that was needed is kept. -/
def afterServer (q : DatabasePermissionQuery) (server : Server) : DatabasePermissionQuery :=
  { q with member := if q.perspective.unrestricted server then q.member else q.knownMember server }

section

variable (known : q.server = some server)

include known

theorem areWeAMember_run : PermissionQuery.areWeAMember.run q =
      .ok ((q.knownMember server).isSome, { q with member := q.knownMember server }) := by
  obtain ⟨database, now, perspective, user, channel, _, member, cu, cm, cp⟩ := q
  cases known
  cases member with
  | some member => rfl
  | none =>
    simp only [StateT.run, PermissionQuery.areWeAMember, areWeAMember, knownMember, Option.none_or]
    cases (database.fetchMember server.id perspective.id).toOption <;> rfl

/-- For a known server, the calculation is the closed form and keeps the member
it needed. -/
theorem calculateServerPermissions_run : calculateServerPermissions.run q =
      .ok (serverPermissions q.now server q.perspective (q.knownMember server),
        q.afterServer server) := by
  have asked := areWeAMember_run known
  unfold serverPermissions afterServer User.unrestricted
  obtain ⟨database, now, perspective, user, channel, _, member, cu, cm, cp⟩ := q
  cases known
  generalize knownMember _ server = found at asked ⊢
  cases privileged : perspective.privileged with
  | true => simp [calculateServerPermissions, areWePrivileged, privileged]
  | false =>
    by_cases owner : server.owner = perspective.id
    · simp [calculateServerPermissions, areWePrivileged, areWeServerOwner, privileged, owner]
    · cases found with
      | none =>
        simp [calculateServerPermissions, areWePrivileged, areWeServerOwner, privileged, owner,
          asked]
      | some member =>
        cases timedOut : member.inTimeout now <;>
          simp [calculateServerPermissions, areWePrivileged, areWeServerOwner, privileged, owner,
            asked, getDefaultServerPermissions, PermissionQuery.getOurServerRoleOverrides,
            doWeHavePublishOverwrites, doWeHaveReceiveOverwrites, areWeTimedOut, timedOut,
            memberServerPermissions, restrictTimeout, memberServerValue] <;> rfl

/-- The member branch of a server channel, once the member is known. -/
theorem calculateMemberChannelPermissions_run {member : Member}
    (selected : q.channel = some (.textChannel channel))
    (joined : q.member = some member) (restricted : q.perspective.unrestricted server = false) :
    calculateMemberChannelPermissions.run q =
      .ok (memberChannelPermissions q.now server channel member, q) := by
  have calculated := calculateServerPermissions_run known
  have found : q.knownMember server = some member := by simp [knownMember, joined]
  have same : q.afterServer server = q := by
    simp only [afterServer, restricted, found, ← joined]
    rfl
  rw [same, found, serverPermissions, restricted] at calculated
  obtain ⟨database, now, perspective, user, _, _, _, cu, cm, cp⟩ := q
  cases known
  cases selected
  cases joined
  cases timedOut : member.inTimeout now <;>
    simp [calculateMemberChannelPermissions, calculated, 
      PermissionQuery.getDefaultChannelPermissions, PermissionQuery.getOurChannelRoleOverrides,
      areWeTimedOut, timedOut, memberChannelPermissions, restrictTimeout] <;> rfl

end

/-- The query after the calculation against a server channel of `server`. -/
def afterTextChannel (q : DatabasePermissionQuery) (server : Server) : DatabasePermissionQuery :=
  if q.perspective.privileged then q else { q with server := some server }.afterServer server

section

variable (selected : q.channel = some (.textChannel channel))

include selected

/-- For a server channel whose server is found, the calculation is the closed
form. -/
theorem calculateChannelPermissionsWith_run_text
    (located : q.setServerFromChannel = .ok { q with server := some server }) :
    (calculateChannelPermissionsWith check).run q =
      .ok (textChannelPermissions check q.now server channel q.perspective (q.knownMember server),
        q.afterTextChannel server) := by
  cases privileged : q.perspective.privileged with
  | true =>
    simp [calculateChannelPermissionsWith, areWePrivileged, privileged, textChannelPermissions,
      User.unrestricted, afterTextChannel]
  | false =>
    have kind : q.getChannelType = .serverChannel := by simp [getChannelType, selected]
    have moved : PermissionQuery.setServerFromChannel.run q =
        .ok ((), { q with server := some server }) := by
      simp [StateT.run, PermissionQuery.setServerFromChannel, located]
    by_cases owner : server.owner = q.perspective.id
    · simp [calculateChannelPermissionsWith, areWePrivileged, PermissionQuery.getChannelType,
        areWeServerOwner, privileged, kind, moved, owner, textChannelPermissions,
        User.unrestricted, afterTextChannel, afterServer]
    · have restricted : q.perspective.unrestricted server = false := by
        simp [User.unrestricted, privileged, owner]
      have asked := areWeAMember_run (q := { q with server := some server }) rfl
      have same : knownMember { q with server := some server } server = q.knownMember server := rfl
      rw [same] at asked
      have final : q.afterTextChannel server =
          { q with server := some server, member := q.knownMember server } := by
        simp [afterTextChannel, afterServer, privileged, restricted, same]
      rw [final]
      cases found : q.knownMember server with
      | none =>
        simp [calculateChannelPermissionsWith, areWePrivileged, PermissionQuery.getChannelType,
          areWeServerOwner, privileged, kind, moved, owner, asked, found,
          textChannelPermissions, restricted]
      | some member =>
        rw [found] at asked
        have calculated : calculateMemberChannelPermissions.run
            { q with server := some server, member := some member } =
            .ok (memberChannelPermissions q.now server channel member,
              { q with server := some server, member := some member }) :=
          calculateMemberChannelPermissions_run rfl selected rfl restricted
        simp [calculateChannelPermissionsWith, areWePrivileged, PermissionQuery.getChannelType,
          areWeServerOwner, privileged, kind, moved, owner, asked, calculated,
          textChannelPermissions, restricted]

theorem setServerFromChannel_known
    (known : q.server = some server) (same : channel.server = server.id) :
    q.setServerFromChannel = .ok { q with server := some server } := by
  obtain ⟨database, now, perspective, user, _, _, member, cu, cm, cp⟩ := q
  cases selected
  cases known
  simp [setServerFromChannel, same]

theorem setServerFromChannel_fetched
    (unknown : q.server = none) (found : q.database.fetchServer channel.server = .ok server) :
    q.setServerFromChannel = .ok { q with server := some server } := by
  simp [setServerFromChannel, selected, unknown, found]

/-- Without its server, nobody but a privileged user has permissions in a
channel. -/
theorem calculateChannelPermissionsWith_run_unlocated (unknown : q.server = none)
    (missing : (q.database.fetchServer channel.server).toOption = none) :
    (calculateChannelPermissionsWith check).run q =
      .ok (if q.perspective.privileged then .ofChannelPermission .grantAllSafe else (0 : UInt64),
        q) := by
  have kind : q.getChannelType = .serverChannel := by simp [getChannelType, selected]
  have moved : PermissionQuery.setServerFromChannel.run q = .ok ((), q) := by
    cases fetched : q.database.fetchServer channel.server with
    | ok server =>
      rw [fetched] at missing
      cases missing
    | error e => simp [StateT.run, PermissionQuery.setServerFromChannel, setServerFromChannel,
        selected, unknown, fetched]
  have asked : PermissionQuery.areWeAMember.run q = .ok (false, q) := by
    simp [StateT.run, PermissionQuery.areWeAMember, areWeAMember, unknown]
  cases privileged : q.perspective.privileged <;>
    simp [calculateChannelPermissionsWith, areWePrivileged, PermissionQuery.getChannelType,
      areWeServerOwner, privileged, kind, moved, asked, unknown]

end

/-- A group calculation never fetches anything. -/
theorem calculateChannelPermissionsWith_run_group (selected : q.channel = some (.group group)) :
    (calculateChannelPermissionsWith check).run q =
      .ok (groupPermissions group q.perspective, q) := by
  have kind : q.getChannelType = .group := by simp [getChannelType, selected]
  have owns : q.doWeOwnTheChannel = (group.owner == q.perspective.id) := by
    simp [doWeOwnTheChannel, selected]
  have moderates : q.areWeAGroupModerator = group.moderators.contains q.perspective.id := by
    simp [areWeAGroupModerator, selected]
  have takesPart : q.areWePartOfTheChannel = group.recipients.contains q.perspective.id := by
    simp [areWePartOfTheChannel, selected]
  have default : q.getDefaultChannelPermissions = { allow := group.memberPermissions } := by
    simp [getDefaultChannelPermissions, selected]
  unfold groupPermissions
  cases privileged : q.perspective.privileged <;>
    by_cases owner : group.owner = q.perspective.id <;>
    by_cases moderator : q.perspective.id ∈ group.moderators <;>
    by_cases recipient : q.perspective.id ∈ group.recipients <;>
    simp [calculateChannelPermissionsWith, areWePrivileged, PermissionQuery.getChannelType,
      PermissionQuery.doWeOwnTheChannel, PermissionQuery.areWeAGroupModerator,
      PermissionQuery.areWePartOfTheChannel, PermissionQuery.getDefaultChannelPermissions, kind,
      owns, moderates, takesPart, default, privileged, owner, moderator, recipient]

end DatabasePermissionQuery

end Company
