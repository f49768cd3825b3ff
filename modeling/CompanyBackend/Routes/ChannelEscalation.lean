import CompanyBackend.Routes.ChannelPermissions

/-!
# Escalation through channel permissions

Who can gain a bit through an edit of channel permissions that the editor does not hold.

A role override is written at one place in the stack of everybody who holds the role. The
layers below it and above it stay, so a bit changes only where no later layer mentions it.
The check of the route looks at the permissions of the role on the server, which are another
layer, and so it leaves some of the bits that change unchecked. For the default of a server
channel the check compares with the layer that is replaced and the edit is safe; for a group
there is no check.
-/

namespace Company

open Request LayerStack MongoDb ChannelPermission TextChannel List RoleLayer

variable (channel : TextChannel)

variable (server : Server)

/-- The role layers of a channel that are applied before the layer of a role. -/
def TextChannel.earlierLayers (held : List String) (id : String) : List RoleLayer :=
  (orderedLayers (channel.roleLayers server held)).takeWhile fun l => l.id != id

/-- The role layers of a channel that are applied after the layer of a role. -/
def TextChannel.laterLayers (held : List String) (id : String) : List RoleLayer :=
  ((orderedLayers (channel.roleLayers server held)).dropWhile fun l => l.id != id).tail

section Split

variable {server : Server} {channel : TextChannel} {held : List String} {id : String}
variable {permissions : OverrideField} {role : Role}

/-- An override that is present is replaced in place. -/
theorem TextChannel.roleLayers_replaced {old : OverrideField}
    (current : channel.rolePermissions.lookup id = some old) :
    (channel.withRolePermissions id permissions).roleLayers server held =
      (channel.roleLayers server held).map (replace id permissions) := by
  rw [roleLayers, withRolePermissions, HashMap.entries_put_of_some current, filter_map,
    filterMap_map, roleLayers, map_filterMap,
    HashMap.keep_comp_edit held.contains id fun _ => permissions]
  apply filterMap_congr
  rintro ⟨key, value⟩ _
  rw [Function.comp_apply]
  by_cases same : id = key
  · subst same
    rw [if_pos rfl]
    cases server.roles.lookup id <;> simp [RoleLayer.replace]
  · rw [if_neg same]
    cases server.roles.lookup key <;> simp [RoleLayer.replace, Ne.symm same]

/-- A new override of a held role comes first. -/
theorem TextChannel.roleLayers_added (absent : channel.rolePermissions.lookup id = none)
    (holds : id ∈ held) (found : server.roles.lookup id = some role) :
    (channel.withRolePermissions id permissions).roleLayers server held =
      ⟨id, role.rank, permissions⟩ :: channel.roleLayers server held := by
  rw [roleLayers, withRolePermissions, HashMap.entries_put_of_none absent]
  simp [holds, found, roleLayers]

/-- The layers of a member who does not hold the role are the same. -/
theorem TextChannel.roleLayers_unheld (unheld : id ∉ held) :
    (channel.withRolePermissions id permissions).roleLayers server held =
      channel.roleLayers server held := by
  cases current : channel.rolePermissions.lookup id with
  | none =>
    rw [roleLayers, withRolePermissions, HashMap.entries_put_of_none current]
    simp [unheld, roleLayers]
  | some old =>
    rw [roleLayers_replaced current]
    conv => rhs; rw [← List.map_id (channel.roleLayers server held)]
    apply map_congr_left
    intro l member
    have other : l.id ≠ id := by
      rintro rfl
      exact unheld (mem_roleLayers.mp member).1
    simp [RoleLayer.replace, other]

/-- Writing an override puts one layer into the ordered layers, in place of the
current layer of the role if there is one. -/
theorem TextChannel.orderedLayers_withRolePermissions (holds : id ∈ held)
    (found : server.roles.lookup id = some role) :
    ∃ lower upper, (∀ l ∈ lower, l.id ≠ id) ∧
      orderedLayers ((channel.withRolePermissions id permissions).roleLayers server held) =
        lower ++ ⟨id, role.rank, permissions⟩ :: upper ∧
      orderedLayers (channel.roleLayers server held) =
        lower ++ (((channel.rolePermissions.lookup id).map fun current =>
          (⟨id, role.rank, current⟩ : RoleLayer)).toList ++ upper) := by
  cases current : channel.rolePermissions.lookup id with
  | none =>
    obtain ⟨lower, upper, added, others⟩ := Ranking.sortDescendingOn_cons_split rank
      ⟨id, role.rank, permissions⟩ (channel.roleLayers server held)
    refine ⟨lower, upper, ?_, ?_, others⟩
    · rintro l member rfl
      have listed : l ∈ channel.roleLayers server held := by
        rw [← (Ranking.sortDescendingOn_perm rank _).mem_iff, others]
        exact mem_append_left _ member
      have written := (mem_roleLayers.mp listed).2.1
      rw [current] at written
      cases written
    · rw [roleLayers_added current holds found]
      exact added
  | some old =>
    have listed : (⟨id, role.rank, old⟩ : RoleLayer) ∈
        orderedLayers (channel.roleLayers server held) := by
      rw [orderedLayers, (Ranking.sortDescendingOn_perm rank _).mem_iff]
      exact mem_roleLayers.mpr ⟨holds, current, role, found, rfl⟩
    obtain ⟨lower, upper, split⟩ := append_of_mem listed
    have ids : (lower ++ ⟨id, role.rank, old⟩ :: upper).Pairwise
        fun a b : RoleLayer => a.id ≠ b.id := by
      rw [← split]
      exact (Ranking.sortDescendingOn_perm rank _).symm.pairwise roleLayers_ids fun ne => ne.symm
    have keeps : ∀ l : RoleLayer, l.id ≠ id → l.replace id permissions = l := by
      intro l other
      simp [RoleLayer.replace, other]
    obtain ⟨_, rest, across⟩ := pairwise_append.mp ids
    have lowerOther : ∀ l ∈ lower, l.id ≠ id := fun l member =>
      across l member _ mem_cons_self
    have upperOther : ∀ l ∈ upper, l.id ≠ id := fun l member =>
      ((pairwise_cons.mp rest).1 l member).symm
    refine ⟨lower, upper, lowerOther, ?_, split⟩
    rw [roleLayers_replaced current, orderedLayers_replace, split, map_append, map_cons,
      map_congr_left fun l member => keeps l (lowerOther l member),
      map_congr_left fun l member => keeps l (upperOther l member), List.map_id',
      List.map_id']
    simp [RoleLayer.replace]

end Split

/-- The override that a role has in a channel, the empty one without an
entry. -/
def TextChannel.currentOverride (id : String) : Override :=
  ((channel.rolePermissions.lookup id).getD {}).toOverride

section

variable (channel : TextChannel) (member : Member) (id : String) (b : Bit)

/-- The layers of a bit that are applied between the server default and the
override of a role in a channel. -/
def layersBelowRole : List (Option Bool) :=
  serverStack server member b ++ channel.defaultOverride.layer b ::
    (channel.earlierLayers server member.roles id).map fun l => l.layer b

/-- The last layer that mentions the bit grants it, with the given layer as the
topmost. -/
def GrantedUpTo (top : Option Bool) : Prop :=
  LastSays (some (server.defaultBit b) :: (layersBelowRole server channel member id b ++ [top]))
    true

end

/-- The edit of a role override gives a bit to a member: the member holds the
role and is not held back by a timeout, no later layer mentions the bit, and the
layers up to the new override grant the bit, but those up to the current
override do not. -/
structure OpensBit (now : Timestamp) (server : Server) (channel : TextChannel) (roleId : String)
    (permissions : Override) (member : Member) (b : Bit) : Prop where
  holds : roleId ∈ member.roles
  allowed : member.inTimeout now = false ∨ hasBit ALLOW_IN_TIMEOUT b
  unmentioned : ∀ l ∈ (channel.withRolePermissions roleId permissions.toField).laterLayers server
    member.roles roleId, l.layer b = none
  granted : GrantedUpTo server (channel.withRolePermissions roleId permissions.toField) member
    roleId b (permissions.layer b)
  withheld : ¬ GrantedUpTo server (channel.withRolePermissions roleId permissions.toField) member
    roleId b ((channel.currentOverride roleId).layer b)

/-- The override that a role has on the server, with which the route compares
the new one. -/
def Server.roleOverride (id : String) : Override :=
  ((server.roles.lookup id).map Role.permissions |>.getD {}).toOverride

/-- The bits that the check of the route lets pass: the role allows the bit on
the server, or the bit is denied by the current override in the channel and not
by the role on the server. -/
def Unchecked (channel : TextChannel) (roleId : String) (b : Bit) : Prop :=
  (server.roleOverride roleId).layer b = some true ∨
    (channel.currentOverride roleId).layer b = some false ∧
      (server.roleOverride roleId).layer b ≠ some false

section Opens

variable {now : Timestamp} {server : Server} {channel : TextChannel} {member : Member} {b : Bit}
variable {roleId : String} {permissions : Override} {role : Role}

/-- Both stacks of a member who holds the role, split at the layer of the
role. -/
theorem granted_split (holds : roleId ∈ member.roles)
    (found : server.roles.lookup roleId = some role) (permissions : OverrideField) (b : Bit) :
    ∃ upper, upper = (channel.withRolePermissions roleId permissions).laterLayers server
        member.roles roleId ∧
      grantedByLayers server (channel.withRolePermissions roleId permissions) member b =
        resolve (resolve (server.defaultBit b) (layersBelowRole server
          (channel.withRolePermissions roleId permissions) member roleId b ++
            [permissions.toOverride.layer b])) (upper.map fun l => l.layer b) ∧
      grantedByLayers server channel member b =
        resolve (resolve (server.defaultBit b) (layersBelowRole server
          (channel.withRolePermissions roleId permissions) member roleId b ++
            [(channel.currentOverride roleId).layer b])) (upper.map fun l => l.layer b) := by
  obtain ⟨lower, upper, others, edited, before⟩ :=
    @orderedLayers_withRolePermissions server channel member.roles roleId permissions
      role holds found
  have earlier : (channel.withRolePermissions roleId permissions).earlierLayers server member.roles
      roleId = lower := by
    rw [earlierLayers, edited, takeWhile_append_of_pos (by simpa using others)]
    simp
  have later : (channel.withRolePermissions roleId permissions).laterLayers server member.roles
      roleId = upper := by
    rw [laterLayers, edited, dropWhile_append_of_pos (by simpa using others)]
    simp
  have sameDefault : (channel.withRolePermissions roleId permissions).defaultOverride =
      channel.defaultOverride := rfl
  refine ⟨upper, later.symm, ?_, ?_⟩
  · rw [grantedByLayers, channelStack, edited, layersBelowRole, earlier]
    simp [layer]
  · rw [grantedByLayers, channelStack, before, layersBelowRole, earlier, sameDefault]
    cases current : channel.rolePermissions.lookup roleId with
    | none => simp [currentOverride, current]
    | some old => simp [currentOverride, current, layer]

/-- The bits that a member gains by an edit are those that the edit opens. -/
theorem gained_iff_opensBit (found : server.roles.lookup roleId = some role) :
    (memberChannelPermissions now server (channel.withRolePermissions roleId permissions.toField)
        member).bit b ∧ (memberChannelPermissions now server channel member).bit b = false ↔
      OpensBit now server channel roleId permissions member b := by
  rw [memberChannelPermissions_bit, memberChannelPermissions_bit, Bool.and_eq_true]
  constructor
  · rintro ⟨⟨granted, allowed⟩, withheld⟩
    rw [allowed, Bool.and_true] at withheld
    have holds : roleId ∈ member.roles := by
      by_contra unheld
      have same : grantedByLayers server (channel.withRolePermissions roleId permissions.toField)
          member b = grantedByLayers server channel member b := by
        rw [grantedByLayers, grantedByLayers, channelStack, channelStack, roleLayers_unheld unheld]
        rfl
      rw [same, withheld] at granted
      cases granted
    obtain ⟨upper, later, edited, before⟩ :=
      @granted_split server channel member roleId role holds found permissions.toField b
    rw [edited] at granted
    rw [before] at withheld
    have silent : Silent (upper.map fun l => l.layer b) := by
      by_contra writes
      rw [resolve_eq_of_not_silent writes, withheld] at granted
      cases granted
    rw [resolve_of_silent silent] at granted withheld
    refine ⟨holds, (timeoutAllows_iff b).mp allowed, ?_, resolve_eq_iff.mp granted, ?_⟩
    · intro l member
      rw [← later] at member
      exact silent _ (mem_map_of_mem member)
    · intro grantedBefore
      rw [GrantedUpTo, ← resolve_eq_iff, withheld] at grantedBefore
      cases grantedBefore
  · intro opens
    obtain ⟨upper, later, edited, before⟩ :=
      @granted_split server channel member roleId role opens.holds found permissions.toField b
    have silent : Silent (upper.map fun l => l.layer b) := by
      intro layer member
      obtain ⟨l, listed, rfl⟩ := List.mem_map.mp member
      rw [later] at listed
      exact opens.unmentioned l listed
    have withheld := opens.withheld
    rw [GrantedUpTo, ← resolve_eq_iff, Bool.not_eq_true] at withheld
    rw [edited, before, resolve_of_silent silent, resolve_of_silent silent, withheld]
    exact ⟨⟨resolve_eq_iff.mpr opens.granted, (timeoutAllows_iff b).mpr opens.allowed⟩, rfl⟩

/-- An edit that passes the check opens only bits that the editor holds and
unchecked ones. -/
theorem OpensBit.unchecked (opens : OpensBit now server channel roleId permissions member b)
    (below : Below (permissions.layer b) ((server.roleOverride roleId).layer b)) :
    Unchecked server channel roleId b := by
  have granted := opens.granted
  have withheld := opens.withheld
  rw [GrantedUpTo, ← resolve_eq_iff, resolve_append, resolve_cons, resolve_nil] at granted withheld
  cases new : permissions.layer b with
  | none =>
    -- The layers below grant the bit, and it is the current override that denies it.
    rw [new] at granted below
    rw [Option.getD_none] at granted
    have kept := below (le_refl true)
    rw [granted] at withheld
    refine .inr ⟨?_, ?_⟩
    · cases current : (channel.currentOverride roleId).layer b <;> simp_all
    · rintro denied
      rw [denied] at kept
      exact absurd kept (by decide)
  | some value =>
    rw [new, Option.getD_some] at granted
    rw [new, granted] at below
    have raised := below (le_refl false)
    match own : (server.roleOverride roleId).layer b with
    | some true => exact .inl own
    | some false | none =>
      rw [own] at raised
      exact absurd raised (by decide)

end Opens

variable {voice : VoiceClient}

section RoleOverride

variable {now : Timestamp} {editor user : User} {target roleId : String}
variable {db db' : MongoDb} {server : Server} {channel : TextChannel} {member : Member}
variable {permissions : Override} {old new held : PermissionValue}

/-- Members are found in the same place after a channel document has changed. -/
theorem MongoDb.ChangesChannel.memberOf {before after : Channel}
    (changed : db.ChangesChannel db' target before after) (server : Server) (user : User) :
    db'.memberOf server user = db.memberOf server user := by
  rw [MongoDb.memberOf, MongoDb.memberOf, fetchMember, fetchMember, changed.serverMembers]

/-- An accepted override gives a member only bits that the editor holds, exactly
when the member is unrestricted or the editor holds every bit that the override
opens and that the check of the route lets pass. -/
theorem roleOverride_noEscalation_iff {result after : Channel}
    (ran : setRolePermissions voice now editor target roleId permissions db = (.ok result, db'))
    (channelStored : db.channels.find target = some (.textChannel channel))
    (serverStored : db.servers.find channel.server = some server)
    (channelAfter : db'.channels.find target = some after)
    (joined : db.memberOf server user = some member)
    (oldValue : db.CalculatesUnwiped now user (.textChannel channel) old)
    (newValue : db'.CalculatesUnwiped now user after new)
    (heldValue : db.CalculatesChannel now editor (.textChannel channel) held) :
    (∀ b, new.bit b → old.bit b = false → held.bit b) ↔
      user.unrestricted server ∨
        ∀ b, OpensBit now server channel roleId permissions member b →
          Unchecked server channel roleId b → held.bit b := by
  rcases (setRolePermissions_outcome permissions).elim ran with
    ⟨_, e, failed⟩ | ⟨server', text, role, accepts, written⟩
  · cases failed
  have sameChannel := channelStored.symm.trans accepts.channelStored
  cases sameChannel
  cases serverStored.symm.trans accepts.serverStored
  have changed := setChannelRolePermission_changes channelStored roleId permissions.toField
  rw [← written] at changed
  cases channelAfter.symm.trans changed.after
  have serverAfter : db'.servers.find
      (channel.withRolePermissions roleId permissions.toField).server = some server := by
    rw [changed.servers]
    exact serverStored
  rw [calculatesUnwiped_iff_text serverStored, joined] at oldValue
  rw [calculatesUnwiped_iff_text serverAfter, changed.memberOf, joined] at newValue
  rw [calculatesChannel_iff_text serverStored] at heldValue
  subst oldValue newValue heldValue
  cases restricted : user.unrestricted server with
  | true =>
    simp only [textChannelPermissions, restricted, if_true, true_or, iff_true]
    intro b gained lacked
    rw [gained] at lacked
    cases lacked
  | false =>
    simp only [textChannelPermissions, restricted, Bool.false_eq_true, if_false, id_eq, false_or]
    apply forall_congr'
    intro b
    rw [← and_imp, gained_iff_opensBit accepts.found]
    refine ⟨fun safe opens _ => safe opens, fun checked opens => ?_⟩
    by_contra lacking
    refine lacking (checked opens (opens.unchecked ?_))
    rw [Server.roleOverride, accepts.found]
    exact PermissionValue.layer_below_of_throwPermissionOverride accepts.granted
      (Bool.not_eq_true _ |>.mp lacking)

end RoleOverride

def announcements : TextChannel where
  id := "channel"
  server := "server"
  defaultPermissions := some { a := 0, d := sendMessage.toU64.toInt64 }

def talkativeServer : Server :=
  sampleServer.withRolePermissions "guest" { a := sendMessage.toU64.toInt64, d := 0 }

def announcementStore : MongoDb :=
  { sampleStore with
    servers := .ofDocuments [talkativeServer]
    channels := .ofDocuments [.textChannel announcements]
    rolesKeyed := by decide }

def letGuestsSend : Override where
  allow := sendMessage.toU64

def openedStore : MongoDb :=
  announcementStore.setChannelRolePermission "channel" "guest" letGuestsSend.toField

/-- Staff let guests write in the announcement channel, where staff cannot
write. -/
theorem letGuestsSend_accepted :
    setRolePermissions .disabled 0 staffUser "channel" "guest" letGuestsSend announcementStore =
      (.ok (.textChannel (announcements.withRolePermissions "guest" letGuestsSend.toField)),
        openedStore) := rfl

theorem roleOverride_noEscalation_iff_sample :
    (∀ b, (textChannelPermissions id 0 talkativeServer
          (announcements.withRolePermissions "guest" letGuestsSend.toField) guestUser
          (some guestMember)).bit b →
        (textChannelPermissions id 0 talkativeServer announcements guestUser
          (some guestMember)).bit b = false →
        (announcementStore.heldInChannel 0 staffUser talkativeServer announcements).bit b) ↔
      guestUser.unrestricted talkativeServer ∨
        ∀ b, OpensBit 0 talkativeServer announcements "guest" letGuestsSend guestMember b →
          Unchecked talkativeServer announcements "guest" b →
          (announcementStore.heldInChannel 0 staffUser talkativeServer announcements).bit b =
            true := by
  have serverStored : announcementStore.servers.find "server" = some talkativeServer := rfl
  have serverAfter : openedStore.servers.find "server" = some talkativeServer := rfl
  exact roleOverride_noEscalation_iff letGuestsSend_accepted rfl serverStored rfl rfl
    ((calculatesUnwiped_iff_text serverStored).mpr rfl)
    ((calculatesUnwiped_iff_text serverAfter).mpr rfl)
    ((calculatesChannel_iff_text serverStored).mpr rfl)

/-- An accepted override gives guests a bit that the editor does not hold: the
role allows it on the server, and this is what the route compares with. -/
theorem guests_gain_send :
    ¬ ∀ (editor user : User) (target roleId : String) (permissions : Override) (db db' : MongoDb)
        (server : Server) (channel : TextChannel) (member : Member) (result after : Channel)
        (old new held : PermissionValue),
      setRolePermissions .disabled 0 editor target roleId permissions db = (.ok result, db') →
      db.channels.find target = some (.textChannel channel) →
      db.servers.find channel.server = some server → db'.channels.find target = some after →
      db.memberOf server user = some member →
      db.CalculatesUnwiped 0 user (.textChannel channel) old →
      db'.CalculatesUnwiped 0 user after new →
      db.CalculatesChannel 0 editor (.textChannel channel) held →
      ∀ b, new.bit b → old.bit b = false → held.bit b := by
  intro safe
  have serverStored : announcementStore.servers.find "server" = some talkativeServer := rfl
  have serverAfter : openedStore.servers.find "server" = some talkativeServer := rfl
  have held :=
    safe staffUser guestUser "channel" "guest" letGuestsSend announcementStore openedStore
    talkativeServer announcements guestMember _ _ _ _ _ letGuestsSend_accepted rfl serverStored rfl
    rfl ((calculatesUnwiped_iff_text serverStored).mpr rfl)
    ((calculatesUnwiped_iff_text serverAfter).mpr rfl)
    ((calculatesChannel_iff_text serverStored).mpr rfl) 22 (by decide) (by decide)
  exact absurd held (by decide)

/-- A recipient of the group without a special standing in it. -/
structure Group.PlainRecipient (group : Group) (user : User) : Prop where
  recipient : user.id ∈ group.recipients
  unprivileged : user.privileged = false
  notOwner : group.owner ≠ user.id
  notModerator : user.id ∉ group.moderators

/-- The new value gives plain recipients only bits that they have or the editor
holds. -/
def Group.GrantsHeld (group : Group) (permissions : UInt64) (held : PermissionValue) : Prop :=
  ∀ b, hasBit permissions b = true → hasBit group.memberPermissions b = true ∨
    hasBit DEFAULT_PERMISSION_VIEW_ONLY b = true ∨ held.bit b = true

section DefaultPermissions

variable {now : Timestamp} {editor user : User} {target : String}
variable {db db' : MongoDb} {server : Server} {channel : TextChannel} {group : Group} {b : Bit}
variable {data : DataDefaultChannelPermissions} {old new held : PermissionValue}
variable {permissions : Override}

/-- A checked default override is below the current one on the bits the editor
lacks. -/
theorem defaultLayer_below (granted : held.throwPermissionOverride
      (channel.defaultPermissions.map OverrideField.toOverride) permissions = .ok ())
    (lacking : held.bit b = false) :
    Below (permissions.layer b) (channel.defaultOverride.layer b) := by
  cases current : channel.defaultPermissions with
  | some field =>
    rw [current] at granted
    rw [defaultOverride, current]
    exact PermissionValue.layer_below_of_throwPermissionOverride granted lacking
  | none =>
    rw [current] at granted
    have notAllowed : hasBit permissions.allow b = false := by
      by_contra allowed
      have granting := PermissionValue.allow_of_throwPermissionOverride granted
        (by simpa using allowed)
      rw [lacking] at granting
      cases granting
    have empty : channel.defaultOverride.layer b = none := by
      rw [defaultOverride, current]
      exact OverrideField.layer_default b
    rw [empty, Override.layer, notAllowed]
    intro value value' le
    cases hasBit permissions.deny b with
    | true => exact Bool.false_le _
    | false => exact le

/-- Lowering the default layer of a channel grants no member a bit. -/
theorem memberChannelPermissions_bit_le {permissions : OverrideField} {member : Member}
    (below : Below (permissions.toOverride.layer b) (channel.defaultOverride.layer b)) :
    (memberChannelPermissions now server
        (channel.withDefaultPermissions permissions) member).bit b ≤
      (memberChannelPermissions now server channel member).bit b := by
  have folded : grantedByLayers server (channel.withDefaultPermissions permissions) member b ≤
      grantedByLayers server channel member b := by
    rw [grantedByLayers, grantedByLayers, resolve_append, resolve_append]
    have same : channelStack server (channel.withDefaultPermissions permissions) member b =
        permissions.toOverride.layer b ::
          (orderedLayers (channel.roleLayers server member.roles)).map fun l => l.layer b := rfl
    rw [same, channelStack]
    refine resolve_mono (.cons below ?_) (le_refl _)
    rw [forall₂_same]
    exact fun layer _ => Below.refl layer
  rw [memberChannelPermissions_bit, memberChannelPermissions_bit]
  cases member.timeoutAllows now b with
  | false => simp
  | true => simpa using folded

theorem textChannelPermissions_bit_le {channel' : TextChannel}
    (below : ∀ member, (memberChannelPermissions now server channel' member).bit b ≤
      (memberChannelPermissions now server channel member).bit b) (member : Option Member) :
    (textChannelPermissions id now server channel' user member).bit b ≤
      (textChannelPermissions id now server channel user member).bit b := by
  cases restricted : user.unrestricted server with
  | true => simp [textChannelPermissions, restricted]
  | false =>
    cases member with
    | none => simp [textChannelPermissions, restricted]
    | some member => simpa [textChannelPermissions, restricted] using below member

/-- The default of a server channel is safe to edit. -/
theorem textDefault_noEscalation (changed : db.ChangesChannel db' target (.textChannel channel)
      (.textChannel (channel.withDefaultPermissions permissions.toField)))
    (granted : held.throwPermissionOverride
      (channel.defaultPermissions.map OverrideField.toOverride) permissions = .ok ())
    (oldValue : db.CalculatesUnwiped now user (.textChannel channel) old)
    (newValue : db'.CalculatesUnwiped now user
      (.textChannel (channel.withDefaultPermissions permissions.toField)) new)
    (gained : new.bit b) (lacked : old.bit b = false) : held.bit b := by
  by_contra lacking
  have below := defaultLayer_below granted (by simpa using lacking)
  rw [← Override.toField_toOverride permissions] at below
  cases located : db.servers.find channel.server with
  | none =>
    have locatedAfter : db'.servers.find
        (channel.withDefaultPermissions permissions.toField).server = none := by
      rw [changed.servers]
      exact located
    rw [calculatesUnwiped_iff_unlocated located] at oldValue
    rw [calculatesUnwiped_iff_unlocated locatedAfter] at newValue
    rw [newValue, ← oldValue, lacked] at gained
    cases gained
  | some server =>
    have locatedAfter : db'.servers.find
        (channel.withDefaultPermissions permissions.toField).server = some server := by
      rw [changed.servers]
      exact located
    rw [calculatesUnwiped_iff_text located] at oldValue
    rw [calculatesUnwiped_iff_text locatedAfter, changed.memberOf] at newValue
    have lowered : new.bit b ≤ old.bit b := by
      rw [newValue, oldValue]
      exact textChannelPermissions_bit_le (fun _ => memberChannelPermissions_bit_le below) _
    rw [gained, lacked] at lowered
    cases lowered rfl

/-- Every bit of a group value, for a plain recipient. -/
theorem groupPermissions_bit (plain : group.PlainRecipient user) (b : Bit) :
    (groupPermissions group user).bit b =
      (hasBit DEFAULT_PERMISSION_VIEW_ONLY b || hasBit group.memberPermissions b) := by
  simp [groupPermissions, plain.unprivileged, plain.notOwner, plain.notModerator, plain.recipient,
    PermissionValue.bit]

/-- The value of everybody else does not depend on the permissions of the
group. -/
theorem groupPermissions_other (other : ¬ group.PlainRecipient user) (permissions : Option Int64) :
    groupPermissions { group with permissions } user = groupPermissions group user := by
  rw [groupPermissions, groupPermissions]
  split
  · rfl
  · next ordinary =>
    have standing : user.privileged = false ∧ group.owner ≠ user.id ∧
        user.id ∉ group.moderators := by
      simpa [not_or, and_assoc] using ordinary
    have absent : user.id ∉ group.recipients := fun recipient =>
      other ⟨recipient, standing.1, standing.2.1, standing.2.2⟩
    simp [absent]

/-- An accepted default gives a participant only bits that the editor holds,
exactly when it is not the value of a group that gives more to a plain
recipient. -/
theorem defaultPermissions_noEscalation_iff {result before after : Channel}
    (ran : setDefaultChannelPermissions voice now editor target data db = (.ok result, db'))
    (stored : db.channels.find target = some before)
    (storedAfter : db'.channels.find target = some after)
    (oldValue : db.CalculatesUnwiped now user before old)
    (newValue : db'.CalculatesUnwiped now user after new)
    (heldValue : db.CalculatesChannel now editor before held) :
    (∀ b, new.bit b → old.bit b = false → held.bit b) ↔
      ∀ group permissions, before = .group group → data = .value permissions →
        group.PlainRecipient user → group.GrantsHeld permissions held := by
  rcases (setDefaultChannelPermissions_outcome data).elim ran with ⟨_, e, failed⟩ | writes
  · cases failed
  cases writes with
  | text text permissions held' calculated granted changed =>
    cases stored.symm.trans changed.before
    cases storedAfter.symm.trans changed.after
    have sameHeld : held' = held := by
      obtain ⟨_, ran⟩ := heldValue
      exact (exists_run_iff ran).mp calculated
    rw [sameHeld] at granted
    constructor
    · rintro _ group permissions ⟨⟩
    · intro _ b gained lacked
      exact textDefault_noEscalation changed granted oldValue newValue gained lacked
  | group group permissions changed =>
    cases stored.symm.trans changed.before
    cases storedAfter.symm.trans changed.after
    rw [calculatesUnwiped_iff_group] at oldValue newValue
    subst oldValue newValue
    by_cases plain : group.PlainRecipient user
    · have plainAfter : Group.PlainRecipient
          { group with permissions := some permissions.toInt64 } user :=
        ⟨plain.recipient, plain.unprivileged, plain.notOwner, plain.notModerator⟩
      have written : Group.memberPermissions
          { group with permissions := some permissions.toInt64 } = permissions := rfl
      simp only [groupPermissions_bit plain, groupPermissions_bit plainAfter, written]
      constructor
      · rintro safe _ _ ⟨⟩ ⟨⟩ _ b granted
        cases viewed : hasBit DEFAULT_PERMISSION_VIEW_ONLY b with
        | true => exact .inr (.inl rfl)
        | false =>
          cases current : hasBit group.memberPermissions b with
          | true => exact .inl rfl
          | false => exact .inr (.inr (safe b (by simp [granted]) (by simp [viewed, current])))
      · intro grants b gained lacked
        rw [Bool.or_eq_false_iff] at lacked
        rw [lacked.1, Bool.false_or] at gained
        rcases grants group permissions rfl rfl plain b gained with current | viewed | holds
        · rw [lacked.2] at current
          cases current
        · rw [lacked.1] at viewed
          cases viewed
        · exact holds
    · rw [groupPermissions_other plain]
      constructor
      · rintro _ _ _ ⟨⟩ ⟨⟩ plain'
        exact absurd plain' plain
      · intro _ b gained lacked
        rw [gained] at lacked
        cases lacked

end DefaultPermissions

/-- A group whose recipients may edit its permissions but not manage the
channel. -/
def sharedGroup : Group where
  id := "group"
  owner := "founder"
  recipients := ["founder", "staff-user", "guest-user"]
  permissions := some (DEFAULT_PERMISSION_VIEW_ONLY ||| managePermissions.toU64).toInt64

/-- The same group after a recipient let everybody manage the channel. -/
def managedGroup : Group :=
  { sharedGroup with permissions := some manageChannel.toU64.toInt64 }

def groupStore : MongoDb :=
  { sampleStore with
    channels := .ofDocuments [.group sharedGroup]
    rolesKeyed := by decide }

def letRecipientsManage : DataDefaultChannelPermissions :=
  .value manageChannel.toU64

def managedStore : MongoDb :=
  { groupStore with
    channels := .ofDocuments [.group managedGroup]
    rolesKeyed := by decide }

theorem letRecipientsManage_accepted :
    setDefaultChannelPermissions .disabled 0 staffUser "group" letRecipientsManage groupStore =
      (.ok (.group managedGroup), managedStore) := rfl

theorem defaultPermissions_noEscalation_iff_sample :
    (∀ b, (groupPermissions managedGroup guestUser).bit b →
        (groupPermissions sharedGroup guestUser).bit b = false →
        (groupPermissions sharedGroup staffUser).bit b) ↔
      ∀ group permissions, Channel.group sharedGroup = .group group →
        letRecipientsManage = .value permissions → group.PlainRecipient guestUser →
        group.GrantsHeld permissions (groupPermissions sharedGroup staffUser) :=
  defaultPermissions_noEscalation_iff letRecipientsManage_accepted rfl rfl
    (calculatesUnwiped_iff_group.mpr rfl) (calculatesUnwiped_iff_group.mpr rfl)
    (calculatesChannel_iff_group.mpr rfl)

/-- A recipient gives the others of a group a bit that they do not hold, and
that the recipient does not hold either. -/
theorem recipients_gain_manage :
    ¬ ∀ (editor user : User) (target : String) (data : DataDefaultChannelPermissions)
        (db db' : MongoDb) (result before after : Channel) (old new held : PermissionValue),
      setDefaultChannelPermissions .disabled 0 editor target data db = (.ok result, db') →
      db.channels.find target = some before → db'.channels.find target = some after →
      db.CalculatesUnwiped 0 user before old → db'.CalculatesUnwiped 0 user after new →
      db.CalculatesChannel 0 editor before held →
      ∀ b, new.bit b → old.bit b = false → held.bit b := by
  intro safe
  have held := safe staffUser guestUser "group" letRecipientsManage groupStore managedStore
    _ _ _ _ _ _ letRecipientsManage_accepted rfl rfl
    (calculatesUnwiped_iff_group.mpr rfl) (calculatesUnwiped_iff_group.mpr rfl)
    (calculatesChannel_iff_group.mpr rfl) 0 (by decide) (by decide)
  exact absurd held (by decide)

end Company
