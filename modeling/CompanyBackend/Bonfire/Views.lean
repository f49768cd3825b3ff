import CompanyBackend.Bonfire.Events

/-!
# What a connection can view

The check of a connection asks the permission calculation, with the cached documents and
the database behind them. Its answer is a closed form in the user, the server and the
member. When the server and the member are cached it does not depend on the database, and
never on the time: a timeout does not hide a channel.
-/

namespace Company

open PermissionQuery PermissionValue List DatabasePermissionQuery

variable {db : Database} {now : Timestamp} {user : User} {server : Server} {text : TextChannel}

/-- Whether a user sees a channel of a server, as the given member or as
none. -/
def viewGranted (server : Server) (text : TextChannel) (user : User) (member : Option Member) :
    Bool :=
  user.unrestricted server || member.any fun member => grantedByLayers server text member viewBit

theorem textChannelPermissions_view (member : Option Member) :
    (textChannelPermissions wipeUnlessViewable now server text user
      member).hasChannelPermission .viewChannel = viewGranted server text user member := by
  have all : (ofChannelPermission .grantAllSafe).bit viewBit = true := by decide
  have nothing : ((0 : UInt64) : PermissionValue).bit viewBit = false := by decide
  rw [hasChannelPermission_view]
  cases restricted : user.unrestricted server with
  | true => simp [textChannelPermissions, viewGranted, restricted, all]
  | false =>
    cases member with
    | none => simp [textChannelPermissions, viewGranted, restricted, nothing]
    | some member =>
      simp [textChannelPermissions, viewGranted, restricted, wiped_memberChannelPermissions_bit,
        timeoutAllows_view]

/-- Two servers have the same layers for the held roles. -/
structure Server.SameRoles (server server' : Server) (held : List String) : Prop where
  layers : server'.roleLayers held = server.roleLayers held
  ranks : ∀ id ∈ held, (server'.roles.lookup id).map Role.rank =
    (server.roles.lookup id).map Role.rank

section Frame

variable {server' : Server} {held : List String} {roleId : String}

theorem Server.SameRoles.of_eq (same : server'.roles = server.roles) :
    server.SameRoles server' held where
  layers := by rw [roleLayers, roleLayers, same]
  ranks id _ := by rw [same]

/-- An edit of a role changes no layer if the role is not held, or keeps its
rank and its override. -/
theorem Server.sameRoles_modify {f : Role → Role}
    (keeps : roleId ∈ held → ∀ role, (f role).rank = role.rank ∧
      (f role).permissions = role.permissions) :
    server.SameRoles { server with roles := server.roles.modify roleId f } held where
  layers := by
    simp only [roleLayers, HashMap.entries_modify]
    rw [filter_map, List.map_map, HashMap.keep_comp_edit held.contains]
    apply map_congr_left
    intro e listed
    by_cases same : roleId = e.1
    · have holds : roleId ∈ held := by simpa [same] using (mem_filter.mp listed).2
      simp [same, keeps holds e.2]
    · simp [same]
  ranks id holds := by
    by_cases same : id = roleId
    · subst same
      rw [HashMap.lookup_modify, Option.map_map]
      congr 1
      funext role
      exact (keeps holds role).1
    · dsimp only
      rw [HashMap.lookup_modify_ne _ same]

/-- Deleting a role that is not held changes no layer. -/
theorem Server.sameRoles_erase (unheld : roleId ∉ held) :
    server.SameRoles { server with roles := server.roles.erase roleId } held where
  layers := by
    simp only [roleLayers]
    rw [HashMap.filter_entries_erase]
    intro role
    simpa using unheld
  ranks id holds := by
    have other : id ≠ roleId := fun same => unheld (same ▸ holds)
    rw [AList.lookup_erase_ne other]

theorem TextChannel.roleLayers_congr (same : server.SameRoles server' held) :
    text.roleLayers server' held = text.roleLayers server held := by
  rw [roleLayers, roleLayers]
  apply filterMap_congr
  intro e listed
  have holds : e.1 ∈ held := by simpa using (mem_filter.mp listed).2
  have ranks := same.ranks e.1 holds
  cases before : server.roles.lookup e.1 <;> cases after : server'.roles.lookup e.1 <;>
    simp_all

/-- The view of a member depends on the default of the server and the layers of
the roles that the member holds. -/
theorem grantedByLayers_view_congr {member member' : Member}
    (sameDefault : server'.defaultPermissions = server.defaultPermissions)
    (sameHeld : member'.roles = member.roles) (same : server.SameRoles server' member.roles) :
    grantedByLayers server' text member' viewBit = grantedByLayers server text member viewBit := by
  rw [grantedByLayers, grantedByLayers, Server.defaultBit, Server.defaultBit, sameDefault,
    serverStack, serverStack, channelStack, channelStack, voiceLayer_view, voiceLayer_view,
    sameHeld, same.layers, TextChannel.roleLayers_congr same]

theorem viewGranted_congr {member : Option Member} (sameOwner : server'.owner = server.owner)
    (sameDefault : server'.defaultPermissions = server.defaultPermissions)
    (same : ∀ known ∈ member, server.SameRoles server' known.roles) :
    viewGranted server' text user member = viewGranted server text user member := by
  rw [viewGranted, viewGranted, User.unrestricted, User.unrestricted, sameOwner]
  cases member with
  | none => rfl
  | some known =>
    rw [Option.any_some, Option.any_some,
      grantedByLayers_view_congr sameDefault rfl (same known rfl)]

end Frame

namespace Cache

variable {cache cache' : Cache}

/-- What the cache alone says about a channel, for the user it belongs to. -/
def grantsView (cache : Cache) (user : User) (text : TextChannel) : Bool :=
  match cache.servers.lookup text.server with
  | some server => viewGranted server text user (cache.members.lookup text.server)
  | none => user.privileged

/-- Channels outside of servers are not restricted. -/
def shows (cache : Cache) (user : User) : Channel → Bool
  | .textChannel text => cache.grantsView user text
  | _ => true

theorem grantsView_some (stored : cache.servers.lookup text.server = some server) :
    cache.grantsView user text =
      viewGranted server text user (cache.members.lookup text.server) := by
  rw [grantsView, stored]

theorem grantsView_none (absent : cache.servers.lookup text.server = none) :
    cache.grantsView user text = user.privileged := by
  rw [grantsView, absent]

section

variable (own : cache.users.lookup cache.userId = some user)

include own

/-- The check with a cached server that the calculation keeps. -/
theorem canViewChannel_located
    (located : (cache.channelQuery db now user text).setServerFromChannel =
      .ok { cache.channelQuery db now user text with server := some server }) :
    cache.canViewChannel db now (.textChannel text) =
      .ok (viewGranted server text user
        ((cache.channelQuery db now user text).knownMember server)) := by
  have selected : (cache.channelQuery db now user text).channel = some (.textChannel text) := rfl
  have ran := @calculateChannelPermissionsWith_run_text _ _ _
    wipeUnlessViewable selected located
  rw [← @textChannelPermissions_view now]
  simp only [canViewChannel, own]
  rw [calculateChannelPermissions, ran]
  rfl

section

variable (stored : cache.servers.lookup text.server = some server) (keyed : server.id = text.server)

include stored keyed

/-- A cached server decides, whatever the database says about it. -/
theorem canViewChannel_server : cache.canViewChannel db now (.textChannel text) =
      .ok (viewGranted server text user ((cache.members.lookup text.server).or
        (db.fetchMember server.id user.id).toOption)) :=
  canViewChannel_located own (setServerFromChannel_known rfl stored keyed.symm)

/-- With the server and the member cached, the database is not asked. -/
theorem canViewChannel_cached
    {member : Member} (joined : cache.members.lookup text.server = some member) :
    cache.canViewChannel db now (.textChannel text) = .ok (cache.grantsView user text) := by
  rw [canViewChannel_server own stored keyed, grantsView, stored, joined]
  rfl

end

/-- The check of a cache with no database behind it. -/
theorem canViewChannel_unreachable : cache.canViewChannel .unreachable now (.textChannel text) =
      .ok (cache.grantsView user text) := by
  have selected : (cache.channelQuery .unreachable now user text).channel =
    some (.textChannel text) := rfl
  have members : ∀ server, (cache.channelQuery .unreachable now user text).knownMember server =
      cache.members.lookup text.server := fun _ => Option.or_none
  cases stored : cache.servers.lookup text.server with
  | none =>
    have ran := @calculateChannelPermissionsWith_run_unlocated _ _
      wipeUnlessViewable selected stored rfl
    simp only [canViewChannel, own, grantsView, stored]
    rw [calculateChannelPermissions, ran]
    have all : (ofChannelPermission .grantAllSafe).bit viewBit = true := by decide
    have nothing : ((0 : UInt64) : PermissionValue).bit viewBit = false := by decide
    change Except.ok (hasChannelPermission (if user.privileged then _ else _) _) = _
    rw [hasChannelPermission_view]
    cases user.privileged with
    | true => exact congrArg _ all
    | false => exact congrArg _ nothing
  | some server =>
    have located : (cache.channelQuery .unreachable now user text).setServerFromChannel =
        .ok { cache.channelQuery .unreachable now user text with server := some server } := by
      simp [DatabasePermissionQuery.setServerFromChannel, channelQuery, stored,
        withChannel, new, Database.unreachable]
    rw [canViewChannel_located own located, members, grantsView, stored]

end

/-- A check depends on the server and the member of the channel only. -/
theorem grantsView_congr
    (sameServer : cache'.servers.lookup text.server = cache.servers.lookup text.server)
    (sameMember : cache'.members.lookup text.server = cache.members.lookup text.server) :
    cache'.grantsView user text = cache.grantsView user text := by
  rw [grantsView, grantsView, sameServer, sameMember]

/-- The check of every channel of a list succeeds if each single one does. -/
theorem filterAccessibleChannels_eq {judge : Channel → Bool} {channels : List Channel}
    (each : ∀ channel ∈ channels, cache.canViewChannel db now channel = .ok (judge channel)) :
    cache.filterAccessibleChannels db now channels = .ok (channels.filter judge) := by
  induction channels with
  | nil => rfl
  | cons channel channels ih =>
    rw [filterAccessibleChannels, each channel mem_cons_self,
      ih fun other listed => each other (mem_cons_of_mem _ listed), filter_cons]
    cases judge channel <;> rfl

end Cache

end Company
