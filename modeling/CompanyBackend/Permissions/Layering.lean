import CompanyBackend.Permissions.Calculation

/-!
# Permissions as stacks of layers

Every bit of a member's channel permissions is decided by one stack of layers: the
server default, the held roles of the server, the voice revocations, the channel
default and the held roles of the channel. The timeout and the `ViewChannel` check
act on the resolved bits.

`RoleLayer` is one role's entry in such a stack, on the server or in a channel. The
sorted override lists of the code are the sorted lists of role layers, so facts
about the sort are proved once for both levels.
-/

namespace Company

open LayerStack PermissionQuery PermissionValue HashMap List Ranking

/-- One role's override with the rank it is ordered by. -/
structure RoleLayer where
  id : String
  rank : Int64
  permissions : OverrideField
  deriving DecidableEq, Repr

def RoleLayer.layer (l : RoleLayer) (b : Bit) : Option Bool := l.permissions.toOverride.layer b

variable (server : Server) (channel : TextChannel) (member : Member)

/-- The role layers of a server for the roles in `held`, in iteration order. -/
def Server.roleLayers (held : List String) : List RoleLayer :=
  (server.roles.entries.filter fun e => held.contains e.1).map fun e =>
    ⟨e.1, e.2.rank, e.2.permissions⟩

/-- The role layers of a channel for the roles in `held` that exist on the
server. -/
def TextChannel.roleLayers (channel : TextChannel) (server : Server) (held : List String) :
    List RoleLayer :=
  (channel.rolePermissions.entries.filter fun e => held.contains e.1).filterMap fun e =>
    (server.roles.lookup e.1).map fun role => ⟨e.1, role.rank, e.2⟩

/-- The layer belongs to a held role of the server and carries its server
override. -/
def Server.HasRoleLayer (held : List String) (l : RoleLayer) : Prop :=
  l.id ∈ held ∧ ∃ role, server.roles.lookup l.id = some role ∧
    l.rank = role.rank ∧ l.permissions = role.permissions

/-- The layer belongs to a held role of the server and carries its channel
override. -/
def TextChannel.HasRoleLayer (channel : TextChannel) (server : Server) (held : List String)
    (l : RoleLayer) : Prop :=
  l.id ∈ held ∧ channel.rolePermissions.lookup l.id = some l.permissions ∧
    ∃ role, server.roles.lookup l.id = some role ∧ l.rank = role.rank

/-- Different held roles of the server have different ranks. -/
def Server.DistinctRanks (held : List String) : Prop :=
  ∀ e ∈ server.roles.entries, ∀ e' ∈ server.roles.entries, e.1 ∈ held → e'.1 ∈ held →
    e.2.rank = e'.2.rank → e.1 = e'.1

instance (server : Server) (held : List String) : Decidable (server.DistinctRanks held) :=
  inferInstanceAs (Decidable (∀ e ∈ server.roles.entries, ∀ e' ∈ server.roles.entries,
    e.1 ∈ held → e'.1 ∈ held → e.2.rank = e'.2.rank → e.1 = e'.1))

variable {held : List String}

theorem Server.DistinctRanks.id_eq {server : Server}
    (distinct : server.DistinctRanks held) {id id' : String} {role role' : Role}
    (holds : id ∈ held) (holds' : id' ∈ held) (found : server.roles.lookup id = some role)
    (found' : server.roles.lookup id' = some role') (same : role.rank = role'.rank) : id = id' :=
  distinct _ (mem_entries_iff.mpr found) _ (mem_entries_iff.mpr found') holds holds' same

open RoleLayer

variable {l : RoleLayer}

section RoleLayers

variable {server : Server} {channel : TextChannel}

theorem Server.mem_roleLayers : l ∈ server.roleLayers held ↔ server.HasRoleLayer held l := by
  simp only [roleLayers, HasRoleLayer, List.mem_map, mem_filter, contains_iff_mem]
  constructor
  · rintro ⟨⟨id, role⟩, ⟨member, holds⟩, rfl⟩
    exact ⟨holds, role, mem_entries_iff.mp member, rfl, rfl⟩
  · rintro ⟨holds, role, found, sameRank, samePermissions⟩
    refine ⟨⟨l.id, role⟩, ⟨mem_entries_iff.mpr found, holds⟩, ?_⟩
    rw [← sameRank, ← samePermissions]

theorem TextChannel.mem_roleLayers :
    l ∈ channel.roleLayers server held ↔ channel.HasRoleLayer server held l := by
  simp only [roleLayers, HasRoleLayer, mem_filterMap, mem_filter,
    contains_iff_mem, Option.map_eq_some_iff]
  constructor
  · rintro ⟨⟨id, permissions⟩, ⟨member, holds⟩, role, found, rfl⟩
    exact ⟨holds, mem_entries_iff.mp member, role, found, rfl⟩
  · rintro ⟨holds, written, role, found, sameRank⟩
    refine ⟨⟨l.id, l.permissions⟩, ⟨mem_entries_iff.mpr written, holds⟩, role, found, ?_⟩
    rw [← sameRank]

theorem Server.roleLayers_ids : (server.roleLayers held).Pairwise fun a b => a.id ≠ b.id := by
  rw [roleLayers, pairwise_map]
  exact (pairwise_map.mp server.roles.nodupKeys).filter _

theorem TextChannel.roleLayers_ids :
    (channel.roleLayers server held).Pairwise fun a b => a.id ≠ b.id := by
  rw [roleLayers, pairwise_filterMap]
  refine ((pairwise_map.mp channel.rolePermissions.nodupKeys).filter _).imp ?_
  intro e e' ne l hl l' hl'
  simp only [Option.map_eq_some_iff] at hl hl'
  obtain ⟨_, _, rfl⟩ := hl
  obtain ⟨_, _, rfl⟩ := hl'
  exact ne

/-- Role layers in the order they are applied, from the largest rank to the
smallest. -/
def orderedLayers (layers : List RoleLayer) : List RoleLayer :=
  sortDescendingOn RoleLayer.rank layers

theorem orderedOverrides_layers (layers : List RoleLayer) :
    orderedOverrides (layers.map fun l => (l.rank, l.permissions.toOverride)) =
      (orderedLayers layers).map fun l => l.permissions.toOverride := by
  rw [orderedOverrides, sortDescending_map, List.map_map]
  rfl

theorem Server.orderedOverrides_eq :
    orderedOverrides (server.rankedOverrides held) =
      (orderedLayers (server.roleLayers held)).map fun l => l.permissions.toOverride := by
  rw [← orderedOverrides_layers, roleLayers, List.map_map]
  rfl

theorem TextChannel.orderedOverrides_eq :
    orderedOverrides (channel.rankedOverrides server held) =
      (orderedLayers (channel.roleLayers server held)).map fun l => l.permissions.toOverride := by
  rw [← orderedOverrides_layers, roleLayers, map_filterMap, rankedOverrides]
  congr 2
  funext e
  rw [Option.map_map]
  rfl

variable (distinct : server.DistinctRanks held)

include distinct

theorem Server.roleLayers_ranks : (server.roleLayers held).Pairwise fun a b => a.rank ≠ b.rank := by
  refine roleLayers_ids.imp_of_mem ?_
  intro l l' member member' ne same
  obtain ⟨holds, role, found, rank, _⟩ := mem_roleLayers.mp member
  obtain ⟨holds', role', found', rank', _⟩ := mem_roleLayers.mp member'
  exact ne (distinct.id_eq holds holds' found found' (rank ▸ rank' ▸ same))

theorem TextChannel.roleLayers_ranks :
    (channel.roleLayers server held).Pairwise fun a b => a.rank ≠ b.rank := by
  refine roleLayers_ids.imp_of_mem ?_
  intro l l' member member' ne same
  obtain ⟨holds, _, role, found, rank⟩ := mem_roleLayers.mp member
  obtain ⟨holds', _, role', found', rank'⟩ := mem_roleLayers.mp member'
  exact ne (distinct.id_eq holds holds' found found' (rank ▸ rank' ▸ same))

/-- With distinct ranks, the ordered server layers enumerate the held roles. -/
theorem Server.orderedLayers_enumerates : Enumerates rank (server.HasRoleLayer held)
      (orderedLayers (server.roleLayers held)) :=
  sortDescendingOn_enumerates (fun _ => mem_roleLayers) (roleLayers_ranks distinct)

theorem TextChannel.orderedLayers_enumerates :
    Enumerates rank (channel.HasRoleLayer server held)
      (orderedLayers (channel.roleLayers server held)) :=
  sortDescendingOn_enumerates (fun _ => mem_roleLayers) (roleLayers_ranks distinct)

end RoleLayers

variable (member : Member) (b : Bit)

/-- The voice revocations of a muted or deafened member. -/
def Member.voiceLayer : Option Bool :=
  if !member.canPublish && (decide (b = speakBit) || decide (b = videoBit)) ||
      !member.canReceive && decide (b = listenBit) then some false
  else none

/-- The layers between the server default and the channel, in order. -/
def serverStack : List (Option Bool) :=
  (orderedLayers (server.roleLayers member.roles)).map (fun l => l.layer b) ++ [member.voiceLayer b]

def channelStack (b : Bit) : List (Option Bool) :=
  channel.defaultOverride.layer b ::
    (orderedLayers (channel.roleLayers server member.roles)).map fun l => l.layer b

/-- The server default, as the bottom of every stack. -/
def Server.defaultBit (b : Bit) : Bool :=
  hasBit server.defaultPermissions.toUInt64 b

/-- Whether a timeout lets a bit through. -/
def Member.timeoutAllows (now : Timestamp) (member : Member) (b : Bit) : Bool :=
  !member.inTimeout now || hasBit ALLOW_IN_TIMEOUT b

open Member

variable {now : Timestamp}

section Bits

variable {server : Server} {channel : TextChannel} {member : Member}
variable (p : PermissionValue) (b : Bit)

theorem restrictTimeout_bit :
    (restrictTimeout now member p).bit b = (p.bit b && member.timeoutAllows now b) := by
  cases timedOut : member.inTimeout now <;>
    simp [restrictTimeout, timeoutAllows, timedOut]

/-- The server default with the held roles on top of it. -/
theorem serverRoles_bit (held : List String) (b : Bit) :
    ((PermissionValue.ofI64 server.defaultPermissions).applyAll
      (orderedOverrides (server.rankedOverrides held))).bit b =
      resolve (server.defaultBit b)
        ((orderedLayers (server.roleLayers held)).map fun l => l.layer b) := by
  rw [applyAll_bit, Server.orderedOverrides_eq, List.map_map]
  rfl

/-- A channel's default and held roles on top of a value. -/
theorem channelRoles_bit : ((p.apply channel.defaultOverride).applyAll
      (orderedOverrides (channel.rankedOverrides server member.roles))).bit b =
      resolve (p.bit b) (channelStack server channel member b) := by
  rw [applyAll_bit, apply_bit, TextChannel.orderedOverrides_eq, List.map_map]
  rfl

theorem memberServerValue_bit : (memberServerValue server member).bit b =
      resolve (server.defaultBit b) (serverStack server member b) := by
  rw [serverStack, resolve_append, ← serverRoles_bit]
  cases publish : member.canPublish <;> cases receive : member.canReceive <;>
    simp only [memberServerValue, voiceLayer, publish, receive, Bool.not_true, Bool.not_false,
      Bool.false_eq_true, ite_true, ite_false, Bool.true_and, Bool.false_and, Bool.false_or,
      Bool.or_false, resolve_cons, resolve_nil, revoke_bit, hasBit_speak,
      hasBit_video, hasBit_listen] <;>
    cases decide (b = speakBit) <;> cases decide (b = videoBit) <;>
    cases decide (b = listenBit) <;> simp

theorem memberServerPermissions_bit : (memberServerPermissions now server member).bit b =
      (resolve (server.defaultBit b) (serverStack server member b) &&
        member.timeoutAllows now b) := by
  rw [memberServerPermissions, restrictTimeout_bit, memberServerValue_bit]

/-- The resolution of the whole stack of a bit, before timeout and `ViewChannel`
check. -/
def grantedByLayers (server : Server) (channel : TextChannel) (member : Member) (b : Bit) : Bool :=
  resolve (server.defaultBit b)
    (serverStack server member b ++ channelStack server channel member b)

/-- The two timeout restrictions of the code act like one at the end. -/
theorem memberChannelPermissions_bit : (memberChannelPermissions now server channel member).bit b =
      (grantedByLayers server channel member b && member.timeoutAllows now b) := by
  rw [memberChannelPermissions, restrictTimeout_bit, channelRoles_bit, memberServerPermissions_bit,
    grantedByLayers, resolve_append]
  cases member.timeoutAllows now b with
  | false => simp only [Bool.and_false]
  | true => simp only [Bool.and_true]

theorem timeoutAllows_view : member.timeoutAllows now viewBit := by
  simp [timeoutAllows, hasBit_allowInTimeout]

/-- A muted or deafened member sees as much as before. -/
theorem voiceLayer_view : member.voiceLayer viewBit = none := by
  have others : decide (viewBit = speakBit) = false ∧ decide (viewBit = videoBit) = false ∧
      decide (viewBit = listenBit) = false := by decide
  simp [voiceLayer, others]

theorem wipeUnlessViewable_bit : (wipeUnlessViewable p).bit b = (p.bit viewBit && p.bit b) := by
  rw [wipeUnlessViewable, hasChannelPermission_view]
  cases p.bit viewBit <;> simp

/-- Every bit of the final value of a member in a server channel. -/
theorem wiped_memberChannelPermissions_bit : (wipeUnlessViewable
        (memberChannelPermissions now server channel member)).bit b =
      (grantedByLayers server channel member viewBit &&
        (grantedByLayers server channel member b && member.timeoutAllows now b)) := by
  rw [wipeUnlessViewable_bit, memberChannelPermissions_bit, memberChannelPermissions_bit,
    timeoutAllows_view, Bool.and_true]

end Bits

/-! ## Edited overrides -/

def RoleLayer.replace (id : String) (permissions : OverrideField) (l : RoleLayer) : RoleLayer :=
  if l.id = id then { l with permissions } else l

/-- The server with the override of one role replaced in place. -/
def Server.withRolePermissions (id : String) (permissions : OverrideField) : Server :=
  { server with roles := server.roles.modify id fun role => { role with permissions } }

section Edited

variable {server server' : Server} {member : Member} {b : Bit}

variable (id : String) (permissions : OverrideField)

theorem RoleLayer.replace_rank (l : RoleLayer) : (l.replace id permissions).rank = l.rank := by
  unfold replace
  split <;> rfl

theorem orderedLayers_replace (layers : List RoleLayer) :
    orderedLayers (layers.map (replace id permissions)) =
      (orderedLayers layers).map (replace id permissions) :=
  sortDescendingOn_map (replace_rank id permissions) layers

/-- Replacing an override in place changes one layer and moves none. -/
theorem Server.roleLayers_withRolePermissions (held : List String) :
    (server.withRolePermissions id permissions).roleLayers held =
      (server.roleLayers held).map (replace id permissions) := by
  rw [roleLayers, withRolePermissions, entries_modify, filter_map, List.map_map,
    roleLayers, List.map_map,
    keep_comp_edit held.contains id fun role : Role => { role with permissions }]
  apply map_congr_left
  intro e _
  by_cases same : id = e.1
  · simp [RoleLayer.replace, same]
  · simp [RoleLayer.replace, same, Ne.symm same]

/-- The layer that is written is the only one whose override differs. -/
theorem RoleLayer.replace_below {id : String} {permissions : OverrideField}
    (below : l.id = id → Below (permissions.toOverride.layer b) (l.layer b)) :
    Below ((l.replace id permissions).layer b) (l.layer b) := by
  unfold replace
  split
  · next same => exact below same
  · exact Below.refl _

/-- Lowering the default and the role layers of a server grants no member a
bit. -/
theorem memberServerPermissions_bit_le (lower : server'.defaultBit b ≤ server.defaultBit b)
    {edit : RoleLayer → RoleLayer}
    (edited : orderedLayers (server'.roleLayers member.roles) =
      (orderedLayers (server.roleLayers member.roles)).map edit)
    (below : ∀ l ∈ orderedLayers (server.roleLayers member.roles),
      Below ((edit l).layer b) (l.layer b)) :
    (memberServerPermissions now server' member).bit b ≤
      (memberServerPermissions now server member).bit b := by
  have folded : resolve (server'.defaultBit b) (serverStack server' member b) ≤
      resolve (server.defaultBit b) (serverStack server member b) := by
    rw [serverStack, serverStack, edited, List.map_map, resolve_append, resolve_append]
    exact resolve_mono (.cons (Below.refl _) .nil) (resolve_map_mono below lower)
  rw [memberServerPermissions_bit, memberServerPermissions_bit]
  cases member.timeoutAllows now b with
  | false => simp
  | true => simpa using folded

end Edited

/-- The query asks about a server channel for a member who is neither privileged
nor the owner. The server and the member are known to it or can be fetched. -/
structure DatabasePermissionQuery.AsksForMember (q : DatabasePermissionQuery) (server : Server)
    (channel : TextChannel) (member : Member) : Prop where
  selected : q.channel = some (.textChannel channel)
  located : q.setServerFromChannel = .ok { q with server := some server }
  joined : q.knownMember server = some member
  unprivileged : q.perspective.privileged = false
  notOwner : server.owner ≠ q.perspective.id

variable {q : DatabasePermissionQuery}

namespace DatabasePermissionQuery.AsksForMember

variable {server : Server} {channel : TextChannel} {member : Member}

theorem restricted (asks : q.AsksForMember server channel member) :
    q.perspective.unrestricted server = false := by
  simp [User.unrestricted, asks.unprivileged, asks.notOwner]

theorem run (asks : q.AsksForMember server channel member)
    (check : PermissionValue → PermissionValue) :
    (calculateChannelPermissionsWith check).run q =
      .ok (check (memberChannelPermissions q.now server channel member),
        q.afterTextChannel server) := by
  rw [calculateChannelPermissionsWith_run_text asks.selected asks.located]
  simp [textChannelPermissions, asks.restricted, asks.joined]

end DatabasePermissionQuery.AsksForMember

/-- The layers of a bit in the order they are applied, the server default
first. -/
def layersInOrder (serverRoles channelRoles : List RoleLayer) (b : Bit) : List (Option Bool) :=
  some (server.defaultBit b) :: (serverRoles.map (fun l => l.layer b) ++ member.voiceLayer b ::
    channel.defaultOverride.layer b :: channelRoles.map fun l => l.layer b)

/-- A bit is granted when the last layers that mention it and `ViewChannel` both
grant them, and a timeout does not hold it back. The held roles are applied from
the largest rank to the smallest, on the server and then in the channel. -/
def LastWriterRule (now : Timestamp) (server : Server) (channel : TextChannel) (member : Member)
    (value : PermissionValue) : Prop :=
  ∃ serverRoles channelRoles,
    Enumerates RoleLayer.rank (server.HasRoleLayer member.roles) serverRoles ∧
    Enumerates RoleLayer.rank (channel.HasRoleLayer server member.roles) channelRoles ∧
    ∀ b, value.bit b = true ↔
      LastSays (layersInOrder server channel member serverRoles channelRoles viewBit) true ∧
      (member.inTimeout now = false ∨ hasBit ALLOW_IN_TIMEOUT b = true) ∧
      LastSays (layersInOrder server channel member serverRoles channelRoles b) true

section LastWriter

variable {server : Server} {channel : TextChannel} {member : Member}

theorem grantedByLayers_iff (b : Bit) :
    grantedByLayers server channel member b ↔
      LastSays (layersInOrder server channel member (orderedLayers (server.roleLayers member.roles))
        (orderedLayers (channel.roleLayers server member.roles)) b) true := by
  rw [grantedByLayers, resolve_eq_iff, layersInOrder, serverStack, channelStack, append_assoc]
  rfl

theorem timeoutAllows_iff (b : Bit) : member.timeoutAllows now b ↔
      member.inTimeout now = false ∨ hasBit ALLOW_IN_TIMEOUT b := by
  simp [timeoutAllows]

/-- The channel calculation of a member whose roles have distinct ranks follows
the last writer rule: each bit is decided by the topmost layer that mentions it,
in whatever order the roles are stored. -/
theorem calculateChannelPermissions_lastWriter (asks : q.AsksForMember server channel member)
    (distinct : server.DistinctRanks member.roles) :
    ∃ value final, calculateChannelPermissions.run q = .ok (value, final) ∧
      LastWriterRule q.now server channel member value := by
  refine ⟨_, _, asks.run _, _, _, Server.orderedLayers_enumerates distinct,
    TextChannel.orderedLayers_enumerates distinct, ?_⟩
  intro b
  rw [wiped_memberChannelPermissions_bit, Bool.and_eq_true, Bool.and_eq_true,
    grantedByLayers_iff, grantedByLayers_iff, timeoutAllows_iff]
  tauto

end LastWriter

/-! A server with two held roles and a voice channel that lets everybody speak. -/

open ChannelPermission in
def staffRole : Role where
  id := "staff"
  permissions :=
    { a := (managePermissions.add manageRole ||| assignRoles.add kickMembers).toInt64, d := 0 }
  rank := 1

def guestRole : Role where
  id := "guest"
  permissions := { a := 0, d := ChannelPermission.react.toU64.toInt64 }
  rank := 5

def sampleServer : Server where
  id := "server"
  owner := "owner"
  channels := ["channel"]
  roles := HashMap.ofPairs [("staff", staffRole), ("guest", guestRole)]
  defaultPermissions := DEFAULT_PERMISSION_SERVER.toInt64

def sampleChannel : TextChannel where
  id := "channel"
  server := "server"
  defaultPermissions := some { a := ChannelPermission.speak.toU64.toInt64, d := 0 }
  rolePermissions := HashMap.ofPairs
    [("staff", { a := ChannelPermission.manageMessages.toU64.toInt64, d := 0 })]

/-- A member who holds both roles and is muted on the server. -/
def sampleMember : Member where
  id := { server := "server", user := "member" }
  roles := ["guest", "staff"]
  canPublish := false

def sampleUser : User where
  id := "member"

def sampleDatabase : Database :=
  { Database.unreachable with
    fetchServer := fun id => if id = "server" then .ok sampleServer else .error .notFound
    fetchMember := fun server user =>
      if server = "server" ∧ user = "member" then .ok sampleMember else .error .notFound }

def sampleQuery : DatabasePermissionQuery :=
  (DatabasePermissionQuery.new sampleDatabase 0 sampleUser).withChannel (.textChannel sampleChannel)

theorem sampleQuery_asks : sampleQuery.AsksForMember sampleServer sampleChannel sampleMember where
  selected := rfl
  located := DatabasePermissionQuery.setServerFromChannel_fetched rfl rfl rfl
  joined := rfl
  unprivileged := rfl
  notOwner := by decide

theorem calculateChannelPermissions_lastWriter_sample :
    ∃ value final, calculateChannelPermissions.run sampleQuery =
        .ok (value, final) ∧
      LastWriterRule sampleQuery.now sampleServer sampleChannel sampleMember value :=
  calculateChannelPermissions_lastWriter sampleQuery_asks (by decide)

/-- A member muted on the server neither speaks nor shows video, and a deafened
one does not listen. -/
def VoiceRevoked (value : PermissionValue) : Prop :=
  (member.canPublish = false →
    value.hasChannelPermission .speak = false ∧ value.hasChannelPermission .video = false) ∧
  (member.canReceive = false → value.hasChannelPermission .listen = false)

/-- The server revokes the bit for the member. -/
def Member.Revokes : Prop :=
  member.canPublish = false ∧ (b = speakBit ∨ b = videoBit) ∨
    member.canReceive = false ∧ b = listenBit

/-- The last layer of the channel that mentions the bit grants it. -/
def ChannelGrants (b : Bit) : Prop :=
  LastSays (channelStack server channel member b) true

/-- The last layer that mentions `ViewChannel`, on the server or in the channel,
grants it. -/
def ViewGranted : Prop :=
  LastSays (some (server.defaultBit viewBit) ::
    (serverStack server member viewBit ++ channelStack server channel member viewBit)) true

section Voice

variable {server : Server} {channel : TextChannel} {member : Member}

theorem voiceRevoked_iff (value : PermissionValue) :
    VoiceRevoked member value ↔ ∀ b, member.Revokes b → value.bit b = false := by
  simp only [VoiceRevoked, Revokes, hasChannelPermission_speak,
    hasChannelPermission_video, hasChannelPermission_listen]
  constructor
  · rintro ⟨muted, deafened⟩ b (⟨publish, rfl | rfl⟩ | ⟨receive, rfl⟩)
    · exact (muted publish).1
    · exact (muted publish).2
    · exact deafened receive
  · intro revoked
    refine ⟨fun publish => ⟨?_, ?_⟩, fun receive => ?_⟩
    · exact revoked _ (.inl ⟨publish, .inl rfl⟩)
    · exact revoked _ (.inl ⟨publish, .inr rfl⟩)
    · exact revoked _ (.inr ⟨receive, rfl⟩)

theorem Member.Revokes.voiceLayer {b : Bit} (revokes : member.Revokes b) :
    member.voiceLayer b = some false := by
  rcases revokes with ⟨publish, rfl | rfl⟩ | ⟨receive, rfl⟩
  · simp [Member.voiceLayer, publish]
  · simp [Member.voiceLayer, publish]
  · simp [Member.voiceLayer, receive]

/-- None of the revoked bits survives a timeout. -/
theorem Member.Revokes.timeoutAllows {b : Bit} (revokes : member.Revokes b) :
    member.timeoutAllows now b = !member.inTimeout now := by
  have held : hasBit ALLOW_IN_TIMEOUT b = false := by
    rcases revokes with ⟨_, rfl | rfl⟩ | ⟨_, rfl⟩ <;> decide
  rw [Member.timeoutAllows, held, Bool.or_false]

/-- For a revoked bit only the layers of the channel matter. -/
theorem Member.Revokes.grantedByLayers_iff {b : Bit} (revokes : member.Revokes b) :
    grantedByLayers server channel member b ↔ ChannelGrants server channel member b := by
  have lower : resolve (server.defaultBit b) (serverStack server member b) = false := by
    rw [serverStack, resolve_append, revokes.voiceLayer]
    rfl
  rw [grantedByLayers, resolve_append, lower, resolve_eq_iff, lastSays_cons_iff, ChannelGrants]
  simp

/-- The revocations hold in a channel exactly when its layers do not grant a
revoked bit back to a member who can view it and is not timed out. -/
theorem voiceRevoked_channel_iff (asks : q.AsksForMember server channel member) :
    ∃ value final, calculateChannelPermissions.run q = .ok (value, final) ∧
      (VoiceRevoked member value ↔
        ∀ b, member.Revokes b → ChannelGrants server channel member b →
          member.inTimeout q.now ∨ ¬ ViewGranted server channel member) := by
  refine ⟨_, _, asks.run _, ?_⟩
  rw [voiceRevoked_iff]
  apply forall₂_congr
  intro b revokes
  have view : grantedByLayers server channel member viewBit = true ↔
      ViewGranted server channel member := resolve_eq_iff
  rw [wiped_memberChannelPermissions_bit, revokes.timeoutAllows, ← view,
    ← revokes.grantedByLayers_iff]
  cases grantedByLayers server channel member viewBit <;>
    cases grantedByLayers server channel member b <;>
    cases member.inTimeout q.now <;> simp

theorem voiceRevoked_channel_iff_sample :
    ∃ value final, calculateChannelPermissions.run sampleQuery =
        .ok (value, final) ∧
      (VoiceRevoked sampleMember value ↔
        ∀ b, sampleMember.Revokes b → ChannelGrants sampleServer sampleChannel sampleMember b →
          sampleMember.inTimeout sampleQuery.now ∨
            ¬ ViewGranted sampleServer sampleChannel sampleMember) :=
  voiceRevoked_channel_iff sampleQuery_asks

/-- A muted member speaks in a channel whose default override allows `Speak`,
since the layers of a channel come after the mute. -/
theorem muted_member_speaks :
    ¬ ∀ q server channel member value final,
        DatabasePermissionQuery.AsksForMember q server channel member →
        calculateChannelPermissions.run q = .ok (value, final) →
        VoiceRevoked member value := by
  intro claim
  have revoked := claim _ _ _ _ _ _ sampleQuery_asks (sampleQuery_asks.run _)
  have speaks : (wipeUnlessViewable (memberChannelPermissions sampleQuery.now
      sampleServer sampleChannel sampleMember)).hasChannelPermission .speak = true := by
    decide
  rw [(revoked.1 rfl).1] at speaks
  cases speaks

end Voice

end Company
