import CompanyBackend.Backend

/-!
# Calls

Joining and leaving a call, on the two ways that there are. A call of a public stream runs on a
voice node: the route hands out a token, and the node reports who has joined and who has left.
Any other call is between peers, and the route itself writes the voice state.

The node of a channel is read in many places. Here it is never recorded: a client that joins
names a node, and the channel keeps none.

Events to the clients and analytics are left out.
-/

namespace Company

open Request Route List

variable (services : VoiceServices) (channelId userId : String)

/-- Ask the node of a call, if there is one, to remove a user. Its answer does
not matter. -/
def askToRemove : Task Unit := do
  match ← Task.readVoice (·.getChannelNode channelId) with
  | some node =>
    let _ ← result (Task.send services (.removeParticipant node channelId userId))
  | none => return ()

theorem removeParticipant_run {node : String} (known : services.nodes.contains node)
    (backend : Backend) :
    result (Task.send services (.removeParticipant node channelId userId)) backend =
      (.ok (services.answer backend.issued (.removeParticipant node channelId userId)),
        { backend with
          issued := backend.issued ++ [.removeParticipant node channelId userId] }) := by
  rw [result, Task.send, NodeRequest.node, if_pos known]

theorem askToRemove_run (backend : Backend) : askToRemove services channelId userId backend =
      (.ok (), { backend with
        issued := backend.issued ++ (((backend.voice.getChannelNode channelId).toList.filter
          services.nodes.contains).map (NodeRequest.removeParticipant · channelId userId)) }) := by
  rw [askToRemove, bind_of_ok (Task.readVoice_run ..)]
  cases backend.voice.getChannelNode channelId with
  | none =>
    rw [Option.toList_none, filter_nil, map_nil, append_nil]
    rfl
  | some node =>
    cases known : services.nodes.contains node with
    | true =>
      rw [Option.toList_some, filter_cons_of_pos known]
      exact bind_of_ok (removeParticipant_run services channelId userId known backend)
    | false =>
      have sent : result (Task.send services (.removeParticipant node channelId userId)) backend =
          (.ok (.error (.error .unknownNode)), backend) := by
        rw [result, Task.send, NodeRequest.node, known, if_neg Bool.false_ne_true]
      have skipped : ¬services.nodes.contains node = true := by
        rw [known]
        exact Bool.false_ne_true
      rw [Option.toList_some, filter_cons_of_neg skipped, filter_nil, map_nil, append_nil]
      exact bind_of_ok sent

def removeUserFromVoiceChannel : Task Unit := do
  askToRemove services channelId userId
  let channel ← Task.ofRoute (fetch fun db => db.fetchChannel channelId)
  Task.writeVoice (·.deleteVoiceState channelId channel.server userId)

def deleteRoom (channelId : String) (serverId : Option String) : Option (List String) → Task Unit
  | some users => do
    let node ← Task.unwrap services.missingNode (← Task.readVoice (·.getChannelNode channelId))
    Task.send services (.deleteRoom node channelId)
    Task.writeVoice (·.deleteChannelVoiceState channelId serverId users)
  | none => pure ()

def deleteVoiceChannel (channelId : String) (serverId : Option String) : Task Unit := do
  let users ← Task.readVoice (·.getVoiceChannelMembers channelId)
  deleteRoom services channelId serverId users
  Task.writeVoice (·.deleteChannelViewerState channelId)

/-- The state of a connection after a change of permissions: what the user may
no longer do is switched off. -/
def PartialUserVoiceState.ofPermissions (state : UserVoiceState) (canVideo canSpeak : Bool) :
    PartialUserVoiceState where
  id := some state.id
  camera := if state.camera then some canVideo else none
  screensharing := if state.screensharing then some canVideo else none
  isPublishing := if state.isPublishing then some canSpeak else none

variable (node : String) (user : User) (channel : Channel) (server : Option Server)

/-- Tell the node of a call what a user may do in it. -/
def syncConnection (member : Option Member) (state : UserVoiceState) : Task Unit := do
  let (permissions, _) ← Task.ofRoute (ask (fun db =>
      let query := ((DatabasePermissionQuery.new db services.now user).withChannel channel).withUser
        user
      match server, member with
      | some server, some member => (query.withMember member).withServer server
      | _, _ => query)
    PermissionQuery.calculateChannelPermissions)
  let canVideo := services.allowsVideo user && permissions.hasChannelPermission .video
  let canSpeak := permissions.hasChannelPermission .speak
  Task.writeVoice (·.updateVoiceState channel.id (server.map Server.id) user.id
    (.ofPermissions state canVideo canSpeak))
  Task.send services (.updateParticipant node channel.id user.id
    { canSubscribe := permissions.hasChannelPermission .listen
      canPublish := canSpeak
      canPublishData := canSpeak })

def fetchServerMember (server : Option Server) (user : User) : Task (Option Member) :=
  match server with
  | some server => do
    let member ← Task.ofRoute (fetch fun db => db.fetchMember server.id user.id)
    return some member
  | none => return none

/-- Whether a role is one that the member has; without a role or a member it
always is. -/
def concernsRole (roleId : Option String) (member : Option Member) : Bool :=
  roleId.all fun roleId => member.all fun member => member.roles.contains roleId

def syncUserVoicePermissions (roleId : Option String) : Task Unit := do
  let member ← fetchServerMember server user
  if concernsRole roleId member then
    match ← Task.readVoice (·.getVoiceState channel.id (server.map Server.id) user.id) with
    | some state => syncConnection services node user channel server member state
    | none => return ()
  else return ()

/-! ## Events of the voice nodes -/

/-- `participant_joined` -/
def participantJoined (channelId userId : String) (createdAt : Timestamp) : Task Unit := do
  let channel ← Task.ofRoute (fetch fun db => db.fetchChannel channelId)
  let connectionType ← Task.readVoice (·.getVoiceConnectionType channelId userId)
  if connectionType = some .viewer then
    Task.writeVoice (·.createViewerState channelId userId)
  else do
    Task.writeVoice (·.createVoiceState channelId channel.server userId createdAt)
    Task.writeVoice (·.takeUserMovedToVoice channelId userId)

/-- `participant_left` -/
def participantLeft (channelId userId : String) : Task Unit := do
  let channel ← Task.ofRoute (fetch fun db => db.fetchChannel channelId)
  let connectionType ← Task.readVoice (·.getVoiceConnectionType channelId userId)
  if connectionType = some .viewer then do
    Task.writeVoice (·.deleteViewerState channelId userId)
    Task.writeVoice (·.deleteVoiceConnectionType channelId userId)
  else do
    Task.writeVoice (·.deleteVoiceState channelId channel.server userId)
    Task.writeVoice (·.deleteVoiceConnectionType channelId userId)
    Task.writeVoice (·.takeUserMovedFromVoice channelId userId)

structure DataJoinCall where
  node : Option String := none
  forceDisconnect : Option Bool := none
  recipients : Option (List String) := none
  deriving DecidableEq, Repr

/-- What a join needs to know about the owner of a server and about the
nodes. -/
structure CallServices extends VoiceServices where
  /-- Zero stands for no limit. -/
  streamViewerLimit : User → Nat
  describeViewerLimit : User → String
  usesLivekitForPublicStreams : User → Bool
  hosts : String → Option String
  /-- How many are in a room that has been asked for. -/
  numParticipants : (node channel : String) → Nat

def VoiceServices.isEnabled : Bool := !services.nodes.isEmpty

/-- Bots are asked twice: whether they are in this channel, and whether they are
in any. -/
def raiseIfInVoice (user : User) (channelId : String) : Task Unit := do
  let channels ← Task.readVoice (·.getUserVoiceChannels user.id)
  ensure (!(user.bot.isSome && channels.contains channelId)) (.error .alreadyConnected)
  ensure channels.isEmpty (.error .alreadyConnected)

/-- A user who may not connect can watch a public stream. -/
def connectionTypeFor (voice : VoiceInformation) (permissions : PermissionValue) :
    Result ConnectionType :=
  if permissions.hasChannelPermission .connect then .ok .participant
  else if voice.isStreamPublic then .ok .viewer
  else .error (.missingPermission "Connect")

/-- A full channel takes only those who manage it. -/
def ensureRoom (voice : VoiceInformation) (channelId : String) (permissions : PermissionValue) :
    Task Unit := do
  let members ← Task.readVoice (·.getVoiceChannelMembers channelId)
  let full := members.any fun members => voice.maxUsers.any fun max => decide (max ≤ members.length)
  ensure (!(full && !permissions.hasChannelPermission .manageChannel)) (.error .cannotJoinCall)

def serverOwner (serverId : String) : Task User := do
  let server ← Task.ofRoute (fetch fun db => db.fetchServer serverId)
  Task.ofRoute (fetch fun db => db.fetchUser server.owner)

section

variable (services : CallServices) (user : User)

/-- The number of viewers is limited by the tier of the owner of the server. -/
def ensureViewerLimit (channel : Channel) : Task Unit :=
  match channel.server with
  | some serverId => do
    let owner ← serverOwner serverId
    let max := services.streamViewerLimit owner
    let viewers ← Task.readVoice fun redis => (redis.viewers channel.id).length
    ensure (!(decide (0 < max) && decide (max ≤ viewers)))
      (.error (.viewerLimitReached max (services.describeViewerLimit owner)))
  | none => pure ()

def ensureCapacity (voice : VoiceInformation) (channel : Channel)
    (permissions : PermissionValue) : ConnectionType → Task Unit
  | .participant => ensureRoom voice channel.id permissions
  | .viewer => ensureViewerLimit services channel

/-- Public streams of owners with a paid tier run on a voice node, all other
calls do not. -/
def useLivekit (voice : VoiceInformation) (channel : Channel) : Task Bool :=
  if voice.isStreamPublic then
    match channel.server with
    | some serverId => do
      let owner ← serverOwner serverId
      return services.usesLivekitForPublicStreams owner
    | none => return false
  else return false

/-- Note whom a call is to be announced to. -/
def announceCall (channelId : String) : Option (List String) → Task Unit
  | some recipients => onlyIf (!recipients.isEmpty)
      (Task.writeVoice (·.setCallNotificationRecipients channelId user.id recipients))
  | none => pure ()

/-- A call between peers: there is no node that would report the participant. -/
def joinPeers (channel : Channel) (data : DataJoinCall) (connectionType : ConnectionType) :
    Task Unit := do
  Task.writeVoice (·.setVoiceConnectionType channel.id user.id connectionType)
  match connectionType with
  | .participant =>
    raiseIfInVoice user channel.id
    Task.writeVoice (·.createVoiceState channel.id channel.server user.id services.now)
    announceCall user channel.id data.recipients
  | .viewer => pure ()

def disconnectEverywhere : Task Unit := do
  let channels ← Task.readVoice (·.getUserVoiceChannels user.id)
  forEach (removeUserFromVoiceChannel services.toVoiceServices · user.id) channels

def joinNode (channel : Channel) (data : DataJoinCall)
    (permissions : PermissionValue) (connectionType : ConnectionType) : Task Unit := do
  let existing ← Task.readVoice (·.getChannelNode channel.id)
  match existing <|> data.node with
  | none => fail (.error .unknownNode)
  | some node => do
    ensure (services.hosts node).isSome (.error .unknownNode)
    if data.forceDisconnect = some true then disconnectEverywhere services user
    else raiseIfInVoice user channel.id
    let _ ← attempt fun backend => services.createToken node backend.db user permissions channel
    Task.send services.toVoiceServices (.createRoom node channel.id)
    Task.writeVoice (·.setVoiceConnectionType channel.id user.id connectionType)
    onlyIf (connectionType == .participant && services.numParticipants node channel.id == 0)
      (announceCall user channel.id data.recipients)

/-- `POST /channels/<target>/join_call` -/
def joinCall (target : String) (data : DataJoinCall) : Task Unit := do
  ensure services.isEnabled (.error .liveKitUnavailable)
  ensure (!(user.bot.isSome && data.forceDisconnect == some true)) (.error .isBot)
  let channel ← Task.ofRoute (fetch fun db => db.fetchChannel target)
  match channel.voice with
  | none => fail (.error .notAVoiceChannel)
  | some voice => do
    let permissions ← Task.ofRoute (channelPermissions services.now user channel)
    let connectionType ← Task.ofRoute (lift (connectionTypeFor voice permissions))
    ensureCapacity services voice channel permissions connectionType
    let livekit ← useLivekit services voice channel
    if livekit then joinNode services user channel data permissions connectionType
    else joinPeers services user channel data connectionType

end

/-- `POST /channels/<target>/leave_call` -/
def leaveCallRoute (user : User) (target : String) : Task Unit := do
  let channel ← Task.ofRoute (fetch fun db => db.fetchChannel target)
  let state ← Task.readVoice (·.getVoiceState channel.id channel.server user.id)
  ensure state.isSome (.error .noEffect)
  let connectionType ← Task.readVoice (·.getVoiceConnectionType channel.id user.id)
  askToRemove services channel.id user.id
  if connectionType = some .viewer then
    Task.writeVoice (·.deleteViewerState channel.id user.id)
  else Task.writeVoice (·.deleteVoiceState channel.id channel.server user.id)
  Task.writeVoice (·.deleteVoiceConnectionType channel.id user.id)

namespace VoiceRedis

/-- A channel that cannot be fetched has no server. -/
def serverOf (db : MongoDb) (channelId : String) : Option String :=
  (db.fetchChannel channelId).toOption.bind Channel.server

def cleanupChannel (db : MongoDb) (userId : String) (redis : VoiceRedis) (channelId : String) :
    VoiceRedis :=
  (redis.deleteVoiceState channelId (serverOf db channelId) userId).deleteVoiceConnectionType
    channelId userId

/-- The loop over the channels of the user, without the events it publishes. -/
def cleanupUserVoiceOnDisconnect (redis : VoiceRedis) (db : MongoDb) (userId : String) :
    VoiceRedis :=
  (redis.getUserVoiceChannels userId).foldl (cleanupChannel db userId) redis

/-- What a user may have in a channel besides a connection: a place among the
viewers, a move that is not completed, or a call to be announced. -/
def Lingers (redis : VoiceRedis) (userId channel : String) : Prop :=
  userId ∈ redis.viewers channel ∨ redis.movedFrom userId channel ≠ none ∨
    redis.movedTo userId channel ≠ none ∨ redis.callRecipients channel userId ≠ none

/-- Nothing is left of the user in any call. -/
structure Cleaned (redis : VoiceRedis) (userId : String) : Prop where
  members : ∀ channel, userId ∉ redis.members channel
  channels : ∀ channel, channel ∉ redis.channels userId
  keys : ∀ parent, redis.Disconnected { user := userId, parent }
  connectionTypes : ∀ channel, redis.getVoiceConnectionType channel userId = none
  lingering : ∀ channel, ¬redis.Lingers userId channel

section Cleanup

variable {redis : VoiceRedis} {db : MongoDb} {userId : String}

theorem disconnected_cleanupChannel {channelId parent : String} :
    (cleanupChannel db userId redis channelId).Disconnected { user := userId, parent } ↔
      redis.Disconnected { user := userId, parent } ∨
        (serverOf db channelId).getD channelId = parent := by
  have key : (⟨userId, parent⟩ : VoiceKey) = uniqueKey channelId (serverOf db channelId) userId ↔
      (serverOf db channelId).getD channelId = parent := by
    simp [uniqueKey, eq_comm]
  rw [cleanupChannel, deleteVoiceState_eq]
  simp only [disconnected_iff, deleteVoiceConnectionType, dropState, Function.update_apply, key]
  split <;> simp [*]

theorem foldl_cleanupChannel (channelIds : List String) :
    let after := channelIds.foldl (cleanupChannel db userId) redis
    (∀ channel, userId ∈ after.members channel ↔
      userId ∈ redis.members channel ∧ channel ∉ channelIds) ∧
    (∀ channel, channel ∈ after.channels userId ↔
      channel ∈ redis.channels userId ∧ channel ∉ channelIds) ∧
    (∀ parent, after.Disconnected { user := userId, parent } ↔
      redis.Disconnected { user := userId, parent } ∨
        ∃ channel ∈ channelIds, (serverOf db channel).getD channel = parent) ∧
    (∀ channel, after.getVoiceConnectionType channel userId = none ↔
      redis.getVoiceConnectionType channel userId = none ∨ channel ∈ channelIds) ∧
    after.Lingers userId = redis.Lingers userId := by
  induction channelIds generalizing redis with
  | nil => simp
  | cons channelId channelIds ih =>
    obtain ⟨members, channels, keys, connectionTypes, lingers⟩ :=
      @ih (cleanupChannel db userId redis channelId)
    refine ⟨fun channel => (members channel).trans ?_, fun channel => (channels channel).trans ?_,
      fun parent => (keys parent).trans ?_, fun channel => (connectionTypes channel).trans ?_,
      lingers.trans ?_⟩
    · change userId ∈ (redis.deleteVoiceState _ _ _).members channel ∧ _ ↔ _
      rw [mem_members_deleteVoiceState, mem_cons]
      tauto
    · change channel ∈ (redis.deleteVoiceState _ _ _).channels userId ∧ _ ↔ _
      rw [mem_channels_deleteVoiceState, mem_cons]
      tauto
    · rw [disconnected_cleanupChannel, exists_mem_cons_iff, or_assoc]
    · rw [cleanupChannel, getVoiceConnectionType_deleteVoiceConnectionType,
        getVoiceConnectionType_deleteVoiceState]
      split <;> simp [*]
    · rw [cleanupChannel, deleteVoiceState_eq]
      rfl

/-- A clean-up leaves nothing of the user exactly if their list of channels is
complete, the database knows the servers of the keys, and nothing is left of a
move or an announcement, which are never looked at. -/
theorem voice_cleanup_complete_iff (redis : VoiceRedis) (db : MongoDb) (userId : String) :
    (redis.cleanupUserVoiceOnDisconnect db userId).Cleaned userId ↔
      (∀ channel, userId ∈ redis.members channel ∨
        redis.getVoiceConnectionType channel userId ≠ none → channel ∈ redis.channels userId) ∧
      (∀ parent, ¬redis.Disconnected { user := userId, parent } →
        ∃ channel ∈ redis.channels userId, (serverOf db channel).getD channel = parent) ∧
      ∀ channel, ¬redis.Lingers userId channel := by
  obtain ⟨members, channels, keys, connectionTypes, lingers⟩ :=
    @foldl_cleanupChannel redis db userId (redis.getUserVoiceChannels userId)
  constructor
  · intro cleaned
    refine ⟨fun channel => ?_, fun parent left => ?_, lingers ▸ cleaned.lingering⟩
    · have unlisted := mt (members channel).mpr (cleaned.members channel)
      have untyped := (connectionTypes channel).mp (cleaned.connectionTypes channel)
      rw [getUserVoiceChannels] at unlisted untyped
      tauto
    · exact ((keys parent).mp (cleaned.keys parent)).resolve_left left
  · rintro ⟨tracked, found, away⟩
    refine ⟨fun channel listed => ?_, fun channel listed => ?_, fun parent => ?_,
      fun channel => ?_, lingers ▸ away⟩
    · have left := (members channel).mp listed
      exact left.2 (tracked channel (.inl left.1))
    · have left := (channels channel).mp listed
      exact left.2 left.1
    · exact (keys parent).mpr (or_iff_not_imp_left.mpr (found parent))
    · refine (connectionTypes channel).mpr (or_iff_not_imp_left.mpr fun typed => ?_)
      exact tracked channel (.inr typed)

/-- The channel of a call is deleted before the user disconnects. -/
theorem deleted_channel_key_left :
    ¬((({} : VoiceRedis).createVoiceState "lobby" (some "server") "alice"
      0).cleanupUserVoiceOnDisconnect MongoDb.empty "alice").Cleaned "alice" := by
  intro cleaned
  exact absurd (cleaned.keys "server").current (by decide)

end Cleanup

end VoiceRedis

/-! Two voice channels of the sample server, and one node. -/

def lobbyChannel : TextChannel where
  id := "lobby"
  server := "server"
  voice := some {}

def stageChannel : TextChannel where
  id := "stage"
  server := "server"
  voice := some {}

def callBackend : Backend where
  db := { sampleStore with
    channels := .ofDocuments [.textChannel lobbyChannel, .textChannel stageChannel] }

def oneNode : VoiceServices where
  now := 0
  nodes := ["node"]
  answer _ _ := .ok ()
  createToken _ _ _ _ _ := .ok "token"
  allowsVideo _ := true

inductive TrackType where
  | audio | video | data

structure Track where
  type : TrackType
  source : Nat
  width : UInt32
  height : UInt32

/-- The limits of a user for videos. Aspect ratios are quotients of floats. -/
structure VideoLimits where
  resolution : UInt32 × UInt32
  outsideRatio : (width height : UInt32) → Bool

/-- A product of `u32`, which panics on overflow. -/
def product (a b : UInt32) : Except Failure UInt32 :=
  if a.toNat * b.toNat < UInt32.size then .ok (a * b)
  else .error (.panic "attempt to multiply with overflow")

namespace Track

variable (track : Track) (limits : VideoLimits)

def tooLarge : Except Failure Bool :=
  if limits.resolution.1 ≠ 0 ∧ limits.resolution.2 ≠ 0 then do
    let size ← product track.width track.height
    let most ← product limits.resolution.1 limits.resolution.2
    return decide (most < size)
  else return false

/-- Whether a track ends the connection of who publishes it. -/
def forbidden : Except Failure Bool :=
  match track.type with
  | .data => .ok true
  | .video =>
    if track.source = 1 then do
      let large ← track.tooLarge limits
      return large || limits.outsideRatio track.width track.height
    else .ok false
  | .audio => .ok false

end Track

/-- `update_voice_state_tracks` -/
def PartialUserVoiceState.ofSource : Nat → Except Failure PartialUserVoiceState
  | 0 => .ok {}
  | 1 => .ok { camera := some true }
  | 2 => .ok { isPublishing := some true }
  | 3 | 4 => .ok { screensharing := some true }
  | _ => .error (.panic "internal error: entered unreachable code")

/-- `track_published` -/
def trackPublished (services : VoiceServices) (limits : User → VideoLimits)
    (node channelId userId : String) (track : Track) : Task Unit := do
  let connectionType ← Task.readVoice (·.getVoiceConnectionType channelId userId)
  if connectionType = some .viewer then do
    let _ ← result (Task.send services (.removeParticipant node channelId userId))
    Task.writeVoice (·.deleteViewerState channelId userId)
    Task.writeVoice (·.deleteVoiceConnectionType channelId userId)
  else do
    let channel ← Task.ofRoute (fetch fun db => db.fetchChannel channelId)
    let user ← Task.ofRoute (fetch fun db => db.fetchUser userId)
    if ← attempt fun _ => track.forbidden (limits user) then do
      let _ ← result (Task.send services (.removeParticipant node channelId userId))
      Task.writeVoice (·.deleteVoiceState channelId channel.server userId)
    else do
      let changes ← attempt fun _ => PartialUserVoiceState.ofSource track.source
      Task.writeVoice (·.updateVoiceState channelId channel.server userId changes)

theorem fits_of_product {a b c : UInt32} (multiplied : product a b = .ok c) :
    a.toNat * b.toNat < UInt32.size := by
  rw [product] at multiplied
  split at multiplied
  · assumption
  · cases multiplied

/-- The limit on the resolution is enforced exactly where both products fit. -/
theorem video_limit_enforced_iff {services : VoiceServices} {limits : User → VideoLimits}
    {node channelId userId : String} {backend : Backend} {channel : Channel} {user : User}
    {width height columns rows : UInt32} {outsideRatio : UInt32 → UInt32 → Bool}
    (known : services.nodes.contains node)
    (participant : backend.voice.getVoiceConnectionType channelId userId ≠ some .viewer)
    (located : backend.db.fetchChannel channelId = .ok channel)
    (fetched : backend.db.fetchUser userId = .ok user)
    (limited : limits user = ⟨(columns, rows), outsideRatio⟩) (bounds : columns ≠ 0 ∧ rows ≠ 0) :
    ((∃ large, Track.tooLarge ⟨.video, 1, width, height⟩ (limits user) = .ok large) ∧
      (columns.toNat * rows.toNat < width.toNat * height.toNat →
        trackPublished services limits node channelId userId ⟨.video, 1, width, height⟩ backend =
          (.ok (), { backend with
            issued := backend.issued ++ [.removeParticipant node channelId userId]
            voice := backend.voice.deleteVoiceState channelId channel.server userId }))) ↔
      width.toNat * height.toNat < UInt32.size ∧ columns.toNat * rows.toNat < UInt32.size := by
  constructor
  · rintro ⟨⟨_, evaluated⟩, _⟩
    rw [limited, Track.tooLarge, if_pos bounds] at evaluated
    obtain ⟨_, size, evaluated⟩ := bind_eq_ok.mp evaluated
    obtain ⟨_, most, _⟩ := bind_eq_ok.mp evaluated
    exact ⟨fits_of_product size, fits_of_product most⟩
  · rintro ⟨size, most⟩
    have evaluated : Track.tooLarge ⟨.video, 1, width, height⟩ (limits user) =
        .ok (decide (columns * rows < width * height)) := by
      rw [limited, Track.tooLarge, if_pos bounds, product, product, if_pos size, if_pos most]
      rfl
    refine ⟨⟨_, evaluated⟩, fun exceeds => ?_⟩
    have larger : columns * rows < width * height := by
      rwa [UInt32.lt_iff_toNat_lt, UInt32.toNat_mul, UInt32.toNat_mul, Nat.mod_eq_of_lt most,
        Nat.mod_eq_of_lt size]
    have judged : attempt (fun _ => Track.forbidden ⟨.video, 1, width, height⟩ (limits user))
        backend = (.ok true, backend) := by
      rw [attempt, Track.forbidden, if_pos rfl, evaluated, decide_eq_true larger]
      rfl
    rw [trackPublished, bind_of_ok (Task.readVoice_run ..), if_neg participant,
      bind_of_ok (Task.fetch_run located), bind_of_ok (Task.fetch_run fetched), bind_of_ok judged,
      if_pos rfl, bind_of_ok (removeParticipant_run _ _ _ known backend)]
    rfl

def fullHd : VideoLimits := ⟨(1920, 1080), fun _ _ => false⟩

theorem large_video_removed :
    (trackPublished oneNode (fun _ => fullHd) "node" "lobby" "guest-user"
        ⟨.video, 1, 3840, 2160⟩ callBackend).2.issued =
      [.removeParticipant "node" "lobby" "guest-user"] := by
  have enforced := @video_limit_enforced_iff oneNode (fun _ => fullHd) "node" "lobby" "guest-user"
    callBackend _ _ 3840 2160 _ _ _ rfl (by decide) rfl rfl rfl (by decide)
  rw [(enforced.mpr (by decide)).2 (by decide)]
  rfl

/-- A product of the dimensions that does not fit panics. -/
theorem huge_video_overflows :
    trackPublished oneNode (fun _ => fullHd) "node" "lobby" "guest-user"
        ⟨.video, 1, 65536, 65536⟩ callBackend =
      (.error (.panic "attempt to multiply with overflow"), callBackend) :=
  rfl

end Company
