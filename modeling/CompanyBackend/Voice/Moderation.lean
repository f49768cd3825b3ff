import CompanyBackend.Members.Removal
import CompanyBackend.Voice.MemberCalls

/-!
# Moderation and calls

A kick, a ban and an edit that mutes, deafens or disconnects a member should reach the call that
the member is in, and nobody else's.

A ban does so while the user is a member and the key of the user tells where the call is. A kick
looks for the call of the server itself and so finds none. An edit reaches the call if it moves
the member, or if the members edit themselves; otherwise the node is told about the editor.
-/

namespace Company

open Request Company.Task VoiceRedis Function List Option

def VoiceRedis.connection (redis : VoiceRedis) (key : VoiceKey) :
    Option String × Option Timestamp × Option Bool × Option Bool × Option Bool × Option Bool :=
  (redis.current key, redis.joinedAt key, redis.isPublishing key, redis.isReceiving key,
    redis.screensharing key, redis.camera key)

/-- Nothing that is recorded about a user has changed. -/
structure VoiceRedis.SameFor (user : String) (redis redis' : VoiceRedis) : Prop where
  members : ∀ channel, user ∈ redis'.members channel ↔ user ∈ redis.members channel
  channels : ∀ channel, channel ∈ redis'.channels user ↔ channel ∈ redis.channels user
  connection : ∀ key : VoiceKey, key.user = user → redis'.connection key = redis.connection key
  connectionTypes : redis'.connectionTypes user = redis.connectionTypes user

namespace Backend

variable (backend : Backend)

/-- The channel is one of the server. A channel without a server stands for
itself. -/
def Belongs (channel server : String) : Prop :=
  ∃ document, backend.db.channels.find channel = some document ∧
    document.server.getD channel = server

/-- The user is listed for a channel of the server. -/
structure InCall (user server channel : String) : Prop where
  belongs : backend.Belongs channel server
  listed : user ∈ backend.voice.members channel ∨ channel ∈ backend.voice.channels user

/-- The requests that are sent from one state of the backend to another. -/
def sentUntil (backend' : Backend) : List NodeRequest :=
  backend'.issued.drop backend.issued.length

/-- The key of a user in a server tells where the user is, and nothing is left
without it. -/
structure Tracks (user server : String) : Prop where
  listed : ∀ channel, backend.InCall user server channel →
    backend.voice.getUserVoiceChannelInServer user server = some channel
  located : ∀ channel, backend.voice.getUserVoiceChannelInServer user server = some channel →
    backend.Belongs channel server
  states : backend.voice.getUserVoiceChannelInServer user server = none →
    backend.voice.Disconnected { user, parent := server }

end Backend

/-- The request is about a participant of a channel, on its node. -/
def NodeRequest.Addresses (node channel user : String) : NodeRequest → Prop
  | updateParticipant node' channel' user' _ => node' = node ∧ channel' = channel ∧ user' = user
  | removeParticipant node' channel' user' => node' = node ∧ channel' = channel ∧ user' = user
  | _ => False

inductive Moderation where
  | kick (member : String)
  | ban (target : String) (data : DataBanCreate)
  | edit (member : String) (data : DataMemberEdit)

namespace Moderation

def target : Moderation → String
  | kick member => member
  | ban target _ => target
  | edit member _ => member

def removes : Moderation → Bool
  | edit .. => false
  | _ => true

/-- An edit is moderation if it disconnects, mutes or deafens the member. -/
def moderates : Moderation → Bool
  | edit _ data =>
    data.remove.contains .voiceChannel || data.canPublish == some false ||
      data.canReceive == some false
  | _ => true

def run (describeBan : DataBanCreate → String) (describeEdit : DataMemberEdit → String)
    (services : VoiceServices) (user : User) (server : String) : Moderation → Task Unit
  | kick member => kickMember services user server member
  | ban target data => do
    let _ ← banUser describeBan services user server target data
  | edit member data => do
    let _ ← Task.editMember describeEdit services user server member data

end Moderation

/-- The call of the target is reached, and no other. -/
structure ReachesCall (target server : String) (removes : Bool) (before after : Backend) :
    Prop where
  addressed : ∀ channel node, before.InCall target server channel →
    before.voice.getChannelNode channel = some node →
    ∃ request ∈ before.sentUntil after, request.Addresses node channel target
  gone : removes → after.voice.Disconnected { user := target, parent := server } ∧
    ∀ channel, before.Belongs channel server →
      target ∉ after.voice.members channel ∧ channel ∉ after.voice.channels target
  spared : ∀ other, other ≠ target → before.voice.SameFor other after.voice ∧
    ∀ request ∈ before.sentUntil after, request.participant ≠ some other

variable {subject channel node user : String} {request : NodeRequest} {requests : List NodeRequest}

section Acting

variable {before middle after : Backend} {other server : String}
variable {requests' : List NodeRequest}

theorem VoiceRedis.SameFor.refl (user : String) (redis : VoiceRedis) : redis.SameFor user redis :=
  ⟨fun _ => .rfl, fun _ => .rfl, fun _ _ => rfl, rfl⟩

theorem VoiceRedis.SameFor.trans {redis redis' redis'' : VoiceRedis}
    (first : redis.SameFor user redis') (second : redis'.SameFor user redis'') :
    redis.SameFor user redis'' where
  members channel := (second.members channel).trans (first.members channel)
  channels channel := (second.channels channel).trans (first.channels channel)
  connection key own := (second.connection key own).trans (first.connection key own)
  connectionTypes := second.connectionTypes.trans first.connectionTypes

/-- From one state to the other, requests are sent and keys are changed for one
user only. -/
structure ActsFor (subject : String) (before after : Backend) (requests : List NodeRequest) :
    Prop where
  issued : after.issued = before.issued ++ requests
  about : ∀ request ∈ requests, ∀ user, request.participant = some user → user = subject
  same : ∀ other, other ≠ subject → before.voice.SameFor other after.voice

theorem ActsFor.nothing (voice : after.voice = before.voice) (issued : after.issued = before.issued)
    : ActsFor subject before after [] where
  issued := by rw [issued, append_nil]
  about := by simp
  same other _ := voice ▸ .refl other _

theorem ActsFor.trans (first : ActsFor subject before middle requests)
    (second : ActsFor subject middle after requests') :
    ActsFor subject before after (requests ++ requests') where
  issued := by rw [second.issued, first.issued, append_assoc]
  about request sent := (mem_append.mp sent).elim (first.about request) (second.about request)
  same other ne := (first.same other ne).trans (second.same other ne)

theorem ActsFor.sentUntil (acts : ActsFor subject before after requests) :
    before.sentUntil after = requests := by
  rw [Backend.sentUntil, acts.issued, drop_left]

theorem ActsFor.spares (acts : ActsFor subject before after requests) (ne : other ≠ subject) :
    before.voice.SameFor other after.voice ∧
      ∀ request ∈ before.sentUntil after, request.participant ≠ some other := by
  refine ⟨acts.same other ne, ?_⟩
  rw [acts.sentUntil]
  intro request sent about
  exact ne (acts.about request sent other about)

theorem NodeRequest.Addresses.participant
    (addresses : request.Addresses node channel user) : request.participant = some user := by
  cases request with
  | updateParticipant _ _ _ _ | removeParticipant _ _ _ => exact congrArg some addresses.2.2
  | createRoom _ _ | deleteRoom _ _ => exact addresses.elim

theorem NodeRequest.Addresses.unique {node' channel' user' : String}
    (first : request.Addresses node channel user)
    (second : request.Addresses node' channel' user') : channel = channel' ∧ user = user' := by
  cases request with
  | updateParticipant _ _ _ _ | removeParticipant _ _ _ =>
    exact ⟨first.2.1.symm.trans second.2.1, first.2.2.symm.trans second.2.2⟩
  | createRoom _ _ | deleteRoom _ _ => exact first.elim

end Acting

section Keys

variable {redis : VoiceRedis} {other : String} {server : Option String}

theorem VoiceRedis.deleteVoiceState_sameFor (ne : other ≠ user) :
    redis.SameFor other (redis.deleteVoiceState channel server user) := by
  refine ⟨fun name => ?_, fun name => ?_, fun key own => ?_, ?_⟩
  · rw [mem_members_deleteVoiceState]
    exact and_iff_left fun same => ne same.2
  · rw [mem_channels_deleteVoiceState]
    exact and_iff_left fun same => ne same.1
  · have apart : key ≠ uniqueKey channel server user := by
      rintro rfl
      exact ne own.symm
    rw [deleteVoiceState_eq]
    simp only [connection, dropState, update_of_ne apart]
  · rw [deleteVoiceState_eq]
    rfl

theorem VoiceRedis.updateVoiceState_sameFor (changes : PartialUserVoiceState) (ne : other ≠ user) :
    redis.SameFor other (redis.updateVoiceState channel server user changes) := by
  refine ⟨fun _ => .rfl, fun _ => .rfl, fun key own => ?_, rfl⟩
  have apart : key ≠ uniqueKey channel server user := by
    rintro rfl
    exact ne own.symm
  simp only [connection, updateVoiceState, update_of_ne apart]

end Keys

/-! ## What the tasks send -/

variable {services : VoiceServices} {document : Channel} {data : DataMemberEdit}

section Sending

variable {user targetUser : User} {server : Server}
variable {backend backend' : Backend}

/-- A move takes the target out of the old call. -/
theorem Task.moveFrom_ok {newChannel : Channel}
    (ran : Task.moveFrom services targetUser newChannel channel backend = (.ok (), backend')) :
    ∃ node requests, backend.voice.getChannelNode channel = some node ∧
      ActsFor targetUser.id backend backend' requests ∧
      (∀ request ∈ requests, ∀ node' channel' user', request.Addresses node' channel' user' →
        channel' = channel) ∧
      .removeParticipant node channel targetUser.id ∈ requests := by
  obtain ⟨oldNode, known, ran⟩ := of_callNode_bind_eq_ok ran
  obtain ⟨newNode, middle, chosen, ran⟩ := of_bind_eq_ok ran
  obtain ⟨nodes, rfl⟩ := newCallNode_ok chosen
  obtain ⟨_, moved, ⟨⟩, ran⟩ := of_bind_eq_ok ran
  obtain ⟨_, moved, ⟨⟩, ran⟩ := of_bind_eq_ok ran
  obtain ⟨⟨permissions, _⟩, _, ran⟩ := of_ofRoute_bind_eq_ok (readOnly_attempt _) ran
  replace ran := of_send_bind_eq_ok ran
  obtain ⟨token, _, ran⟩ := of_readOnly_bind_eq_ok (readOnly_attempt _) ran
  refine ⟨oldNode, [.createRoom newNode newChannel.id,
    .removeParticipant oldNode channel targetUser.id], known, ?_, ?_, by simp⟩
  · rw [Task.send_ok ran]
    refine ⟨append_assoc .., ?_, fun other ne => ?_⟩
    · intro request listed user about
      rcases mem_pair.mp listed with rfl | rfl
      · cases about
      · exact (Option.some.inj about).symm
    · exact ⟨fun _ => .rfl, fun _ => .rfl, fun _ _ => rfl, rfl⟩
  · intro request listed node' channel' user' addresses
    rcases mem_pair.mp listed with rfl | rfl
    · exact addresses.elim
    · exact addresses.2.1.symm

/-- The node of a call is told about one user, or nothing at all happens. -/
structure Notifies (subject channel node : String) (before after : Backend)
    (requests : List NodeRequest) : Prop extends ActsFor subject before after requests where
  known : before.voice.getChannelNode channel = some node
  addressed : ∀ request ∈ requests, request.Addresses node channel subject
  untouched : requests = [] → after.voice = before.voice
  nodes : after.voice.nodes = before.voice.nodes
  current : after.voice.current = before.voice.current

theorem Notifies.nothing (known : backend.voice.getChannelNode channel = some node) :
    Notifies subject channel node backend backend [] where
  toActsFor := .nothing rfl rfl
  known := known
  addressed := by simp
  untouched _ := rfl
  nodes := rfl
  current := rfl

theorem Notifies.single {after : Backend} (known : backend.voice.getChannelNode channel = some node)
    (addresses : request.Addresses node channel subject)
    (issued : after.issued = backend.issued ++ [request])
    (same : ∀ other, other ≠ subject → backend.voice.SameFor other after.voice)
    (nodes : after.voice.nodes = backend.voice.nodes)
    (current : after.voice.current = backend.voice.current) :
    Notifies subject channel node backend after [request] := by
  refine ⟨⟨issued, ?_, same⟩, known, ?_, nofun, nodes, current⟩
  · intro request listed user about
    rw [mem_singleton.mp listed, addresses.participant] at about
    exact (Option.some.inj about).symm
  · intro request listed
    rw [mem_singleton.mp listed]
    exact addresses

theorem Notifies.trans {node' : String} {before middle after : Backend}
    {requests' : List NodeRequest} (first : Notifies subject channel node before middle requests)
    (second : Notifies subject channel node' middle after requests') :
    Notifies subject channel node before after (requests ++ requests') := by
  have same : node' = node := by
    have known := first.known
    rw [getChannelNode, ← first.nodes] at known
    exact Option.some.inj (second.known.symm.trans known)
  subst same
  refine ⟨first.toActsFor.trans second.toActsFor, first.known, ?_, ?_,
    second.nodes.trans first.nodes, second.current.trans first.current⟩
  · intro request listed
    exact (mem_append.mp listed).elim (first.addressed request) (second.addressed request)
  · intro nothing
    obtain ⟨before, after⟩ := append_eq_nil_iff.mp nothing
    exact (second.untouched after).trans (first.untouched before)

theorem syncConnection_ok {server : Option Server} {member : Option Member} {state : UserVoiceState}
    (ran : syncConnection services node user document server member state backend =
      (.ok (), backend')) :
    ∃ changes permission, backend' = { backend with
      voice := backend.voice.updateVoiceState document.id (server.map Server.id) user.id changes
      issued := backend.issued ++ [.updateParticipant node document.id user.id permission] } := by
  obtain ⟨⟨permissions, _⟩, _, ran⟩ := of_ofRoute_bind_eq_ok (readOnly_attempt _) ran
  obtain ⟨_, middle, ⟨⟩, ran⟩ := of_bind_eq_ok ran
  exact ⟨_, _, Task.send_ok ran⟩

/-- Without a role every member is concerned, but only a user with a state is
told about. -/
theorem syncUserVoicePermissions_ok
    (ran : syncUserVoicePermissions services node user document (some server) none backend =
      (.ok (), backend')) :
    backend.voice.getVoiceState document.id (some server.id) user.id = none ∧ backend' = backend ∨
      (backend.voice.getVoiceState document.id (some server.id) user.id).isSome ∧
        ∃ changes permission, backend' = { backend with
          voice := backend.voice.updateVoiceState document.id (some server.id) user.id changes
          issued := backend.issued ++
            [.updateParticipant node document.id user.id permission] } := by
  have joined : ReadOnly (fetchServerMember (some server) user) :=
    (ofRoute_readOnly (readOnly_attempt _)).bind fun _ => readOnly_pure _
  obtain ⟨member, _, ran⟩ := of_readOnly_bind_eq_ok joined ran
  obtain ⟨state, _, read, ran⟩ := of_bind_eq_ok ran
  obtain ⟨found, rfl⟩ := Prod.ext_iff.mp read
  obtain rfl := Except.ok.inj found
  cases found : backend.voice.getVoiceState document.id (some server.id) user.id with
  | some state =>
    simp only [map_some, found] at ran
    exact .inr ⟨rfl, syncConnection_ok ran⟩
  | none =>
    simp only [map_some, found] at ran
    cases ran
    exact .inl ⟨rfl, rfl⟩

/-- The node is told about the editor, if the editor is in a call of the
server. -/
theorem Task.syncIn_ok (ran : Task.syncIn services user server channel backend = (.ok (), backend'))
    :
    ∃ node requests, Notifies user.id channel node backend backend' requests ∧
      (requests = [] ↔ backend.voice.getVoiceState channel (some server.id) user.id = none) := by
  obtain ⟨node, known, called⟩ := of_callNode_bind_eq_ok ran
  obtain ⟨document, fetched, synced⟩ := of_ofRoute_bind_eq_ok (readOnly_attempt _) called
  have stored : backend.db.fetchChannel channel = .ok document :=
    mapError_eq_ok.mp (congrArg Prod.fst fetched)
  obtain rfl : document.id = channel := Collection.key_of_find (orNotFound_eq_ok.mp stored)
  obtain ⟨absent, rfl⟩ | ⟨present, changes, permission, rfl⟩ := syncUserVoicePermissions_ok synced
  · exact ⟨node, [], .nothing known, iff_of_true rfl absent⟩
  · refine ⟨node, [.updateParticipant node document.id user.id permission],
      .single known ⟨rfl, rfl, rfl⟩ rfl (fun _ => updateVoiceState_sameFor changes) rfl rfl,
      ?_⟩
    exact iff_of_false (cons_ne_nil _ _) (isSome_iff_ne_none.mp present)

theorem Task.leaveFrom_ok (ran : Task.leaveFrom services user channel backend = (.ok (), backend'))
    : ∃ node requests, Notifies user.id channel node backend backend' requests ∧ requests ≠ [] := by
  obtain ⟨node, known, sent⟩ := of_callNode_bind_eq_ok ran
  rw [Task.send_ok sent]
  exact ⟨node, [.removeParticipant node channel user.id],
    .single known ⟨rfl, rfl, rfl⟩ rfl (fun other _ => .refl other _) rfl rfl, by simp⟩

variable {newChannel : Option Channel}

theorem Task.updateVoice_absent
    (absent : backend.voice.getUserVoiceChannelInServer targetUser.id server.id = none)
    (ran : updateVoice services user targetUser server data newChannel backend = (.ok (), backend'))
    : backend' = backend := by
  have updated : Task.updateCall services user targetUser server data newChannel backend =
      (.ok (), backend) := by
    cases newChannel with
    | some newChannel => exact onCall_eq_pure absent
    | none =>
      rw [Task.updateCall, onlyIf]
      split
      · exact onCall_eq_pure absent
      · rfl
  rw [updateVoice, bind_of_ok updated, onlyIf] at ran
  split at ran
  · rw [Task.leaveCall, onCall_eq_pure absent] at ran
    exact (congrArg Prod.snd ran).symm
  · exact (congrArg Prod.snd ran).symm

/-- A move and a removal from the call do not come together, so a move is all
that happens. -/
theorem Task.updateVoice_moves {newChannel : Channel}
    (stays : data.remove.contains .voiceChannel = false)
    (found : backend.voice.getUserVoiceChannelInServer targetUser.id server.id = some channel)
    (ran : updateVoice services user targetUser server data (some newChannel) backend =
      (.ok (), backend')) :
    Task.moveFrom services targetUser newChannel channel backend = (.ok (), backend') := by
  obtain ⟨_, middle, moved, left⟩ := of_bind_eq_ok ran
  rw [stays] at left
  cases left
  exact (onCall_eq found).symm.trans moved

/-- The editor is named, for the permissions as well as for the removal. -/
theorem Task.updateVoice_notifies
    (acts : data.remove.contains .voiceChannel = false →
      (data.canPublish.isSome || data.canReceive.isSome || data.remove.contains .canPublish ||
        data.remove.contains .canReceive))
    (found : backend.voice.getUserVoiceChannelInServer targetUser.id server.id = some channel)
    (ran : updateVoice services user targetUser server data none backend = (.ok (), backend')) :
    ∃ node requests, Notifies user.id channel node backend backend' requests ∧
      (requests = [] ↔ data.remove.contains .voiceChannel = false ∧
        backend.voice.getVoiceState channel (some server.id) user.id = none) := by
  obtain ⟨_, middle, updated, left⟩ := of_bind_eq_ok ran
  rw [Task.updateCall] at updated
  cases leaves : data.remove.contains .voiceChannel with
  | false =>
    rw [leaves] at left
    cases left
    rw [acts leaves, onlyIf, if_pos rfl, Task.syncCall, onCall_eq found] at updated
    obtain ⟨node, requests, notifies, nothing⟩ := syncIn_ok updated
    exact ⟨node, requests, notifies, by simpa using nothing⟩
  | true =>
    rw [leaves, onlyIf, if_pos rfl, Task.leaveCall] at left
    -- The permissions may have been updated before, on the same call.
    have synced : middle = backend ∨
        ∃ node requests, Notifies user.id channel node backend middle requests := by
      rw [onlyIf] at updated
      split at updated
      · rw [Task.syncCall, onCall_eq found] at updated
        obtain ⟨node, requests, notifies, _⟩ := syncIn_ok updated
        exact .inr ⟨node, requests, notifies⟩
      · exact .inl (congrArg Prod.snd updated).symm
    have still :
        middle.voice.getUserVoiceChannelInServer targetUser.id server.id = some channel := by
      rcases synced with rfl | ⟨_, _, notifies⟩
      · exact found
      · rw [getUserVoiceChannelInServer, notifies.current]
        exact found
    rw [onCall_eq still] at left
    obtain ⟨node', requests', told, nonempty⟩ := leaveFrom_ok left
    rcases synced with rfl | ⟨node, requests, notifies⟩
    · exact ⟨node', requests', told, iff_of_false nonempty (by simp)⟩
    · exact ⟨node, requests ++ requests', notifies.trans told,
        iff_of_false (by simp [nonempty]) (by simp)⟩

end Sending

section Removing

variable {backend backend' : Backend} {server : String}

/-- The node is asked to remove the user, and then the state is deleted in any
case. -/
theorem removeUserFromVoiceChannel_ok
    (ran : removeUserFromVoiceChannel services channel user backend = (.ok (), backend')) :
    ∃ document, backend.db.channels.find channel = some document ∧
      backend' = { backend with
        voice := backend.voice.deleteVoiceState channel document.server user
        issued := backend.issued ++ (((backend.voice.getChannelNode channel).toList.filter
          services.nodes.contains).map (NodeRequest.removeParticipant · channel user)) } := by
  rw [removeUserFromVoiceChannel, bind_of_ok (askToRemove_run services channel user backend)] at ran
  obtain ⟨document, fetched, ⟨⟩⟩ := of_ofRoute_bind_eq_ok (readOnly_attempt _) ran
  have stored : backend.db.fetchChannel channel = .ok document :=
    mapError_eq_ok.mp (congrArg Prod.fst fetched)
  exact ⟨document, orNotFound_eq_ok.mp stored, rfl⟩

theorem removeFromCall_ok (ran : removeFromCall services user server backend = (.ok (), backend')) :
    backend.voice.getUserVoiceChannelInServer user server = none ∧ backend' = backend ∨
      ∃ channel, backend.voice.getUserVoiceChannelInServer user server = some channel ∧
        removeUserFromVoiceChannel services channel user backend = (.ok (), backend') := by
  rw [removeFromCall, bind_of_ok (readVoice_run _ backend)] at ran
  cases found : backend.voice.getUserVoiceChannelInServer user server with
  | none =>
    rw [found] at ran
    cases ran
    exact .inl ⟨rfl, rfl⟩
  | some channel =>
    rw [found] at ran
    exact .inr ⟨channel, rfl, ran⟩

end Removing

section Reaching

variable {before after : Backend} {target server : String}

/-- If nothing happens, there must have been no call. -/
theorem ReachesCall.untouched_iff (voice : after.voice = before.voice)
    (issued : after.issued = before.issued) :
    ReachesCall target server true before after ↔
      before.Tracks target server ∧
        before.voice.getUserVoiceChannelInServer target server = none := by
  constructor
  · intro reaches
    obtain ⟨disconnected, unlisted⟩ := reaches.gone rfl
    rw [voice] at disconnected unlisted
    have absent : before.voice.getUserVoiceChannelInServer target server = none :=
      disconnected.current
    refine ⟨⟨?_, ?_, fun _ => disconnected⟩, absent⟩
    · intro channel inCall
      obtain ⟨noMember, noChannel⟩ := unlisted channel inCall.belongs
      exact (inCall.listed.elim noMember noChannel).elim
    · intro channel found
      cases absent.symm.trans found
  · rintro ⟨tracks, absent⟩
    have outside : ∀ channel, ¬before.InCall target server channel := by
      intro channel inCall
      cases absent.symm.trans (tracks.listed channel inCall)
    refine ⟨?_, fun _ => ⟨?_, ?_⟩, ?_⟩
    · intro channel _ inCall
      exact (outside channel inCall).elim
    · rw [voice]
      exact tracks.states absent
    · intro channel belongs
      rw [voice]
      exact ⟨fun listed => outside channel ⟨belongs, .inl listed⟩,
        fun listed => outside channel ⟨belongs, .inr listed⟩⟩
    · intro other ne
      have acts : ActsFor target before after [] := .nothing voice issued
      exact acts.spares ne

/-- If the target is removed from the call that the key names, this must have
been all of it. -/
theorem ReachesCall.removed_iff
    (configured : ∀ node, before.voice.getChannelNode channel = some node →
      services.nodes.contains node)
    (found : before.voice.getUserVoiceChannelInServer target server = some channel)
    (stored : before.db.channels.find channel = some document)
    (voice : after.voice = before.voice.deleteVoiceState channel document.server target)
    (issued : after.issued = before.issued ++ (((before.voice.getChannelNode channel).toList.filter
      services.nodes.contains).map (NodeRequest.removeParticipant · channel target))) :
    ReachesCall target server true before after ↔ before.Tracks target server := by
  have acts : ActsFor target before after (((before.voice.getChannelNode channel).toList.filter
      services.nodes.contains).map (NodeRequest.removeParticipant · channel target)) := by
    refine ⟨issued, ?_, ?_⟩
    · intro request sent user about
      obtain ⟨node, _, rfl⟩ := List.mem_map.mp sent
      exact (Option.some.inj about).symm
    · intro other ne
      rw [voice]
      exact deleteVoiceState_sameFor ne
  constructor
  · intro reaches
    obtain ⟨disconnected, unlisted⟩ := reaches.gone rfl
    rw [voice] at disconnected unlisted
    -- The key of the target in the server is gone, so it was the one of this channel.
    have belongs : before.Belongs channel server := by
      refine ⟨document, stored, ?_⟩
      by_contra apart
      have kept := disconnected.current
      have other : ({ user := target, parent := server } : VoiceKey) ≠
          uniqueKey channel document.server target := by
        intro same
        exact apart (congrArg VoiceKey.parent same).symm
      rw [deleteVoiceState_eq] at kept
      change Function.update before.voice.current _ none _ = none at kept
      rw [update_of_ne other] at kept
      cases found.symm.trans kept
    refine ⟨?_, ?_, ?_⟩
    · intro name inCall
      obtain ⟨noMember, noChannel⟩ := unlisted name inCall.belongs
      rw [mem_members_deleteVoiceState] at noMember
      rw [mem_channels_deleteVoiceState] at noChannel
      have same : name = channel := by
        by_contra ne
        rcases inCall.listed with listed | listed
        · exact noMember ⟨listed, fun same => ne same.1⟩
        · exact noChannel ⟨listed, fun same => ne same.2⟩
      rw [same, found]
    · intro name named
      cases found.symm.trans named
      exact belongs
    · intro absent
      cases found.symm.trans absent
  · intro tracks
    have here : ∀ name, before.InCall target server name → name = channel := by
      intro name inCall
      exact Option.some.inj ((tracks.listed name inCall).symm.trans found)
    refine ⟨?_, fun _ => ⟨?_, ?_⟩, fun other ne => acts.spares ne⟩
    · intro name node inCall known
      obtain rfl := here name inCall
      rw [acts.sentUntil]
      refine ⟨.removeParticipant node name target, ?_, rfl, rfl, rfl⟩
      refine List.mem_map.mpr ⟨node, mem_filter.mpr ⟨?_, configured node known⟩, rfl⟩
      rw [known]
      exact mem_singleton_self node
    · obtain ⟨document', stored', parent⟩ := tracks.located channel found
      cases stored.symm.trans stored'
      have disconnected := @disconnected_deleteVoiceState before.voice channel target
        document.server
      rw [uniqueKey, parent] at disconnected
      rwa [voice]
    · intro name belongs
      rw [voice, mem_members_deleteVoiceState, mem_channels_deleteVoiceState]
      constructor
      · rintro ⟨listed, another⟩
        exact another ⟨here name ⟨belongs, .inl listed⟩, rfl⟩
      · rintro ⟨listed, another⟩
        exact another ⟨rfl, here name ⟨belongs, .inr listed⟩⟩

/-- An edit reaches the call of the member on a move, or if it is the member's
own edit. -/
structure DataMemberEdit.Reaches (data : DataMemberEdit) (editor target server : String)
    (backend : Backend) : Prop where
  addressed : ∀ channel, backend.InCall target server channel →
    (backend.voice.getChannelNode channel).isSome →
      backend.voice.getUserVoiceChannelInServer target server = some channel ∧
        (data.voiceChannel.isSome ∨ editor = target ∧
          (data.remove.contains .voiceChannel ∨
            backend.voice.getVoiceState channel (some server) target ≠ none))
  spared : ∀ channel, backend.voice.getUserVoiceChannelInServer target server = some channel →
    data.voiceChannel = none → editor ≠ target →
      data.remove.contains .voiceChannel = false ∧
        backend.voice.getVoiceState channel (some server) editor = none

variable {services : VoiceServices} {user : User}

theorem DataMemberEdit.reaches_absent_iff
    (absent : before.voice.getUserVoiceChannelInServer target server = none)
    (voice : after.voice = before.voice) (issued : after.issued = before.issued) :
    ReachesCall target server false before after ↔ data.Reaches user.id target server before := by
  have acts : ActsFor target before after [] := .nothing voice issued
  constructor
  · intro reaches
    refine ⟨fun channel inCall hosted => ?_, fun channel found => ?_⟩
    · obtain ⟨node, known⟩ := isSome_iff_exists.mp hosted
      obtain ⟨request, sent, _⟩ := reaches.addressed channel node inCall known
      rw [acts.sentUntil] at sent
      cases sent
    · cases absent.symm.trans found
  · intro reaches
    refine ⟨fun channel node inCall known => ?_, nofun, fun other ne => acts.spares ne⟩
    have hosted : (before.voice.getChannelNode channel).isSome = true := by rw [known]; rfl
    cases absent.symm.trans (reaches.addressed channel inCall hosted).1

/-- A move removes the target from the old call. -/
theorem DataMemberEdit.reaches_moved_iff (moves : data.voiceChannel.isSome)
    (found : before.voice.getUserVoiceChannelInServer target server = some channel)
    (known : before.voice.getChannelNode channel = some node)
    (acts : ActsFor target before after requests)
    (only : ∀ request ∈ requests, ∀ node' channel' user', request.Addresses node' channel' user' →
      channel' = channel)
    (removed : .removeParticipant node channel target ∈ requests) :
    ReachesCall target server false before after ↔ data.Reaches user.id target server before := by
  constructor
  · intro reaches
    refine ⟨fun name inCall hosted => ⟨?_, .inl moves⟩, fun _ _ stays => ?_⟩
    · obtain ⟨node', known'⟩ := isSome_iff_exists.mp hosted
      obtain ⟨request, sent, addresses⟩ := reaches.addressed name node' inCall known'
      rw [acts.sentUntil] at sent
      rw [only request sent _ _ _ addresses, found]
    · rw [stays] at moves
      cases moves
  · intro reaches
    refine ⟨fun name node' inCall known' => ?_, nofun, fun other ne => acts.spares ne⟩
    have hosted : (before.voice.getChannelNode name).isSome = true := by rw [known']; rfl
    cases found.symm.trans (reaches.addressed name inCall hosted).1
    cases known.symm.trans known'
    rw [acts.sentUntil]
    exact ⟨_, removed, rfl, rfl, rfl⟩

/-- Otherwise it is the editor that the node is told about. -/
theorem DataMemberEdit.reaches_notified_iff (stays : data.voiceChannel = none)
    (found : before.voice.getUserVoiceChannelInServer target server = some channel)
    (notifies : Notifies user.id channel node before after requests)
    (empty : requests = [] ↔ data.remove.contains .voiceChannel = false ∧
      before.voice.getVoiceState channel (some server) user.id = none) :
    ReachesCall target server false before after ↔ data.Reaches user.id target server before := by
  have sent : before.sentUntil after = requests := notifies.sentUntil
  constructor
  · intro reaches
    refine ⟨fun name inCall hosted => ?_, fun name named _ another => ?_⟩
    · obtain ⟨node', known'⟩ := isSome_iff_exists.mp hosted
      obtain ⟨request, listed, addresses⟩ := reaches.addressed name node' inCall known'
      rw [sent] at listed
      obtain ⟨rfl, own⟩ := addresses.unique (notifies.addressed request listed)
      refine ⟨found, .inr ⟨own.symm, ?_⟩⟩
      by_contra neither
      rw [not_or, Bool.not_eq_true, not_not, own] at neither
      rw [empty.mpr neither] at listed
      cases listed
    · cases found.symm.trans named
      apply empty.mp
      by_contra nonempty
      obtain ⟨request, listed⟩ := exists_mem_of_ne_nil _ nonempty
      have spared := (reaches.spared user.id another).2 request (sent ▸ listed)
      exact spared (notifies.addressed request listed).participant
  · intro reaches
    refine ⟨fun name node' inCall known' => ?_, nofun, fun other ne => ?_⟩
    · have hosted : (before.voice.getChannelNode name).isSome = true := by rw [known']; rfl
      obtain ⟨named, moved | ⟨own, told⟩⟩ := reaches.addressed name inCall hosted
      · rw [stays] at moved
        cases moved
      · cases found.symm.trans named
        cases notifies.known.symm.trans known'
        have nonempty : requests ≠ [] := by
          intro nothing
          obtain ⟨remains, absent⟩ := empty.mp nothing
          rw [own] at absent
          rcases told with leaves | present
          · cases remains.symm.trans leaves
          · exact present absent
        obtain ⟨request, listed⟩ := exists_mem_of_ne_nil _ nonempty
        rw [sent]
        exact ⟨request, listed, own ▸ notifies.addressed request listed⟩
    · by_cases own : user.id = target
      · exact notifies.spares (own ▸ ne)
      · have nothing := empty.mpr (reaches.spared channel found stays own)
        have acts : ActsFor target before after [] := by
          refine .nothing (notifies.untouched nothing) ?_
          rw [notifies.issued, nothing, append_nil]
        exact acts.spares ne

variable {start : Backend}

theorem ActsFor.of_start
    (voice : start.voice = before.voice) (issued : start.issued = before.issued)
    (acts : ActsFor subject start after requests) : ActsFor subject before after requests :=
  ⟨issued ▸ acts.issued, acts.about, voice ▸ acts.same⟩

theorem Notifies.of_start
    (voice : start.voice = before.voice) (issued : start.issued = before.issued)
    (notifies : Notifies subject channel node start after requests) :
    Notifies subject channel node before after requests :=
  ⟨notifies.toActsFor.of_start voice issued, voice ▸ notifies.known, notifies.addressed,
    voice ▸ notifies.untouched, voice ▸ notifies.nodes, voice ▸ notifies.current⟩

/-- An edit that mutes or deafens updates the permissions, unless it moves the
member. -/
theorem Moderation.syncs_of_moderates (moderates : (Moderation.edit target data).moderates)
    (remains : data.remove.contains .voiceChannel = false) :
    (data.canPublish.isSome || data.canReceive.isSome || data.remove.contains .canPublish ||
      data.remove.contains .canReceive) := by
  rw [Moderation.moderates, remains, Bool.false_or, Bool.or_eq_true, beq_iff_eq, beq_iff_eq]
    at moderates
  rcases moderates with mutes | deafens
  · rw [mutes]
    rfl
  · rw [deafens, isSome_some, Bool.or_true]
    rfl

theorem Task.editMember_reaches_iff {describe : DataMemberEdit → String} {member : Member}
    (moderates : (Moderation.edit target data).moderates)
    (ran : Task.editMember describe services user server target data before = (.ok member, after)) :
    ReachesCall target server false before after ↔ data.Reaches user.id target server before := by
  obtain ⟨edited, db, rfl, rfl, moves, moveOrLeave, updated⟩ := editMember_ok ran
  -- The voice state is still the one before the edit.
  generalize started : { before with db } = start at updated
  have voice : start.voice = before.voice := by rw [← started]
  have issued : start.issued = before.issued := by rw [← started]
  cases found : start.voice.getUserVoiceChannelInServer edited.targetUser.id edited.server.id with
  | none =>
    obtain rfl := updateVoice_absent found updated
    rw [voice] at found
    exact DataMemberEdit.reaches_absent_iff found voice issued
  | some channel =>
    cases moved : edited.voiceChannel with
    | some newChannel =>
      rw [moved] at moves updated
      rw [← moves, isSome_some, Bool.true_and] at moveOrLeave
      obtain ⟨node, requests, known, acts, only, removed⟩ :=
        moveFrom_ok (updateVoice_moves moveOrLeave found updated)
      rw [voice] at found known
      exact DataMemberEdit.reaches_moved_iff moves.symm found known
        (acts.of_start voice issued) only removed
    | none =>
      rw [moved] at moves updated
      have stays : data.voiceChannel = none :=
        isNone_iff_eq_none.mp (isSome_eq_false_iff.mp moves.symm)
      obtain ⟨node, requests, notifies, empty⟩ :=
        updateVoice_notifies (Moderation.syncs_of_moderates moderates) found updated
      rw [voice] at found empty
      exact DataMemberEdit.reaches_notified_iff stays found (notifies.of_start voice issued) empty

/-- What has to be the case for the call to be reached. -/
def Moderation.Reachable (user : User) (server : String) (backend : Backend) : Moderation → Prop
  | kick member =>
    backend.Tracks member server ∧ backend.voice.getUserVoiceChannelInServer member server = none
  | ban target _ =>
    backend.Tracks target server ∧
      (backend.voice.getUserVoiceChannelInServer target server = none ∨
        (backend.db.fetchMember server target).isOk = true)
  | edit member data => data.Reaches user.id member server backend

/-- Which accepted moderation reaches the call of its target, and nobody else's:
the condition is on the state before the request, and says of each kind of
request what has to be known of the call. -/
theorem moderation_reaches_call_iff {describeBan : DataBanCreate → String}
    {describeEdit : DataMemberEdit → String} {action : Moderation}
    (moderates : action.moderates)
    (configured : ∀ channel node, before.voice.getChannelNode channel = some node →
      services.nodes.contains node)
    (noUser : before.voice.getUserVoiceChannelInServer server server = none)
    (ran : action.run describeBan describeEdit services user server before = (.ok (), after)) :
    ReachesCall action.target server action.removes before after ↔
      action.Reachable user server before := by
  cases action with
  | kick member =>
    obtain ⟨middle, same, removed⟩ := kickMember_ok ran
    -- No call is recorded under the id of the server, so none is found.
    obtain ⟨_, rfl⟩ | ⟨channel, found, _⟩ := removeFromCall_ok removed
    · exact ReachesCall.untouched_iff same.voice same.issued
    · rw [same.voice] at found
      cases noUser.symm.trans found
  | ban target data =>
    obtain ⟨ban, _, banned, ⟨⟩⟩ := of_bind_eq_ok ran
    obtain ⟨middle, last, joined, same, removed, same'⟩ | ⟨stranger, same⟩ := banUser_ok banned
    · have tracked : (Moderation.ban target data).Reachable user server before ↔
          before.Tracks target server := and_iff_left (.inr joined)
      rw [tracked]
      obtain ⟨absent, rfl⟩ | ⟨channel, found, removed⟩ := removeFromCall_ok removed
      · rw [same.voice] at absent
        exact (ReachesCall.untouched_iff (same'.voice.trans same.voice)
          (same'.issued.trans same.issued)).trans (and_iff_left absent)
      · obtain ⟨document, stored, rfl⟩ := removeUserFromVoiceChannel_ok removed
        rw [same.voice] at found
        rw [same.channels] at stored
        have voice := same'.voice
        have issued := same'.issued
        rw [same.voice] at voice issued
        rw [same.issued] at issued
        exact ReachesCall.removed_iff (configured channel) found stored voice issued
    · refine (ReachesCall.untouched_iff same.voice same.issued).trans (and_congr_right' ?_)
      rw [stranger]
      exact (or_iff_left Bool.false_ne_true).symm
  | edit member data =>
    obtain ⟨_, _, edited, ⟨⟩⟩ := of_bind_eq_ok ran
    exact editMember_reaches_iff moderates edited

end Reaching

/-! The guest is in the lobby, and the call runs on a node. -/

def lobbyBackend : Backend :=
  { callBackend with
    voice := (callBackend.voice.createVoiceState "lobby" (some "server") "guest-user"
      0).setChannelNode "lobby" "node" }

theorem lobbyBackend_inCall
    (inCall : lobbyBackend.InCall "guest-user" "server" channel) : channel = "lobby" := by
  rcases inCall.listed with listed | listed
  · by_contra elsewhere
    have empty : lobbyBackend.voice.members channel = [] := update_of_ne elsewhere _ _
    rw [empty] at listed
    cases listed
  · have one : lobbyBackend.voice.channels "guest-user" = ["lobby"] := by decide
    exact mem_singleton.mp listed

theorem lobbyBackend_tracks : lobbyBackend.Tracks "guest-user" "server" := by
  have found : lobbyBackend.voice.getUserVoiceChannelInServer "guest-user" "server" =
      some "lobby" := by decide
  refine ⟨fun channel inCall => ?_, fun channel named => ?_, fun absent => ?_⟩
  · rw [lobbyBackend_inCall inCall, found]
  · cases found.symm.trans named
    exact ⟨.textChannel lobbyChannel, rfl, rfl⟩
  · cases found.symm.trans absent

theorem lobbyBackend_configured (channel node : String)
    (known : lobbyBackend.voice.getChannelNode channel = some node) :
    oneNode.nodes.contains node := by
  by_cases lobby : channel = "lobby"
  · subst lobby
    cases known
    decide
  · have unknown : lobbyBackend.voice.getChannelNode channel = none := update_of_ne lobby _ _
    cases unknown.symm.trans known

def banGuest : Moderation := .ban "guest-user" {}

def kickGuest : Moderation := .kick "guest-user"

theorem moderation_reaches_call_iff_sample :
    ReachesCall "guest-user" "server" true lobbyBackend
      (banGuest.run (fun _ => "") (fun _ => "") oneNode ownerUser "server" lobbyBackend).2 := by
  have ran : banGuest.run (fun _ => "") (fun _ => "") oneNode ownerUser "server" lobbyBackend =
      (.ok (), (banGuest.run (fun _ => "") (fun _ => "") oneNode ownerUser "server"
        lobbyBackend).2) := rfl
  exact (@moderation_reaches_call_iff lobbyBackend _ "server" oneNode ownerUser _ _ banGuest rfl
    lobbyBackend_configured (by decide) ran).mpr ⟨lobbyBackend_tracks, .inr rfl⟩

/-- The owner kicks the guest, who is no member any more and stays in the lobby:
the call was looked for under the id of the server. -/
theorem kick_misses_call :
    (kickGuest.run (fun _ => "") (fun _ => "") oneNode ownerUser "server" lobbyBackend).1 = .ok () ∧
      (kickGuest.run (fun _ => "") (fun _ => "") oneNode ownerUser "server"
        lobbyBackend).2.db.fetchMember "server" "guest-user" = .error .notFound ∧
      (kickGuest.run (fun _ => "") (fun _ => "") oneNode ownerUser "server"
        lobbyBackend).2.voice.members "lobby" = ["guest-user"] ∧
      (kickGuest.run (fun _ => "") (fun _ => "") oneNode ownerUser "server"
        lobbyBackend).2.issued = [] ∧
      ¬ReachesCall "guest-user" "server" true lobbyBackend
        (kickGuest.run (fun _ => "") (fun _ => "") oneNode ownerUser "server" lobbyBackend).2 := by
  refine ⟨rfl, rfl, rfl, rfl, fun reaches => ?_⟩
  have gone := (reaches.gone rfl).1.current
  cases gone

end Company
