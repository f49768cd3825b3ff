import CompanyBackend.Voice.ChannelCalls
import CompanyBackend.Voice.MemberCalls
import CompanyBackend.Voice.Moves

/-!
# The nodes of calls

Ending the call of a channel and editing a member who is in a call unwrap the node that is
recorded for the channel. So a channel with members should have a node, and so should the channel
that the key of a user names.

Both hold as long as users enter only channels with a node: nothing else adds a member or writes
that key, and a node is never forgotten. But nothing sees to it. A call between peers has no node,
and the node that a client names on joining is not recorded. Only moving a member records a
node, and that needs one already.
-/

namespace Company

open Request Company.Task

structure CallEnvironment where
  calls : CallServices
  groups : GroupServices
  describe : DataMemberEdit → String

variable (environment : CallEnvironment)

def CallEnvironment.voice : VoiceServices :=
  environment.calls.toVoiceServices

inductive CallOperation where
  | join (user : User) (channel : String) (data : DataJoinCall)
  | leave (user : User) (channel : String)
  | report (user : String) (event : CallEvent)
  | editChannel (user : User) (channel : String) (data : DataEditChannel)
  | deleteChannel (user : User) (channel : String)
  | editMember (user : User) (server member : String) (data : DataMemberEdit)

namespace CallOperation

def run (environment : CallEnvironment) : CallOperation → Task Unit
  | join user channel data => joinCall environment.calls user channel data
  | leave user channel => leaveCallRoute environment.voice user channel
  | report user event => event.handle user
  | editChannel user channel data => do
    let _ ← Task.editChannel environment.groups environment.voice user channel data
  | deleteChannel user channel =>
    Task.deleteChannel environment.groups environment.voice user channel
  | editMember user server member data => do
    let _ ← Task.editMember environment.describe environment.voice user server member data

end CallOperation

/-- The same environment, but unwrapping the node of a channel without one ends
differently. -/
def CallEnvironment.withMissingNode (failure : Failure) : CallEnvironment :=
  { environment with calls := { environment.calls with missingNode := failure } }

/-- The operation never unwraps a missing node: it does not matter how that
would end. -/
def CallOperation.FindsNodes (backend : Backend) (operation : CallOperation) : Prop :=
  ∀ failure, operation.run (environment.withMissingNode failure) backend =
    operation.run environment backend

/-- Whoever is in a call is in a channel with a node. -/
structure VoiceRedis.Hosts (redis : VoiceRedis) : Prop where
  members : ∀ channel, redis.members channel ≠ [] → (redis.nodes channel).isSome
  current : ∀ key channel, redis.current key = some channel → (redis.nodes channel).isSome

section Hosting

variable {redis redis' : VoiceRedis} {channel user : String} {server : Option String}

theorem VoiceRedis.Hosts.of_shrinks (hosts : redis.Hosts) (shrinks : redis.Shrinks redis') :
    redis'.Hosts := by
  refine ⟨fun channel nonempty => ?_, fun key channel found => ?_⟩
  · obtain ⟨user, listed⟩ := List.exists_mem_of_ne_nil _ nonempty
    apply shrinks.nodes
    exact hosts.members channel (List.ne_nil_of_mem (shrinks.members channel listed))
  · exact shrinks.nodes channel (hosts.current key channel (shrinks.current key channel found))

/-- Entering a channel with a node. -/
theorem VoiceRedis.Hosts.createVoiceState (hosts : redis.Hosts)
    (hosted : (redis.nodes channel).isSome) (joinedAt : Timestamp) :
    (redis.createVoiceState channel server user joinedAt).Hosts := by
  refine ⟨fun name nonempty => ?_, fun key name found => ?_⟩
  · obtain ⟨listed, present⟩ := List.exists_mem_of_ne_nil _ nonempty
    rcases mem_members_createVoiceState.mp present with ⟨rfl, _⟩ | earlier
    · exact hosted
    · exact hosts.members name (List.ne_nil_of_mem earlier)
  · rw [createVoiceState_eq] at found
    change Function.update redis.current _ _ key = some name at found
    by_cases same : key = uniqueKey channel server user
    · subst same
      rw [Function.update_self] at found
      rw [← Option.some.inj found]
      exact hosted
    · rw [Function.update_of_ne same] at found
      exact hosts.current key name found

variable {α β : Type}

theorem Task.Quiet.keepsHosts {x : Task α} (quiet : Task.Quiet x) :
    Keeps (fun backend : Backend => backend.voice.Hosts) x :=
  fun backend hosts => hosts.of_shrinks (quiet backend).voice

theorem Task.ofRoute_keepsHosts (x : Route α) :
    Keeps (fun backend : Backend => backend.voice.Hosts) (Task.ofRoute x) :=
  fun _ hosts => hosts

end Hosting

section Operations

variable {environment : CallEnvironment} {backend : Backend} {failure : Failure}
variable {services : VoiceServices} {user targetUser : User} {server : Server} {channel : String}

theorem VoiceRedis.Hosts.node {redis : VoiceRedis} (hosts : redis.Hosts) {users : List String}
    (members : redis.getVoiceChannelMembers channel = some users) :
    (redis.getChannelNode channel).isSome := by
  apply hosts.members
  intro empty
  rw [getVoiceChannelMembers, empty] at members
  cases members

theorem Task.unwrap_of_isSome {α : Type} {value : Option α} (known : value.isSome)
    (missing missing' : Failure) : Task.unwrap missing value = Task.unwrap missing' value := by
  obtain ⟨a, rfl⟩ := Option.isSome_iff_exists.mp known
  rfl

theorem deleteVoiceChannel_finds (hosts : backend.voice.Hosts) (serverId : Option String) :
    deleteVoiceChannel { services with missingNode := failure } channel serverId backend =
      deleteVoiceChannel services channel serverId backend := by
  refine bind_congr_at rfl fun users _ read => ?_
  cases read
  refine bind_congr_at ?_ fun _ _ _ => rfl
  change deleteRoom _ channel serverId (backend.voice.getVoiceChannelMembers channel) backend =
    deleteRoom _ channel serverId (backend.voice.getVoiceChannelMembers channel) backend
  cases members : backend.voice.getVoiceChannelMembers channel with
  | none => rfl
  | some users =>
    refine bind_congr_at rfl fun node _ read => ?_
    cases read
    exact congrFun (congrArg (· >>= _) (unwrap_of_isSome (hosts.node members) _ _)) backend

theorem Task.callNode_finds (known : (backend.voice.getChannelNode channel).isSome) :
    Task.callNode { services with missingNode := failure } channel backend =
      Task.callNode services channel backend := by
  refine bind_congr_at rfl fun node _ read => ?_
  cases read
  exact congrFun (unwrap_of_isSome known _ _) backend

theorem Task.onCall_congr {action action' : String → Task Unit}
    (same : ∀ channel, backend.voice.getUserVoiceChannelInServer targetUser.id server.id =
      some channel → action channel backend = action' channel backend) :
    Task.onCall targetUser server action backend =
      Task.onCall targetUser server action' backend := by
  cases found : backend.voice.getUserVoiceChannelInServer targetUser.id server.id with
  | none => rw [onCall_eq_pure found, onCall_eq_pure found]
  | some channel =>
    rw [onCall_eq found, onCall_eq found]
    exact same channel found

/-- The call that the key of a user names has a node. -/
theorem Task.onCall_finds (hosts : backend.voice.Hosts) {rest : String → String → Task Unit} :
    Task.onCall targetUser server (fun channel =>
        Task.callNode { services with missingNode := failure } channel >>= rest channel) backend =
      Task.onCall targetUser server (fun channel => Task.callNode services channel >>= rest channel)
        backend :=
  onCall_congr fun _ found =>
    bind_congr_at (callNode_finds (hosts.current _ _ found)) fun _ _ _ => rfl

/-- All that a member edit does to a call, it does with the node of the call
that the key names. -/
theorem Task.updateVoice_finds (hosts : backend.voice.Hosts) (data : DataMemberEdit)
    (newChannel : Option Channel) :
    updateVoice { services with missingNode := failure } user targetUser server data newChannel
        backend =
      updateVoice services user targetUser server data newChannel backend := by
  refine bind_congr_at ?_ fun _ backend' ran => ?_
  · cases newChannel with
    | some newChannel => exact onCall_finds hosts
    | none =>
      rw [Task.updateCall, Task.updateCall, onlyIf, onlyIf]
      split
      · exact onCall_finds hosts
      · rfl
  · have hosts' := (updateCall_quiet data newChannel).keepsHosts.of_ran hosts ran
    rw [onlyIf, onlyIf]
    split
    · exact onCall_finds hosts'
    · rfl

theorem CallOperation.findsNodes_of_hosts (operation : CallOperation) (hosts : backend.voice.Hosts)
    : operation.FindsNodes environment backend := by
  intro failure
  cases operation with
  | join user channel data | leave user channel | report user event => rfl
  | editChannel user channel data =>
    refine bind_congr_at ?_ fun _ _ _ => rfl
    refine bind_congr_at rfl fun _ backend₁ valid => ?_
    have hosts₁ := (quiet_of_readOnly (readOnly_ensure _ _)).keepsHosts.of_ran hosts valid
    refine bind_congr_at rfl fun document backend₂ fetched => ?_
    have hosts₂ := (Task.ofRoute_keepsHosts _).of_ran hosts₁ fetched
    refine bind_congr_at rfl fun _ backend₃ allowed => ?_
    have hosts₃ := (Task.ofRoute_keepsHosts _).of_ran hosts₂ allowed
    split
    · rfl
    · refine bind_congr_at rfl fun edited backend₄ written => ?_
      have hosts₄ := (Task.ofRoute_keepsHosts _).of_ran hosts₃ written
      refine bind_congr_at ?_ fun _ _ _ => rfl
      rw [onlyIf, onlyIf]
      split
      · exact deleteVoiceChannel_finds hosts₄ edited.server
      · rfl
  | deleteChannel user channel =>
    refine bind_congr_at rfl fun document backend₁ fetched => ?_
    have hosts₁ := (Task.ofRoute_keepsHosts _).of_ran hosts fetched
    refine bind_congr_at rfl fun permissions backend₂ calculated => ?_
    have hosts₂ := (Task.ofRoute_keepsHosts _).of_ran hosts₁ calculated
    refine bind_congr_at rfl fun _ backend₃ allowed => ?_
    have hosts₃ := (Task.ofRoute_keepsHosts _).of_ran hosts₂ allowed
    cases document with
    | savedMessages _ | directMessage _ | group _ => rfl
    | textChannel text =>
      refine bind_congr_at rfl fun _ backend₄ manages => ?_
      have hosts₄ := (Task.ofRoute_keepsHosts _).of_ran hosts₃ manages
      refine bind_congr_at rfl fun _ backend₅ deleted => ?_
      have hosts₅ := (Task.ofRoute_keepsHosts _).of_ran hosts₄ deleted
      exact deleteVoiceChannel_finds hosts₅ _
  | editMember user server member data =>
    refine bind_congr_at ?_ fun _ _ _ => rfl
    refine bind_congr_at rfl fun client _ read => ?_
    cases read
    refine bind_congr_at rfl fun edited backend' written => ?_
    refine bind_congr_at ?_ fun _ _ _ => rfl
    have hosts' := (Task.ofRoute_keepsHosts _).of_ran hosts written
    exact updateVoice_finds hosts' data edited.voiceChannel

/-- A user enters only a channel with a node: between peers on joining, and
otherwise once the node reports a participant. -/
def CallOperation.EntersHosted (environment : CallEnvironment) (backend : Backend) :
    CallOperation → Prop
  | join _ channel _ => ∀ document voice, backend.db.channels.find channel = some document →
      document.voice = some voice →
      (useLivekit environment.calls voice document backend).1 = .ok false →
        (backend.voice.getChannelNode channel).isSome = true
  | report user (.joined channel _) =>
    backend.voice.getVoiceConnectionType channel user ≠ some .viewer →
      (backend.voice.getChannelNode channel).isSome = true
  | _ => True

section Entering

variable {services : CallServices} {voice : VoiceInformation} {document : Channel}

theorem serverOwner_readOnly (serverId : String) : ReadOnly (serverOwner serverId) :=
  (ofRoute_readOnly (readOnly_attempt _)).bind fun _ =>
    ofRoute_readOnly (readOnly_attempt _)

theorem useLivekit_readOnly : ReadOnly (useLivekit services voice document) := by
  rw [useLivekit]
  split
  · split
    · exact (serverOwner_readOnly _).bind fun _ => readOnly_pure _
    · exact readOnly_pure _
  · exact readOnly_pure _

theorem ensureCapacity_readOnly (permissions : PermissionValue) (connectionType : ConnectionType) :
    ReadOnly (ensureCapacity services voice document permissions connectionType) := by
  cases connectionType with
  | participant => exact .read fun _ => readOnly_ensure _ _
  | viewer =>
    rw [ensureCapacity, ensureViewerLimit]
    split
    · exact (serverOwner_readOnly _).bind fun _ => .read fun _ =>
        readOnly_ensure _ _
    · exact readOnly_pure _

theorem raiseIfInVoice_readOnly (channel : String) : ReadOnly (raiseIfInVoice user channel) :=
  .read fun _ => (readOnly_ensure _ _).bind fun _ => readOnly_ensure _ _

theorem announceCall_quiet (channel : String) (recipients : Option (List String)) :
    Task.Quiet (announceCall user channel recipients) := by
  cases recipients with
  | none => exact Task.quiet_pure ()
  | some recipients => exact Task.Quiet.onlyIf (quiet_writeVoice fun _ => .of_eq rfl rfl rfl)

/-- Joining a call on a node writes no more than the kind of the connection, and
whom the call is to be announced to. -/
theorem joinNode_quiet (data : DataJoinCall) (permissions : PermissionValue)
    (connectionType : ConnectionType) :
    Task.Quiet (joinNode services user document data permissions connectionType) := by
  refine (quiet_readVoice _).bind fun existing => ?_
  cases existing <|> data.node with
  | none => exact quiet_of_readOnly (readOnly_fail _)
  | some node =>
    have disconnected : Task.Quiet (disconnectEverywhere services user) :=
      (quiet_readVoice _).bind fun _ => Task.Quiet.forEach (fun channel =>
        removeUserFromVoiceChannel_quiet _ channel user.id) _
    have entered : Task.Quiet (do
        let _ ← attempt fun backend =>
          services.createToken node backend.db user permissions document
        Task.send services.toVoiceServices (.createRoom node document.id)
        Task.writeVoice (·.setVoiceConnectionType document.id user.id connectionType)
        onlyIf (connectionType == .participant && services.numParticipants node document.id == 0)
          (announceCall user document.id data.recipients)) := by
      refine (quiet_of_readOnly (readOnly_attempt _)).bind fun _ => ?_
      refine (quiet_send _ _).bind fun _ => ?_
      refine Task.Quiet.bind (quiet_writeVoice fun _ => .of_eq rfl rfl rfl) fun _ => ?_
      exact (announceCall_quiet _ _).onlyIf
    refine (quiet_of_readOnly (readOnly_ensure _ _)).bind fun _ => ?_
    split
    · exact disconnected.bind fun _ => entered
    · exact (quiet_of_readOnly (raiseIfInVoice_readOnly _)).bind fun _ => entered

theorem joinPeers_hosts (hosts : backend.voice.Hosts)
    (hosted : (backend.voice.getChannelNode document.id).isSome) (data : DataJoinCall)
    (connectionType : ConnectionType) :
    (joinPeers services user document data connectionType backend).2.voice.Hosts := by
  have kept : Outcome (joinPeers services user document data connectionType) backend
      fun _ backend' => backend'.voice.Hosts := by
    apply Outcome.writeVoice_bind
    have typed : (backend.voice.setVoiceConnectionType document.id user.id connectionType).Hosts :=
      hosts.of_shrinks (.of_eq rfl rfl rfl)
    cases connectionType with
    | viewer => exact typed
    | participant =>
      apply Outcome.readOnly_bind (raiseIfInVoice_readOnly _) _ fun _ => typed
      intro _
      apply Outcome.writeVoice_bind
      exact (announceCall_quiet _ _).keepsHosts _ (typed.createVoiceState hosted services.now)
  exact kept

theorem joinCall_hosts (hosts : backend.voice.Hosts) (target : String) (data : DataJoinCall)
    (hosted : ∀ document voice, backend.db.channels.find target = some document →
      document.voice = some voice → (useLivekit services voice document backend).1 = .ok false →
        (backend.voice.getChannelNode target).isSome) :
    (joinCall services user target data backend).2.voice.Hosts := by
  have kept : Outcome (joinCall services user target data) backend
      fun _ backend' => backend'.voice.Hosts := by
    rw [joinCall]
    apply Outcome.ensure_bind _ fun _ => hosts
    intro _
    apply Outcome.ensure_bind _ fun _ => hosts
    intro _
    apply Outcome.fetched_bind _ fun _ => hosts
    intro document fetched
    have found := orNotFound_eq_ok.mp fetched
    cases information : document.voice with
    | none => exact hosts
    | some voice =>
      apply Outcome.readOnly_bind
        (ofRoute_readOnly (Route.channelPermissions_readOnly _ _ _)) _ fun _ => hosts
      intro permissions
      apply Outcome.readOnly_bind (ofRoute_readOnly (readOnly_attempt _)) _ fun _ => hosts
      intro connectionType
      apply Outcome.readOnly_bind (ensureCapacity_readOnly _ _) _ fun _ => hosts
      intro _
      apply Outcome.readOnly_ran_bind useLivekit_readOnly _ fun _ => hosts
      intro livekit ran
      split
      · exact (joinNode_quiet _ _ _).keepsHosts backend hosts
      · next peers =>
        have between : (useLivekit services voice document backend).1 = .ok false := by
          rw [ran, Bool.not_eq_true livekit |>.mp peers]
        obtain rfl : document.id = target := Collection.key_of_find found
        exact joinPeers_hosts hosts (hosted document voice found information between) _ _
  exact kept

theorem participantJoined_hosts {user target : String} (hosts : backend.voice.Hosts)
    (createdAt : Timestamp)
    (hosted : backend.voice.getVoiceConnectionType target user ≠ some .viewer →
      (backend.voice.getChannelNode target).isSome) :
    (participantJoined target user createdAt backend).2.voice.Hosts := by
  have kept : Outcome (participantJoined target user createdAt) backend
      fun _ backend' => backend'.voice.Hosts := by
    rw [participantJoined]
    apply Outcome.fetched_bind _ fun _ => hosts
    intro document _
    apply Outcome.readVoice_bind
    split
    · exact hosts.of_shrinks (.of_eq rfl rfl rfl)
    · next participant =>
      exact (hosts.createVoiceState (hosted participant) createdAt).of_shrinks (.of_eq rfl rfl rfl)
  exact kept

theorem participantLeft_quiet (target user : String) :
    Task.Quiet (participantLeft target user) := by
  refine (quiet_ofRoute (readOnly_attempt _)).bind fun document => ?_
  refine (quiet_readVoice _).bind fun connectionType => ?_
  split
  · exact Task.Quiet.bind (quiet_writeVoice fun _ => .of_eq rfl rfl rfl) fun _ =>
      quiet_writeVoice fun _ => .of_eq rfl rfl rfl
  · exact (quiet_writeVoice fun _ => VoiceRedis.shrinks_deleteVoiceState).bind fun _ =>
      Task.Quiet.bind (quiet_writeVoice fun _ => .of_eq rfl rfl rfl) fun _ =>
        quiet_writeVoice fun _ => .of_eq rfl rfl rfl

theorem leaveCallRoute_quiet (services : VoiceServices) (target : String) :
    Task.Quiet (leaveCallRoute services user target) := by
  refine (quiet_ofRoute (readOnly_attempt _)).bind fun document => ?_
  refine (quiet_readVoice _).bind fun state => ?_
  refine (quiet_of_readOnly (readOnly_ensure _ _)).bind fun _ => ?_
  refine (quiet_readVoice _).bind fun connectionType => ?_
  refine (askToRemove_quiet _ _ _).bind fun _ => ?_
  split
  · exact Task.Quiet.bind (quiet_writeVoice fun _ => .of_eq rfl rfl rfl) fun _ =>
      quiet_writeVoice fun _ => .of_eq rfl rfl rfl
  · exact (quiet_writeVoice fun _ => VoiceRedis.shrinks_deleteVoiceState).bind fun _ =>
      quiet_writeVoice fun _ => .of_eq rfl rfl rfl

end Entering

/-- Every operation keeps users in channels with nodes, if those who enter do
so. -/
theorem CallOperation.run_hosts (operation : CallOperation) (hosts : backend.voice.Hosts)
    (enters : operation.EntersHosted environment backend) :
    (operation.run environment backend).2.voice.Hosts := by
  cases operation with
  | join user channel data => exact joinCall_hosts hosts channel data enters
  | leave user channel => exact (leaveCallRoute_quiet _ channel).keepsHosts backend hosts
  | report user event =>
    cases event with
    | joined channel createdAt => exact participantJoined_hosts hosts createdAt enters
    | left channel => exact (participantLeft_quiet channel user).keepsHosts backend hosts
  | editChannel user channel data =>
    refine Keeps.bind ?_ (fun _ => (Task.quiet_pure ()).keepsHosts) backend hosts
    refine (quiet_of_readOnly (readOnly_ensure _ _)).keepsHosts.bind fun _ => ?_
    refine (Task.ofRoute_keepsHosts _).bind fun document => ?_
    refine (Task.ofRoute_keepsHosts _).bind fun _ => ?_
    split
    · exact (Task.quiet_pure document).keepsHosts
    · refine (Task.ofRoute_keepsHosts _).bind fun edited => ?_
      refine (deleteVoiceChannel_quiet _ _ _).onlyIf.keepsHosts.bind fun _ => ?_
      exact (Task.quiet_pure edited).keepsHosts
  | deleteChannel user channel =>
    refine Keeps.bind (Task.ofRoute_keepsHosts _) (fun document => ?_) backend hosts
    refine (Task.ofRoute_keepsHosts _).bind fun permissions => ?_
    refine (Task.ofRoute_keepsHosts _).bind fun _ => ?_
    cases document with
    | savedMessages document => exact (quiet_of_readOnly (readOnly_fail _)).keepsHosts
    | directMessage document =>
      exact (Task.ofRoute_keepsHosts _).bind fun _ => (Task.quiet_pure ()).keepsHosts
    | group document =>
      exact (Task.ofRoute_keepsHosts _).bind fun _ =>
        (leaveVoiceChannel_quiet _ _ _).keepsHosts
    | textChannel document =>
      refine (Task.ofRoute_keepsHosts _).bind fun _ => ?_
      refine (Task.ofRoute_keepsHosts _).bind fun _ => ?_
      exact (deleteVoiceChannel_quiet _ _ _).keepsHosts
  | editMember user server member data =>
    refine Keeps.bind ?_ (fun _ => (Task.quiet_pure ()).keepsHosts) backend hosts
    refine (quiet_readVoice _).keepsHosts.bind fun client => ?_
    refine (Task.ofRoute_keepsHosts _).bind fun edited => ?_
    refine (updateVoice_quiet data edited.voiceChannel).keepsHosts.bind fun _ => ?_
    exact (Task.quiet_pure edited.member).keepsHosts

/-- As long as users enter only channels with a node, no operation unwraps a
missing one, in any sequence of joins, leaves, reports of the nodes, edits and
deletions. -/
theorem voiceNodes_found {operations : List CallOperation} (hosts : backend.voice.Hosts)
    (enters : Along (CallOperation.run environment)
      (fun backend operation => operation.EntersHosted environment backend) backend operations) :
    Along (CallOperation.run environment)
      (fun backend operation => operation.FindsNodes environment backend) backend operations :=
  enters.of_invariant hosts
    (fun _ operation hosts enters => operation.run_hosts hosts enters)
    (fun _ operation hosts _ => operation.findsNodes_of_hosts hosts)

end Operations

/-! The guest enters the lobby, and then the owner deletes the lobby. -/

def callEnvironment : CallEnvironment where
  calls := { oneNode with
    streamViewerLimit := fun _ => 0
    describeViewerLimit := fun _ => ""
    usesLivekitForPublicStreams := fun _ => false
    hosts := some
    numParticipants := fun _ _ => 0 }
  groups := .sample
  describe _ := ""

def hostedLobby : Backend :=
  { callBackend with voice := callBackend.voice.setChannelNode "lobby" "node" }

theorem hostedLobby_hosts : hostedLobby.voice.Hosts :=
  ⟨fun _ nonempty => absurd rfl nonempty, fun _ _ found => by cases found⟩

theorem voiceNodes_found_sample :
    (CallOperation.deleteChannel ownerUser "lobby").FindsNodes callEnvironment
      ((CallOperation.join guestUser "lobby" {}).run callEnvironment hostedLobby).2 := by
  have enters : Along (CallOperation.run callEnvironment)
      (fun backend operation => operation.EntersHosted callEnvironment backend) hostedLobby
      [.join guestUser "lobby" {}, .deleteChannel ownerUser "lobby"] :=
    ⟨fun _ _ _ _ _ => by decide, trivial, trivial⟩
  exact (voiceNodes_found hostedLobby_hosts enters).2.1

def lobbyEntered : Backend :=
  ((CallOperation.join guestUser "lobby" {}).run callEnvironment callBackend).2

/-- A call between peers has no node: deleting its channel panics, and the
channel is gone. -/
theorem deleteChannel_panics_after_peers :
    ((CallOperation.join guestUser "lobby" {}).run callEnvironment callBackend).1 = .ok () ∧
      lobbyEntered.voice.members "lobby" = ["guest-user"] ∧
      ((CallOperation.deleteChannel ownerUser "lobby").run callEnvironment lobbyEntered).1 =
        .error (.panic "called `Option::unwrap()` on a `None` value") ∧
      ((CallOperation.deleteChannel ownerUser "lobby").run callEnvironment
        lobbyEntered).2.db.channels.find "lobby" = none ∧
      ¬(CallOperation.deleteChannel ownerUser "lobby").FindsNodes callEnvironment lobbyEntered := by
  refine ⟨rfl, rfl, rfl, rfl, fun finds => ?_⟩
  have same := congrArg Prod.fst (finds (.error .internalError))
  cases same

end Company
