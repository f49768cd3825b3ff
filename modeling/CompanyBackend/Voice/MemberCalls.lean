import CompanyBackend.Routes.MemberEdit
import CompanyBackend.Voice.Calls

/-!
# Member edits and calls

The route that edits a member, with what it does to the call that the member is in. The documents
come first and are edited as in `editMember`. Then the member is moved to another channel, or the
node of the call is told about the new permissions, or the member is taken out of the call.

For a move the source names the member. In the other two cases it names the editor.
-/

namespace Company

open Request

namespace Task

variable (services : VoiceServices)

/-- The node of a call. Unwrapping a missing node panics. -/
def callNode (channel : String) : Task String := do
  let node ← readVoice (·.getChannelNode channel)
  unwrap services.missingNode node

/-- The node of the call that the target joins, started on the old node if there
is none. This is the only place in which the node of a channel is recorded. -/
def newCallNode (newChannel : Channel) (oldNode : String) : Task String := do
  match ← readVoice (·.getChannelNode newChannel.id) with
  | some node => return node
  | none => do
    writeVoice (·.setChannelNode newChannel.id oldNode)
    return oldNode

section MemberCalls

variable (services : VoiceServices) (user targetUser : User) (server : Server)

/-- Act on the call of the server that the target is in, if there is one. -/
def onCall (action : String → Task Unit) : Task Unit := do
  match ← readVoice (·.getUserVoiceChannelInServer targetUser.id server.id) with
  | some channel => action channel
  | none => return ()

def moveFrom (newChannel : Channel) (channel : String) : Task Unit := do
  let oldNode ← callNode services channel
  let newNode ← newCallNode newChannel oldNode
  writeVoice (·.setUserMovedFromVoice channel newChannel.id targetUser.id)
  writeVoice (·.setUserMovedToVoice newChannel.id channel targetUser.id)
  let (permissions, _) ← ofRoute (Route.ask
    (fun db => (DatabasePermissionQuery.new db services.now targetUser).withChannel newChannel)
    PermissionQuery.calculateChannelPermissions)
  send services (.createRoom newNode newChannel.id)
  let _ ← attempt fun backend =>
    services.createToken newNode backend.db targetUser permissions newChannel
  send services (.removeParticipant oldNode channel targetUser.id)

def moveToChannel (newChannel : Channel) : Task Unit :=
  onCall targetUser server (moveFrom services targetUser newChannel)

/-- The source passes the editor here, not the target. -/
def syncIn (channel : String) : Task Unit := do
  let node ← callNode services channel
  let channel ← ofRoute (Route.fetch fun db => db.fetchChannel channel)
  syncUserVoicePermissions services node user channel (some server) none

def syncCall : Task Unit := onCall targetUser server (syncIn services user server)

/-- Here as well. -/
def leaveFrom (channel : String) : Task Unit := do
  let node ← callNode services channel
  send services (.removeParticipant node channel user.id)

def leaveCall : Task Unit := onCall targetUser server (leaveFrom services user)

def updateCall (data : DataMemberEdit) (newChannel : Option Channel) : Task Unit :=
  match newChannel with
  | some channel => moveToChannel services targetUser server channel
  | none =>
    onlyIf (data.canPublish.isSome || data.canReceive.isSome ||
        data.remove.contains .canPublish || data.remove.contains .canReceive) <|
      syncCall services user targetUser server

def updateVoice (data : DataMemberEdit) (newChannel : Option Channel) : Task Unit := do
  updateCall services user targetUser server data newChannel
  onlyIf (data.remove.contains .voiceChannel) (leaveCall services user targetUser server)

end MemberCalls

/-- What the edit of the documents asks the voice subsystem: whether there is
one, and where a user is. The other entries are not used there. -/
def voiceClient (redis : VoiceRedis) : VoiceClient :=
  { VoiceClient.disabled with
    isEnabled := services.isEnabled
    getUserVoiceChannelInServer := fun user server =>
      .ok (redis.getUserVoiceChannelInServer user server) }

/-- `PATCH /servers/<server>/members/<member>` -/
def editMember (describe : DataMemberEdit → String) (services : VoiceServices) (user : User)
    (serverId memberId : String) (data : DataMemberEdit) : Task Member := do
  let client ← readVoice (voiceClient services)
  let edited ← ofRoute
    (editMemberDocuments describe client services.now user serverId memberId data)
  updateVoice services user edited.targetUser edited.server data edited.voiceChannel
  return edited.member

variable {α β : Type}

variable {action : String → Task Unit} {server : Server}

section Accepted

variable {services : VoiceServices} {targetUser : User}
variable {backend backend' : Backend} {channel : String}

/-- What follows the unwrapping of a node has got one. -/
theorem of_callNode_bind_eq_ok {f : String → Task β} {b : β}
    (ran : (callNode services channel >>= f) backend = (.ok b, backend')) :
    ∃ node, backend.voice.getChannelNode channel = some node ∧
      f node backend = (.ok b, backend') := by
  obtain ⟨node, middle, called, rest⟩ := of_bind_eq_ok ran
  change unwrap services.missingNode (backend.voice.getChannelNode channel) backend =
    (.ok node, middle) at called
  cases known : backend.voice.getChannelNode channel with
  | none =>
    rw [known] at called
    cases called
  | some found =>
    rw [known] at called
    cases called
    exact ⟨node, rfl, rest⟩

/-- Only what belongs to no user is written while a node is chosen. -/
theorem newCallNode_ok {newChannel : Channel} {oldNode newNode : String}
    (ran : newCallNode newChannel oldNode backend = (.ok newNode, backend')) :
    ∃ nodes, backend' = { backend with voice := { backend.voice with nodes } } := by
  have outcome : Outcome (newCallNode newChannel oldNode) backend fun _ backend' =>
      ∃ nodes, backend' = { backend with voice := { backend.voice with nodes } } := by
    apply Outcome.readVoice_bind
    split
    · exact ⟨_, rfl⟩
    · exact ⟨_, rfl⟩
  exact outcome.elim ran

theorem onCall_eq
    (found : backend.voice.getUserVoiceChannelInServer targetUser.id server.id = some channel) :
    onCall targetUser server action backend = action channel backend := by
  rw [onCall, bind_of_ok (readVoice_run ..), found]

theorem onCall_eq_pure
    (absent : backend.voice.getUserVoiceChannelInServer targetUser.id server.id = none) :
    onCall targetUser server action backend = (.ok (), backend) := by
  rw [onCall, bind_of_ok (readVoice_run ..), absent]
  rfl

end Accepted

theorem callNode_quiet (channel : String) : Quiet (callNode services channel) :=
  (quiet_readVoice _).bind (quiet_unwrap _)

theorem newCallNode_quiet (newChannel : Channel) (oldNode : String) :
    Quiet (newCallNode newChannel oldNode) := by
  refine (quiet_readVoice _).bind fun node => ?_
  cases node with
  | some node => exact quiet_pure node
  | none =>
    exact (quiet_writeVoice fun _ => VoiceRedis.shrinks_setChannelNode oldNode).bind fun _ =>
      quiet_pure oldNode

variable {services : VoiceServices}

section Documents

variable {user targetUser : User}

theorem onCall_quiet (acts : ∀ channel, Quiet (action channel)) :
    Quiet (onCall targetUser server action) := by
  refine (quiet_readVoice _).bind fun channel => ?_
  cases channel with
  | some channel => exact acts channel
  | none => exact quiet_pure ()

theorem moveFrom_quiet (newChannel : Channel) (channel : String) :
    Quiet (moveFrom services targetUser newChannel channel) := by
  refine (callNode_quiet services channel).bind fun oldNode => ?_
  refine (newCallNode_quiet newChannel oldNode).bind fun newNode => ?_
  refine Quiet.bind (quiet_writeVoice fun _ => .of_eq rfl rfl rfl) fun _ => ?_
  refine Quiet.bind (quiet_writeVoice fun _ => .of_eq rfl rfl rfl) fun _ => ?_
  refine (quiet_ofRoute (readOnly_attempt _)).bind fun permissions => ?_
  refine (quiet_send services _).bind fun _ => ?_
  exact (quiet_of_readOnly (readOnly_attempt _)).bind fun _ => quiet_send services _

theorem syncConnection_quiet (node : String) (channel : Channel) (server : Option Server)
    (member : Option Member) (state : UserVoiceState) :
    Quiet (syncConnection services node user channel server member state) := by
  refine (quiet_ofRoute (readOnly_attempt _)).bind fun permissions => ?_
  refine Quiet.bind (quiet_writeVoice fun _ => .of_eq rfl rfl rfl) fun _ => ?_
  exact quiet_send services _

theorem fetchServerMember_quiet (server : Option Server) :
    Quiet (fetchServerMember server user) := by
  cases server with
  | some server =>
    exact (quiet_ofRoute (readOnly_attempt _)).bind fun member => quiet_pure (some member)
  | none => exact quiet_pure none

theorem syncUserVoicePermissions_quiet (node : String) (channel : Channel)
    (server : Option Server) (role : Option String) :
    Quiet (syncUserVoicePermissions services node user channel server role) := by
  refine (fetchServerMember_quiet server).bind fun member => ?_
  split
  · refine (quiet_readVoice _).bind fun state => ?_
    cases state with
    | some state => exact syncConnection_quiet node channel server member state
    | none => exact quiet_pure ()
  · exact quiet_pure ()

theorem syncIn_quiet (channel : String) : Quiet (syncIn services user server channel) := by
  refine (callNode_quiet services channel).bind fun node => ?_
  refine (quiet_ofRoute (readOnly_attempt _)).bind fun channel => ?_
  exact syncUserVoicePermissions_quiet node channel _ _

theorem leaveFrom_quiet (channel : String) : Quiet (leaveFrom services user channel) :=
  (callNode_quiet services channel).bind fun _ => quiet_send services _

theorem updateCall_quiet (data : DataMemberEdit) (newChannel : Option Channel) :
    Quiet (updateCall services user targetUser server data newChannel) := by
  cases newChannel with
  | some newChannel => exact onCall_quiet (moveFrom_quiet newChannel)
  | none => exact (onCall_quiet syncIn_quiet).onlyIf

theorem updateVoice_quiet (data : DataMemberEdit) (newChannel : Option Channel) :
    Quiet (updateVoice services user targetUser server data newChannel) :=
  (updateCall_quiet data newChannel).bind fun _ => (onCall_quiet leaveFrom_quiet).onlyIf

end Documents

/-- Whatever becomes of the call, the documents are those that the route
leaves. -/
theorem editMember_agrees (describe : DataMemberEdit → String) (services : VoiceServices)
    (user : User) (serverId memberId : String) (data : DataMemberEdit) (backend : Backend) :
    (editMember describe services user serverId memberId data backend).2.db =
      (Company.editMember describe (voiceClient services backend.voice) services.now user serverId
        memberId data backend.db).2 := by
  have agrees : Agrees
      (ofRoute (editMemberDocuments describe (voiceClient services backend.voice) services.now user
        serverId memberId data) >>= fun edited =>
          updateVoice services user edited.targetUser edited.server data edited.voiceChannel >>=
            fun _ => pure edited.member)
      (Company.editMember describe (voiceClient services backend.voice) services.now user serverId
        memberId data) := by
    rw [Company.editMember]
    refine Agrees.bind _ fun edited => Agrees.of_quiet ?_ ?_
    · exact (updateVoice_quiet data edited.voiceChannel).bind fun _ => quiet_pure edited.member
    · exact (updateVoice_readOnly _ _ _ _ _ _ _).bind fun _ => readOnly_pure _
  exact agrees backend

/-- What an accepted edit has passed, and that the voice state comes last. -/
theorem editMember_ok {describe : DataMemberEdit → String} {user : User}
    {serverId memberId : String} {data : DataMemberEdit} {backend backend' : Backend}
    {member : Member}
    (ran : editMember describe services user serverId memberId data backend =
      (.ok member, backend')) :
    ∃ (edited : EditedMember) (db : MongoDb), edited.server.id = serverId ∧
      edited.targetUser.id = memberId ∧
      edited.voiceChannel.isSome = data.voiceChannel.isSome ∧
      (data.voiceChannel.isSome && data.remove.contains .voiceChannel) = false ∧
      updateVoice services user edited.targetUser edited.server data edited.voiceChannel
        { backend with db } = (.ok (), backend') := by
  obtain ⟨client, _, ⟨⟩, edits⟩ := of_bind_eq_ok ran
  obtain ⟨edited, middle, documents, updated⟩ := of_bind_eq_ok edits
  obtain ⟨_, _, voice, ⟨⟩⟩ := of_bind_eq_ok updated
  obtain ⟨documents, same⟩ := of_ofRoute_eq documents
  obtain ⟨⟨_, failed⟩, _⟩ | ⟨server, old, _, returned, admits, _⟩ :=
    editMemberDocuments_outcome.elim documents
  · cases failed
  · cases returned
    obtain ⟨_, permitted⟩ := admits.permitted
    have serverId := (checkRoles_id admits.checked).trans (Collection.key_of_find admits.stored)
    have moveOrLeave := (DataMemberEdit.permitsVoice_of_checkFields permitted).moveOrLeave
    rw [same] at voice
    exact ⟨edited, middle.db, serverId, Collection.key_of_find admits.target,
      onPayload_isSome admits.located, moveOrLeave, voice⟩

end Task

end Company
