import CompanyBackend.Voice.Calls

/-!
# Channels that go away, and their calls

The routes that delete a channel and that edit one, with what they do to the call in it. The
documents come first, as in `deleteChannel` and `editChannel`. A channel that is deleted, or that
is left without voice, then has its call ended.
-/

namespace Company

open Request

namespace Task

/-- Take a user who has left a group from its call. -/
def leaveVoiceChannel (voice : VoiceServices) (channelId userId : String) : Task Unit := do
  let connected ← readVoice (·.isInVoiceChannel userId channelId)
  onlyIf connected (removeUserFromVoiceChannel voice channelId userId)

/-- `DELETE /channels/<target>` -/
def deleteChannel (services : GroupServices) (voice : VoiceServices) (user : User)
    (target : String) : Task Unit := do
  let channel ← ofRoute (Route.fetch fun db => db.fetchChannel target)
  let permissions ← ofRoute (Route.channelPermissions services.now user channel)
  ofRoute (Route.lift (permissions.throwIfLackingChannelPermission .viewChannel))
  match channel with
  | .savedMessages _ => fail (.error .noEffect)
  | .directMessage _ => do
    let _ ← ofRoute (channel.update { active := some false } [])
  | .group _ => do
    ofRoute (channel.removeUserFromGroup services.attached user)
    leaveVoiceChannel voice channel.id user.id
  | .textChannel _ => do
    ofRoute (Route.lift (permissions.throwIfLackingChannelPermission .manageChannel))
    ofRoute (channel.delete services.attached)
    deleteVoiceChannel voice channel.id channel.server

end Task

variable (services : GroupServices) (user : User) (data : DataEditChannel) (channel : Channel)

def applyChannelDocuments : Route Channel := do
  let (channel, changes) ← Route.lift (transferOwnership user data.owner channel)
  let changes ← Route.lift (manageModerators user data channel changes)
  let changes ← channelChanges services user data channel changes
  channel.update changes data.remove

theorem applyChannelEdit_eq : applyChannelEdit services user data channel =
      (applyChannelDocuments services user data channel >>= fun channel =>
        onlyIf channel.voice.isNone (Request.attempt fun _ =>
          services.deleteVoiceChannel channel.id channel.server) >>= fun _ => pure channel) := by
  simp only [applyChannelEdit, applyChannelDocuments, bind_assoc]

namespace Task

def applyChannelEdit (services : GroupServices) (voice : VoiceServices) (user : User)
    (data : DataEditChannel) (channel : Channel) : Task Channel := do
  let channel ← ofRoute (applyChannelDocuments services user data channel)
  onlyIf channel.voice.isNone (deleteVoiceChannel voice channel.id channel.server)
  return channel

/-- `PATCH /channels/<target>` -/
def editChannel (services : GroupServices) (voice : VoiceServices) (user : User) (target : String)
    (data : DataEditChannel) : Task Channel := do
  ensure data.valid (.error (.failedValidation (services.describeEdit data)))
  let channel ← ofRoute (Route.fetch fun db => db.fetchChannel target)
  ofRoute (ensureMayEdit services user channel)
  if data.changesNothing then return channel
  else applyChannelEdit services voice user data channel

section Documents

variable (voice : VoiceServices) (channelId userId : String)

theorem askToRemove_quiet : Quiet (askToRemove voice channelId userId) := by
  intro backend
  rw [askToRemove_run]
  exact ⟨rfl, rfl, rfl, .refl _⟩

theorem removeUserFromVoiceChannel_quiet :
    Quiet (removeUserFromVoiceChannel voice channelId userId) := by
  refine (askToRemove_quiet voice channelId userId).bind fun _ => ?_
  exact (quiet_ofRoute (readOnly_attempt _)).bind fun _ =>
    quiet_writeVoice fun _ => VoiceRedis.shrinks_deleteVoiceState

theorem leaveVoiceChannel_quiet : Quiet (leaveVoiceChannel voice channelId userId) :=
  (quiet_readVoice _).bind fun _ =>
    (removeUserFromVoiceChannel_quiet voice channelId userId).onlyIf

theorem deleteVoiceChannel_quiet (channelId : String) (serverId : Option String) :
    Quiet (deleteVoiceChannel voice channelId serverId) := by
  refine (quiet_readVoice _).bind fun users => ?_
  refine Quiet.bind ?_ fun _ => quiet_writeVoice fun _ => .of_eq rfl rfl rfl
  cases users with
  | none => exact quiet_pure ()
  | some users =>
    refine (quiet_readVoice _).bind fun node => ?_
    refine (quiet_unwrap _ node).bind fun node => ?_
    exact (quiet_send voice _).bind fun _ =>
      quiet_writeVoice fun _ => VoiceRedis.shrinks_deleteChannelVoiceState users

variable (services : GroupServices)

/-- Whatever becomes of the call, a deletion leaves the documents that the route
leaves. -/
theorem deleteChannel_agrees (user : User) (target : String) :
    Agrees (deleteChannel services voice user target)
      (Company.deleteChannel services user target) := by
  refine Agrees.bind _ fun channel => Agrees.bind _ fun permissions => Agrees.bind _ fun _ => ?_
  cases channel with
  | savedMessages document => exact fun _ => rfl
  | directMessage document => exact Agrees.bind _ fun _ _ => rfl
  | group document =>
    exact Agrees.bind _ fun _ => .of_quiet (leaveVoiceChannel_quiet voice _ _)
      (leaveVoiceChannel_readOnly _ _)
  | textChannel document =>
    exact Agrees.bind _ fun _ => Agrees.bind _ fun _ =>
      .of_quiet (deleteVoiceChannel_quiet voice _ _) (readOnly_attempt _)

theorem applyChannelEdit_agrees (user : User) (data : DataEditChannel) (channel : Channel) :
    Agrees (applyChannelEdit services voice user data channel)
      (Company.applyChannelEdit services user data channel) := by
  rw [applyChannelEdit_eq]
  refine Agrees.bind _ fun channel => .of_quiet ?_ ?_
  · exact (deleteVoiceChannel_quiet voice _ _).onlyIf.bind fun _ => quiet_pure channel
  · exact (readOnly_onlyIf (readOnly_attempt _)).bind fun _ => readOnly_pure channel

/-- So does an edit, which ends the call only after the documents are
written. -/
theorem editChannel_agrees (user : User) (target : String) (data : DataEditChannel) :
    Agrees (editChannel services voice user target data)
      (Company.editChannel services user target data) := by
  intro backend
  rw [editChannel, Company.editChannel]
  cases data.valid with
  | false => rfl
  | true =>
    refine Agrees.bind _ (fun channel => Agrees.bind _ fun _ => ?_) backend
    split
    · exact fun _ => rfl
    · exact applyChannelEdit_agrees voice services user data channel

end Documents

end Task

end Company
