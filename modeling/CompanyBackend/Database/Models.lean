import CompanyBackend.Library.HashMap
import CompanyBackend.Permissions.Value

/-!
# Documents of the backend

The database models: files, users, servers with their roles, members and
channels, with the partial documents that update them. `applyOptions` copies the
fields that a partial document sets and leaves the others; `removeField` clears
one optional field.

The client models of the `v0` API repeat these documents field by field, so the
event layer uses the same types.
-/

namespace Company

/-- Instants are compared only, never decomposed. -/
abbrev Timestamp := Int

inductive FileUsedForType where
  | message | serverBanner | emoji | userAvatar | webhookAvatar | userProfileBackground
  | legacyGroupIcon | channelIcon | serverIcon
  deriving DecidableEq, Repr

structure FileUsedFor where
  objectType : FileUsedForType
  id : String
  deriving DecidableEq, Repr

inductive Metadata where
  | file
  | text
  | image (width height : Int64)
  | video (width height : Int64)
  | audio
  deriving DecidableEq, Repr

structure File where
  id : String
  tag : String
  filename : String
  hash : Option String := none
  uploadedAt : Option Timestamp := none
  uploaderId : Option String := none
  usedFor : Option FileUsedFor := none
  deleted : Option Bool := none
  reported : Option Bool := none
  metadata : Metadata := .file
  contentType : String := ""
  size : Int64 := 0
  messageId : Option String := none
  userId : Option String := none
  serverId : Option String := none
  objectId : Option String := none
  deriving DecidableEq, Repr

inductive RelationshipStatus where
  | none | user | friend | outgoing | incoming | blocked | blockedOther
  deriving DecidableEq, Repr

structure Relationship where
  id : String
  status : RelationshipStatus
  deriving DecidableEq, Repr

inductive Presence where
  | online | idle | focus | busy | invisible
  deriving DecidableEq, Repr

structure UserStatus where
  text : Option String := none
  presence : Option Presence := none
  deriving DecidableEq, Repr

structure UserProfile where
  content : Option String := none
  background : Option File := none
  deriving DecidableEq, Repr

structure BotInformation where
  owner : String
  deriving DecidableEq, Repr

structure User where
  id : String
  username : String := ""
  discriminator : String := ""
  displayName : Option String := none
  avatar : Option File := none
  relations : Option (List Relationship) := none
  badges : Option Int32 := none
  status : Option UserStatus := none
  profile : Option UserProfile := none
  flags : Option Int32 := none
  privileged : Bool := false
  bot : Option BotInformation := none
  suspendedUntil : Option Timestamp := none
  presenceStyle : Option String := none
  deriving DecidableEq, Repr

structure PartialUser where
  id : Option String := none
  username : Option String := none
  discriminator : Option String := none
  displayName : Option String := none
  avatar : Option File := none
  relations : Option (List Relationship) := none
  badges : Option Int32 := none
  status : Option UserStatus := none
  profile : Option UserProfile := none
  flags : Option Int32 := none
  privileged : Option Bool := none
  bot : Option BotInformation := none
  suspendedUntil : Option Timestamp := none
  presenceStyle : Option String := none
  deriving DecidableEq, Repr

inductive FieldsUser where
  | avatar | statusText | statusPresence | profileContent | profileBackground | displayName
  | suspension | none
  deriving DecidableEq, Repr

namespace User

def applyOptions (user : User) (data : PartialUser) : User where
  id := data.id.getD user.id
  username := data.username.getD user.username
  discriminator := data.discriminator.getD user.discriminator
  displayName := data.displayName <|> user.displayName
  avatar := data.avatar <|> user.avatar
  relations := data.relations <|> user.relations
  badges := data.badges <|> user.badges
  status := data.status <|> user.status
  profile := data.profile <|> user.profile
  flags := data.flags <|> user.flags
  privileged := data.privileged.getD user.privileged
  bot := data.bot <|> user.bot
  suspendedUntil := data.suspendedUntil <|> user.suspendedUntil
  presenceStyle := data.presenceStyle <|> user.presenceStyle

def removeField (user : User) : FieldsUser → User
  | .avatar => { user with avatar := none }
  | .statusText => { user with status := user.status.map fun x => { x with text := none } }
  | .statusPresence => { user with status := user.status.map fun x => { x with presence := none } }
  | .profileContent => { user with profile := user.profile.map fun x => { x with content := none } }
  | .profileBackground =>
    { user with profile := user.profile.map fun x => { x with background := none } }
  | .displayName => { user with displayName := none }
  | .suspension => { user with suspendedUntil := none }
  | .none => user

end User

structure Role where
  id : String
  name : String := ""
  permissions : OverrideField := {}
  colour : Option String := none
  hoist : Bool := false
  rank : Int64 := 0
  deriving DecidableEq, Repr

structure PartialRole where
  id : Option String := none
  name : Option String := none
  permissions : Option OverrideField := none
  colour : Option String := none
  hoist : Option Bool := none
  rank : Option Int64 := none
  deriving DecidableEq, Repr

inductive FieldsRole where
  | colour
  deriving DecidableEq, Repr

namespace Role

def applyOptions (role : Role) (data : PartialRole) : Role where
  id := data.id.getD role.id
  name := data.name.getD role.name
  permissions := data.permissions.getD role.permissions
  colour := data.colour <|> role.colour
  hoist := data.hoist.getD role.hoist
  rank := data.rank.getD role.rank

def removeField (role : Role) : FieldsRole → Role
  | .colour => { role with colour := none }

end Role

structure Category where
  id : String
  title : String
  channels : List String
  deriving DecidableEq, Repr

structure SystemMessageChannels where
  userJoined : Option String := none
  userLeft : Option String := none
  userKicked : Option String := none
  userBanned : Option String := none
  deriving DecidableEq, Repr

structure Server where
  id : String
  owner : String
  name : String := ""
  description : Option String := none
  channels : List String := []
  categories : Option (List Category) := none
  systemMessages : Option SystemMessageChannels := none
  roles : HashMap String Role := ∅
  defaultPermissions : Int64 := 0
  icon : Option File := none
  banner : Option File := none
  flags : Option Int32 := none
  nsfw : Bool := false
  analytics : Bool := false
  discoverable : Bool := false

structure PartialServer where
  id : Option String := none
  owner : Option String := none
  name : Option String := none
  description : Option String := none
  channels : Option (List String) := none
  categories : Option (List Category) := none
  systemMessages : Option SystemMessageChannels := none
  roles : Option (HashMap String Role) := none
  defaultPermissions : Option Int64 := none
  icon : Option File := none
  banner : Option File := none
  flags : Option Int32 := none
  nsfw : Option Bool := none
  analytics : Option Bool := none
  discoverable : Option Bool := none

inductive FieldsServer where
  | description | categories | systemMessages | icon | banner
  deriving DecidableEq, Repr

namespace Server

def applyOptions (server : Server) (data : PartialServer) : Server where
  id := data.id.getD server.id
  owner := data.owner.getD server.owner
  name := data.name.getD server.name
  description := data.description <|> server.description
  channels := data.channels.getD server.channels
  categories := data.categories <|> server.categories
  systemMessages := data.systemMessages <|> server.systemMessages
  roles := data.roles.getD server.roles
  defaultPermissions := data.defaultPermissions.getD server.defaultPermissions
  icon := data.icon <|> server.icon
  banner := data.banner <|> server.banner
  flags := data.flags <|> server.flags
  nsfw := data.nsfw.getD server.nsfw
  analytics := data.analytics.getD server.analytics
  discoverable := data.discoverable.getD server.discoverable

def removeField (server : Server) : FieldsServer → Server
  | .description => { server with description := none }
  | .categories => { server with categories := none }
  | .systemMessages => { server with systemMessages := none }
  | .icon => { server with icon := none }
  | .banner => { server with banner := none }

end Server

structure MemberCompositeKey where
  server : String
  user : String
  deriving DecidableEq, Repr

structure Member where
  id : MemberCompositeKey
  joinedAt : Timestamp := 0
  nickname : Option String := none
  avatar : Option File := none
  roles : List String := []
  timeout : Option Timestamp := none
  canPublish : Bool := true
  canReceive : Bool := true
  deriving DecidableEq, Repr

structure PartialMember where
  id : Option MemberCompositeKey := none
  joinedAt : Option Timestamp := none
  nickname : Option String := none
  avatar : Option File := none
  roles : Option (List String) := none
  timeout : Option Timestamp := none
  canPublish : Option Bool := none
  canReceive : Option Bool := none
  deriving DecidableEq, Repr

inductive FieldsMember where
  | nickname | avatar | roles | timeout | canReceive | canPublish | joinedAt | voiceChannel
  deriving DecidableEq, Repr

namespace Member

def applyOptions (member : Member) (data : PartialMember) : Member where
  id := data.id.getD member.id
  joinedAt := data.joinedAt.getD member.joinedAt
  nickname := data.nickname <|> member.nickname
  avatar := data.avatar <|> member.avatar
  roles := data.roles.getD member.roles
  timeout := data.timeout <|> member.timeout
  canPublish := data.canPublish.getD member.canPublish
  canReceive := data.canReceive.getD member.canReceive

def removeField (member : Member) : FieldsMember → Member
  | .joinedAt => member
  | .avatar => { member with avatar := none }
  | .nickname => { member with nickname := none }
  | .roles => { member with roles := [] }
  | .timeout => { member with timeout := none }
  | .canReceive => { member with canReceive := true }
  | .canPublish => { member with canPublish := true }
  | .voiceChannel => member

/-- The body of the loop of `get_ranking`: keep the smaller rank of a role that
exists. -/
def betterRank (server : Server) (value : Int64) (role : String) : Int64 :=
  match server.roles.lookup role with
  | some role => if role.rank < value then role.rank else value
  | none => value

/-- The smallest rank among the held roles, or the maximum integer without
any. -/
def getRanking (member : Member) (server : Server) : Int64 :=
  member.roles.foldl (betterRank server) Int64.maxValue

def inTimeout (now : Timestamp) (member : Member) : Bool :=
  match member.timeout with
  | some timeout => decide (timeout > now)
  | none => false

end Member

inductive ViewerListVisibility where
  | nobody | participantsOnly | moderatorsOnly | everyone
  deriving DecidableEq, Repr

structure VoiceInformation where
  maxUsers : Option Nat := none
  bitrate : Option UInt32 := none
  isStreamPublic : Bool := false
  showViewerListTo : ViewerListVisibility := .nobody
  deriving DecidableEq, Repr

structure SavedMessages where
  id : String
  user : String
  deriving DecidableEq, Repr

structure DirectMessage where
  id : String
  active : Bool := true
  recipients : List String
  lastMessageId : Option String := none
  deriving DecidableEq, Repr

structure Group where
  id : String
  name : String := ""
  owner : String
  description : Option String := none
  recipients : List String
  icon : Option File := none
  lastMessageId : Option String := none
  permissions : Option Int64 := none
  moderators : List String := []
  nsfw : Bool := false
  encrypted : Bool := false
  deriving DecidableEq, Repr

structure TextChannel where
  id : String
  server : String
  name : String := ""
  description : Option String := none
  icon : Option File := none
  lastMessageId : Option String := none
  defaultPermissions : Option OverrideField := none
  rolePermissions : HashMap String OverrideField := ∅
  nsfw : Bool := false
  voice : Option VoiceInformation := none
  encrypted : Bool := false

inductive Channel where
  | savedMessages (channel : SavedMessages)
  | directMessage (channel : DirectMessage)
  | group (channel : Group)
  | textChannel (channel : TextChannel)

structure PartialChannel where
  name : Option String := none
  owner : Option String := none
  description : Option String := none
  icon : Option File := none
  nsfw : Option Bool := none
  active : Option Bool := none
  permissions : Option Int64 := none
  moderators : Option (List String) := none
  rolePermissions : Option (HashMap String OverrideField) := none
  defaultPermissions : Option OverrideField := none
  lastMessageId : Option String := none
  voice : Option VoiceInformation := none
  encrypted : Option Bool := none

inductive FieldsChannel where
  | description | icon | defaultPermissions | voice
  deriving DecidableEq, Repr

namespace Channel

def id : Channel → String
  | savedMessages channel => channel.id
  | directMessage channel => channel.id
  | group channel => channel.id
  | textChannel channel => channel.id

/-- The server a channel belongs to, if any. -/
def server : Channel → Option String
  | textChannel channel => some channel.server
  | _ => none

/-- Partial documents never carry a last message for `applyOptions`, as in the
source. -/
def applyOptions (data : PartialChannel) : Channel → Channel
  | savedMessages channel => savedMessages channel
  | directMessage channel =>
    directMessage { channel with active := data.active.getD channel.active }
  | group channel =>
    group { channel with
      name := data.name.getD channel.name
      owner := data.owner.getD channel.owner
      description := data.description <|> channel.description
      icon := data.icon <|> channel.icon
      nsfw := data.nsfw.getD channel.nsfw
      permissions := data.permissions <|> channel.permissions
      moderators := data.moderators.getD channel.moderators
      encrypted := data.encrypted.getD channel.encrypted }
  | textChannel channel =>
    textChannel { channel with
      name := data.name.getD channel.name
      description := data.description <|> channel.description
      icon := data.icon <|> channel.icon
      nsfw := data.nsfw.getD channel.nsfw
      rolePermissions := data.rolePermissions.getD channel.rolePermissions
      defaultPermissions := data.defaultPermissions <|> channel.defaultPermissions
      voice := data.voice <|> channel.voice
      encrypted := data.encrypted.getD channel.encrypted }

def removeField (field : FieldsChannel) : Channel → Channel
  | group channel =>
    match field with
    | .description => group { channel with description := none }
    | .icon => group { channel with icon := none }
    | _ => group channel
  | textChannel channel =>
    match field with
    | .description => textChannel { channel with description := none }
    | .icon => textChannel { channel with icon := none }
    | .defaultPermissions => textChannel { channel with defaultPermissions := none }
    | .voice => textChannel { channel with voice := none }
  | channel => channel

@[simp] theorem removeField_id (field : FieldsChannel) (channel : Channel) :
    (channel.removeField field).id = channel.id := by
  cases channel <;> cases field <;> rfl

end Channel

end Company
