import CompanyBackend.Messages.Deletion
import CompanyBackend.Messages.Parser
import CompanyBackend.Permissions.Bulk

/-!
# Sending a message

A message is made from the data of a request: the data is checked, the mentions are taken from
the text, the flags and the replies and cut down to those that the author may make and the
channel knows, files are claimed, and the message is stored. Then it may be queued for the worker
that keeps track of unread mentions and sends push notifications.

A flag has a bit of its own, but whether notifications are suppressed is looked up in another one,
which no message has.

Events, generated embeds and the last message of the channel are left out.
-/

namespace Company

open Request BulkDatabasePermissionQuery

inductive MessageFlags where
  | suppressNotifications | mentionsEveryone | mentionsOnline
  deriving DecidableEq, Repr

def MessageFlags.toUInt32 : MessageFlags → UInt32
  | suppressNotifications => 1
  | mentionsEveryone => 2
  | mentionsOnline => 3

abbrev MessageFlagsValue := UInt32

namespace MessageFlagsValue

variable (value : MessageFlagsValue)

def hasValue (bit : UInt32) : Bool := value &&& (1 <<< bit) == 1 <<< bit

def has (flag : MessageFlags) : Bool := value.hasValue flag.toUInt32

def setValue (bit : UInt32) (toggle : Bool) : MessageFlagsValue :=
  if toggle then value ||| (1 <<< bit) else value &&& ~~~(1 <<< bit)

def set (flag : MessageFlags) (toggle : Bool) : MessageFlagsValue :=
  value.setValue flag.toUInt32 toggle

end MessageFlagsValue

structure Interactions where
  reactions : Option (List String) := none
  restrictReactions : Bool := false
  deriving DecidableEq, Repr

structure Masquerade where
  name : Option String := none
  avatar : Option String := none
  colour : Option String := none
  deriving DecidableEq, Repr

structure MessageWebhook where
  name : String
  avatar : Option String := none
  deriving DecidableEq, Repr

structure TextEmbed where
  iconUrl : Option String := none
  url : Option String := none
  title : Option String := none
  description : Option String := none
  media : Option File := none
  colour : Option String := none
  deriving DecidableEq, Repr

/-- A message with what a request may set. -/
structure SentMessage extends MessageDocument where
  nonce : Option String := none
  webhook : Option MessageWebhook := none
  content : Option String := none
  embeds : Option (List TextEmbed) := none
  mentions : Option (List String) := none
  roleMentions : Option (List String) := none
  replies : Option (List String) := none
  interactions : Interactions := {}
  masquerade : Option Masquerade := none
  flags : Option UInt32 := none
  deriving DecidableEq, Repr

open MessageFlagsValue

namespace SentMessage

/-- The flag is taken for a value, not for the number of a bit. -/
def hasSuppressedNotifications (message : SentMessage) : Bool :=
  message.flags.any fun flags =>
    flags &&& MessageFlags.suppressNotifications.toUInt32 ==
      MessageFlags.suppressNotifications.toUInt32

def containsMassPushMention (message : SentMessage) : Bool :=
  (message.flags.any fun flags => has flags .mentionsEveryone) || message.roleMentions.isSome

end SentMessage

structure ReplyIntent where
  id : String
  mention : Bool := false
  failIfNotExists : Option Bool := none
  deriving DecidableEq, Repr

structure SendableEmbed where
  iconUrl : Option String := none
  url : Option String := none
  title : Option String := none
  description : Option String := none
  media : Option String := none
  colour : Option String := none
  deriving DecidableEq, Repr

structure DataMessageSend where
  nonce : Option String := none
  content : Option String := none
  attachments : Option (List String) := none
  replies : Option (List ReplyIntent) := none
  embeds : Option (List SendableEmbed) := none
  masquerade : Option Masquerade := none
  interactions : Option Interactions := none
  flags : Option UInt32 := none
  deriving DecidableEq, Repr

structure Webhook where
  id : String
  name : String
  avatar : Option File := none
  deriving DecidableEq, Repr

inductive MessageAuthor where
  | user (user : ApiUser)
  | webhook (webhook : Webhook)
  | system (username : String) (avatar : Option String)
  deriving DecidableEq, Repr

namespace MessageAuthor

def id : MessageAuthor → String
  | .user author => author.id
  | .webhook author => author.id
  | .system _ _ => "00000000000000000000000000"

def asWebhook : MessageAuthor → Option MessageWebhook
  | .webhook author => some { name := author.name, avatar := author.avatar.map File.id }
  | _ => none

end MessageAuthor

structure MessageConfig where
  massMentionsEnabled : Bool
  messageReplies : Nat
  messageEmbeds : Nat
  messageLength : Nat
  messageAttachments : Nat

/-- What `create_from_api` is given. -/
structure MessageRequest where
  config : MessageConfig
  now : Timestamp
  /-- The id that is made for the message. -/
  messageId : String
  channel : Channel
  data : DataMessageSend
  author : MessageAuthor
  user : Option ApiUser := none
  /-- The idempotency key. -/
  key : String := ""
  allowMentions : Bool := true

structure PushNotification where
  message : SentMessage
  channel : Channel

structure QueuedMessage where
  push : Option PushNotification
  message : SentMessage
  recipients : List String
  silenced : Bool

inductive AckEvent where
  | processMessage (messages : List QueuedMessage)
  | ackMessage (id : String)

structure AckData where
  channel : String
  user : Option String
  event : AckEvent

structure MessageBackend extends MessageStore where
  /-- The nonces in the cache, the one used last first. -/
  nonces : List String := []
  queue : List AckData := []

abbrev SendTask (α : Type) := Request MessageBackend Failure α

variable {α : Type}

namespace SendTask

def fetch (f : MessageBackend → Result α) : SendTask α :=
  attempt fun backend => (f backend).mapError .error

def lift (x : Result α) : SendTask α := fetch fun _ => x

/-- A route, which sees the documents other than messages. -/
def ofRoute (x : Route α) : SendTask α := fun backend =>
  ((x backend.db).1, { backend with db := (x backend.db).2 })

end SendTask

/-- The queue holds ten thousand tasks, and drops what comes after them. -/
def queueMessage (channel : String) (event : AckEvent) : SendTask Unit :=
  write fun backend => .ok
    (if backend.queue.length < 10000 then
      { backend with queue := backend.queue ++ [{ channel, user := none, event }] }
    else backend)

/-- Lengths are in bytes. -/
def validateSum (content : Option String) (embeds : List SendableEmbed) (maxLength : Nat) :
    Result Unit :=
  let contentLength := (content.map String.utf8ByteSize).getD 0
  let total := embeds.foldl (fun total embed =>
    total + (embed.description.map String.utf8ByteSize).getD 0) contentLength
  if total ≤ maxLength then .ok () else .error .payloadTooLarge

/-- A nonce is used once, as long as the cache holds it. Looking it up makes it
the latest. -/
def consumeNonce (key : String) : Option String → SendTask String
  | none => return key
  | some nonce => do
    let used ← attempt fun backend => .ok (backend.nonces.contains nonce)
    write fun backend => .ok
      { backend with nonces := (nonce :: backend.nonces.erase nonce).take 1000 }
    ensure (!used) (.error .invalidOperation)
    return nonce

def DataMessageSend.isEmpty (data : DataMessageSend) : Bool :=
  data.content.all (·.isEmpty) && data.attachments.all (·.isEmpty) && data.embeds.all (·.isEmpty)

structure RequestedFlags where
  suppressNotifications : Bool := false
  mentionsEveryone : Bool := false
  mentionsOnline : Bool := false

def resolveFlags (allowMentions : Bool) (user : Option ApiUser) :
    Option UInt32 → Result RequestedFlags
  | none => .ok {}
  | some raw =>
    if raw > 7 then .error .invalidProperty
    else
      let flags : MessageFlagsValue := raw
      let everyone := allowMentions && flags.has .mentionsEveryone
      let online := allowMentions && flags.has .mentionsOnline
      if (user.any fun user => user.bot.isNone) && (everyone || online) then .error .isNotBot
      else if everyone && online then .error .invalidFlagValue
      else .ok
        { suppressNotifications := flags.has .suppressNotifications
          mentionsEveryone := everyone
          mentionsOnline := online }

def Interactions.restrictsNothing (interactions : Interactions) : Bool :=
  interactions.restrictReactions && interactions.reactions.all (·.isEmpty)

variable (request : MessageRequest)

open SendTask

def MessageRequest.check : SendTask (RequestedFlags × String) := do
  let data := request.data
  lift (validateSum data.content (data.embeds.getD []) request.config.messageLength)
  let key ← consumeNonce request.key data.nonce
  ensure (!data.isEmpty) (.error .emptyMessage)
  let flags ← lift (resolveFlags request.allowMentions request.user data.flags)
  ensure (!data.interactions.any (·.restrictsNothing)) (.error .invalidProperty)
  return (flags, key)

variable (results : MessageResults)

def MessageResults.massMention : Bool :=
  results.mentionsEveryone || results.mentionsOnline || !results.roleMentions.isEmpty

def MessageRequest.parsed (flags : RequestedFlags) : MessageResults :=
  let results := (request.data.content.map parseMessage).getD {}
  { results with
    mentionsEveryone := results.mentionsEveryone || flags.mentionsEveryone
    mentionsOnline := results.mentionsOnline || flags.mentionsOnline }

/-- Mentioned roles are those of the server. -/
def MessageRequest.retainRoles (roles : List String) : SendTask (List String) :=
  match request.channel.server with
  | some serverId =>
    if request.allowMentions && request.config.massMentionsEnabled && !roles.isEmpty then do
      match ← result (fetch fun backend => backend.db.fetchServer serverId) with
      | .ok server => return roles.filter fun id => (server.roles.lookup id).isSome
      | .error _ => fail (.panic "Failed to fetch server")
    else return roles
  | none => return roles

/-- A user needs permissions for mass mentions, a webhook does not. -/
def MessageRequest.authoriseMassMention : SendTask Unit :=
  match request.author with
  | .user user => do
    let permissions ← ofRoute (Route.channelPermissions request.now user.toUser request.channel)
    onlyIf (results.mentionsEveryone || results.mentionsOnline) <|
      lift (permissions.throwIfLackingChannelPermission .mentionEveryone)
    onlyIf (!results.roleMentions.isEmpty) <|
      lift (permissions.throwIfLackingChannelPermission .mentionRoles)
  | .system _ _ => fail (.error .invalidProperty)
  | .webhook _ => return ()

def MessageRequest.massMentions : SendTask MessageResults := do
  let roleMentions ← request.retainRoles results.roleMentions
  let results := { results with roleMentions }
  if results.massMention then
    if request.config.massMentionsEnabled then do
      request.authoriseMassMention results
      return results
    else return { userMentions := results.userMentions }
  else return results

/-- The loop over the replies, with the users that are mentioned and the replies
so far. -/
def resolveReplies (allowMentions : Bool) :
    List ReplyIntent → List String → List String → SendTask (List String × List String)
  | [], users, replies => return (users, replies)
  | intent :: rest, users, replies => do
    match ← result (fetch fun backend => backend.fetchMessage intent.id) with
    | .ok message =>
      resolveReplies allowMentions rest
        (if intent.mention && allowMentions then users.insert message.author else users)
        (if replies.contains message.id then replies else replies ++ [message.id])
    | .error e =>
      if e != .error .notFound || intent.failIfNotExists.getD true then fail e
      else resolveReplies allowMentions rest users replies

def MessageRequest.replies (users : List String) : SendTask (List String × List String) :=
  match request.data.replies with
  | some entries => do
    ensure (decide (entries.length ≤ request.config.messageReplies))
      (.error (.tooManyReplies request.config.messageReplies))
    resolveReplies request.allowMentions entries users []
  | none => return (users, [])

/-- The users who can see a channel of a server, of those who are members. -/
def usersSeeing (now : Timestamp) (channel : TextChannel) (users : List String) :
    SendTask (List String) := do
  match ← result (fetch fun backend => backend.db.fetchMembers channel.server users) with
  | .error _ => fail (.error .internalError)
  | .ok members =>
    let valid := users.filter fun user => members.any fun member => member.id.user == user
    if valid.isEmpty then return []
    else do
      let visible ← attempt fun backend =>
        match backend.db.fetchServer channel.server with
        | .error _ => .error (.panic "called `Result::unwrap()` on an `Err` value")
        | .ok server => Route.ofQuery <|
            (membersCanSeeChannel.run
              (((new backend.db now server).withChannel
                (.textChannel channel)).withMembers members)).map Prod.fst
      return valid.filter fun user => (visible.lookup user).getD false

/-- Mentions are of users in the channel or in the server. Where users are
mentioned, a conversation has no role mentions. -/
def MessageRequest.validateMentions (users roles : List String) :
    SendTask (List String × List String) :=
  if users.isEmpty then return (users, roles)
  else
    match request.channel with
    | .directMessage channel => return (users.filter channel.recipients.contains, [])
    | .group channel => return (users.filter channel.recipients.contains, [])
    | .textChannel channel => do
      let users ← usersSeeing request.now channel users
      return (users, roles)
    | .savedMessages _ => return ([], roles)

def nonempty (xs : List String) : Option (List String) := if xs.isEmpty then none else some xs

def finalFlags (suppressNotifications mentionsEveryone mentionsOnline : Bool) : UInt32 :=
  ((((0 : MessageFlagsValue).set .suppressNotifications suppressNotifications).set
    .mentionsEveryone mentionsEveryone).set .mentionsOnline mentionsOnline)

def MessageRequest.draft (flags : RequestedFlags)
    (results : MessageResults) (users roles replies : List String) : SentMessage where
  id := request.messageId
  channel := request.channel.id
  author := request.author.id
  webhook := request.author.asWebhook
  mentions := nonempty users
  roleMentions := nonempty roles
  replies := nonempty replies
  interactions := request.data.interactions.getD {}
  masquerade := request.data.masquerade
  flags := some (finalFlags flags.suppressNotifications results.mentionsEveryone
    results.mentionsOnline)

def useMessageAttachment (parent uploaderId id : String) : SendTask File := fun backend =>
  match backend.db.findAndUseAttachment id "attachments"
      { id := parent, objectType := .message } uploaderId with
  | .ok (file, db) => (.ok file, { backend with db })
  | .error e => (.error (.error e), backend)

def useAttachments (parent uploaderId : String) : List String → SendTask (List File)
  | [] => return []
  | id :: ids => do
    let file ← useMessageAttachment parent uploaderId id
    let files ← useAttachments parent uploaderId ids
    return file :: files

def SendableEmbed.toEmbed (embed : SendableEmbed) (media : Option File) : TextEmbed where
  iconUrl := embed.iconUrl
  url := embed.url
  title := embed.title
  description := embed.description
  media := media
  colour := embed.colour

def SentMessage.useMedia (message : SentMessage) : Option String → SendTask (Option File)
  | some id => do
    let file ← useMessageAttachment message.id message.author id
    return some file
  | none => return none

def SentMessage.attachSendableEmbed (message : SentMessage) (embed : SendableEmbed) :
    SendTask SentMessage := do
  let media ← message.useMedia embed.media
  return { message with embeds := some (message.embeds.getD [] ++ [embed.toEmbed media]) }

def SentMessage.attachEmbeds (message : SentMessage) : List SendableEmbed → SendTask SentMessage
  | [] => return message
  | embed :: embeds => do
    let message ← message.attachSendableEmbed embed
    attachEmbeds message embeds

def MessageRequest.attachFiles (message : SentMessage) : SendTask SentMessage := do
  let data := request.data
  ensure (decide ((data.attachments.getD []).length ≤ request.config.messageAttachments))
    (.error (.tooManyAttachments request.config.messageAttachments))
  ensure (decide ((data.embeds.getD []).length ≤ request.config.messageEmbeds))
    (.error (.tooManyEmbeds request.config.messageEmbeds))
  let files ← useAttachments request.messageId request.author.id (data.attachments.getD [])
  let message := { message with attachments := if files.isEmpty then none else some files }
  message.attachEmbeds (data.embeds.getD [])

def MessageStore.insertMessage (store : MessageStore) (message : MessageDocument) :
    Result MessageStore :=
  if (store.messages.find message.id).isSome then .error (.databaseError "insert_one" "messages")
  else .ok { store with messages := store.messages.insert message }

/-- A direct message is not stored. -/
def Channel.isDirect : Channel → Bool
  | .directMessage _ => true
  | _ => false

def Channel.pushRecipients (channel : Channel) (message : SentMessage) : List String :=
  match channel with
  | .directMessage channel => channel.recipients
  | .group channel => channel.recipients
  | .textChannel _ => message.mentions.getD []
  | .savedMessages _ => []

def SentMessage.sendWithoutNotifications (message : SentMessage) (isDm : Bool) : SendTask Unit :=
  onlyIf (!isDm) <| write fun backend =>
    match backend.insertMessage message.toMessageDocument with
    | .ok store => .ok { backend with toMessageStore := store }
    | .error e => .error (.error e)

def SentMessage.queued (message : SentMessage) (channel : Channel) : QueuedMessage where
  push := some { message, channel }
  message := message
  recipients := channel.pushRecipients message
  silenced := false

def SentMessage.send (message : SentMessage) (channel : Channel) : SendTask Unit := do
  message.sendWithoutNotifications channel.isDirect
  onlyIf (!message.hasSuppressedNotifications &&
      (message.mentions.isSome || message.containsMassPushMention)) <|
    queueMessage message.channel (.processMessage [message.queued channel])

def MessageRequest.prepare : SendTask SentMessage := do
  let (flags, key) ← request.check
  let results ← request.massMentions (request.parsed flags)
  let (users, replies) ← request.replies results.userMentions
  let (users, roles) ← request.validateMentions users results.roleMentions
  let message ← request.attachFiles (request.draft flags results users roles replies)
  return { message with content := request.data.content, nonce := some key }

/-- `Message::create_from_api` -/
def createFromApi : SendTask SentMessage := do
  let message ← request.prepare
  message.send request.channel
  return message

/-! ## Accepted requests

Nothing but the cache of nonces changes before the files are claimed, and the files do not reach
the queue. So the mentions of an accepted message can be told from its request and the stored
messages that it replies to. -/

theorem SendTask.readOnly_ofRoute {x : Route α} (readOnly : ReadOnly x) : ReadOnly (ofRoute x) := by
  intro backend
  simp only [ofRoute, readOnly backend.db]

variable {allowMentions : Bool} {flags : RequestedFlags}

theorem resolveFlags_mentionsEveryone {user : Option ApiUser} {raw : Option UInt32}
    (resolved : resolveFlags allowMentions user raw = .ok flags) :
    flags.mentionsEveryone =
      (allowMentions && raw.any fun raw => has raw .mentionsEveryone) := by
  cases raw with
  | none =>
    cases resolved
    exact (Bool.and_false _).symm
  | some raw =>
    rw [resolveFlags] at resolved
    dsimp only at resolved
    split at resolved
    · cases resolved
    · split at resolved
      · cases resolved
      · split at resolved
        · cases resolved
        · cases resolved
          rfl

variable {backend backend' : MessageBackend}

theorem consumeNonce_ok {key key' : String} {nonce : Option String}
    (consumed : consumeNonce key nonce backend = (.ok key', backend')) :
    ∃ nonces, backend' = { backend with nonces } := by
  cases nonce with
  | none =>
    cases consumed
    exact ⟨backend.nonces, rfl⟩
  | some nonce =>
    obtain ⟨used, _, rest⟩ := of_readOnly_bind_eq_ok (readOnly_attempt _) consumed
    obtain ⟨_, written, ⟨⟩, checked⟩ := of_bind_eq_ok rest
    obtain ⟨_, ⟨⟩⟩ := of_ensure_bind_eq_ok checked
    exact ⟨_, rfl⟩

variable {request : MessageRequest}

namespace MessageRequest

theorem check_ok {key : String} (checked : request.check backend = (.ok (flags, key), backend')) :
    resolveFlags request.allowMentions request.user request.data.flags = .ok flags ∧
      ∃ nonces, backend' = { backend with nonces } := by
  obtain ⟨_, _, consuming⟩ := of_readOnly_bind_eq_ok (readOnly_attempt _) checked
  obtain ⟨_, consumed, ran, filling⟩ := of_bind_eq_ok consuming
  obtain ⟨_, resolving⟩ := of_ensure_bind_eq_ok filling
  obtain ⟨_, resolved, restricting⟩ := of_readOnly_bind_eq_ok (readOnly_attempt _) resolving
  obtain ⟨_, ⟨⟩⟩ := of_ensure_bind_eq_ok restricting
  exact ⟨mapError_eq_ok.mp (congrArg Prod.fst resolved), consumeNonce_ok ran⟩

theorem retainRoles_readOnly (roles : List String) : ReadOnly (request.retainRoles roles) := by
  rw [retainRoles]
  split
  · split
    · refine ReadOnly.bind (fun _ => rfl) fun fetched => ?_
      cases fetched with
      | ok server => exact readOnly_pure _
      | error e => exact readOnly_fail _
    · exact readOnly_pure _
  · exact readOnly_pure _

theorem authoriseMassMention_readOnly (results : MessageResults) :
    ReadOnly (request.authoriseMassMention results) := by
  rw [authoriseMassMention]
  split
  · refine (readOnly_ofRoute (Route.channelPermissions_readOnly _ _ _)).bind fun _ => ?_
    exact (readOnly_onlyIf (readOnly_attempt _)).bind fun _ => readOnly_onlyIf (readOnly_attempt _)
  · exact readOnly_fail _
  · exact readOnly_pure _

theorem massMentions_readOnly (results : MessageResults) :
    ReadOnly (request.massMentions results) := by
  refine (retainRoles_readOnly _).bind fun roleMentions => ?_
  dsimp only
  split
  · split
    · exact (authoriseMassMention_readOnly _).bind fun _ => readOnly_pure _
    · exact readOnly_pure _
  · exact readOnly_pure _

/-- Mass mentions pass as they are, up to roles that the server does not
have. -/
theorem massMentions_ok {results results' : MessageResults}
    (passed : request.massMentions results backend = (.ok results', backend')) :
    backend' = backend ∧ (request.config.massMentionsEnabled →
      ∃ roleMentions, results' = { results with roleMentions } ∧
        (request.channel.server = none → roleMentions = results.roleMentions)) := by
  refine ⟨(massMentions_readOnly _).of_ran passed, ?_⟩
  intro enabled
  obtain ⟨roleMentions, retained, rest⟩ := of_readOnly_bind_eq_ok (retainRoles_readOnly _) passed
  refine ⟨roleMentions, ?_, ?_⟩
  · rw [enabled] at rest
    dsimp only at rest
    split at rest
    · obtain ⟨_, _, ⟨⟩⟩ := of_readOnly_bind_eq_ok (authoriseMassMention_readOnly _) rest
      rfl
    · cases rest
      rfl
  · intro outside
    rw [retainRoles, outside] at retained
    cases retained
    rfl

end MessageRequest

/-- The replies that mention the author of a stored message. -/
def ReplyIntent.mentions (store : MessageStore) (intent : ReplyIntent) : Bool :=
  intent.mention && (store.messages.find intent.id).isSome

/-- The loop adds an author for each reply that mentions one. -/
theorem resolveReplies_ok {intents : List ReplyIntent} {users replies users' replies' : List String}
    (resolved : resolveReplies allowMentions intents users replies backend =
      (.ok (users', replies'), backend')) :
    backend' = backend ∧ (users'.isEmpty =
      (users.isEmpty && !(allowMentions && intents.any (·.mentions backend.toMessageStore)))) := by
  induction intents generalizing users replies with
  | nil =>
    cases resolved
    simp
  | cons intent rest ih =>
    obtain ⟨fetched, looked, more⟩ := of_readOnly_bind_eq_ok (fun _ => rfl) resolved
    have read := congrArg Prod.fst (of_result_eq looked)
    have stored : (backend.messages.find intent.id).isSome = fetched.isOk := by
      have answered : (orNotFound (backend.messages.find intent.id)).mapError .error = fetched :=
        read
      rw [← answered, isOk_mapError]
      cases backend.messages.find intent.id <;> rfl
    rw [List.any_cons, ReplyIntent.mentions, stored]
    cases fetched with
    | ok message =>
      obtain ⟨same, added⟩ := ih more
      refine ⟨same, added.trans ?_⟩
      have inserted : (users.insert message.author).isEmpty = false :=
        List.isEmpty_eq_false_iff.mpr (List.ne_nil_of_mem List.mem_insert_self)
      cases intent.mention <;> cases allowMentions <;> simp [Except.isOk, Except.toBool, inserted]
    | error e =>
      dsimp only at more
      split at more
      · cases more
      · simpa [Except.isOk, Except.toBool] using ih more

namespace MessageRequest

theorem replies_ok {users users' replies' : List String}
    (resolved : request.replies users backend = (.ok (users', replies'), backend')) :
    backend' = backend ∧ (users'.isEmpty = (users.isEmpty && !(request.allowMentions &&
      (request.data.replies.getD []).any (·.mentions backend.toMessageStore)))) := by
  rw [replies] at resolved
  cases given : request.data.replies with
  | some entries =>
    rw [given] at resolved
    exact resolveReplies_ok (of_ensure_bind_eq_ok resolved).2
  | none =>
    rw [given] at resolved
    cases resolved
    simp

end MessageRequest

theorem usersSeeing_readOnly (now : Timestamp) (channel : TextChannel) (users : List String) :
    ReadOnly (usersSeeing now channel users) := by
  refine ReadOnly.bind (fun _ => rfl) fun fetched => ?_
  cases fetched with
  | error e => exact readOnly_fail _
  | ok members =>
    dsimp only
    split
    · exact readOnly_pure _
    · exact .read fun _ => readOnly_pure _

/-- The user is a member of the server of a channel and can view it, as the
calculation for one user has it. -/
def MongoDb.MemberViews (db : MongoDb) (now : Timestamp) (channel : TextChannel)
    (userId : String) : Prop :=
  ∃ member user value, db.fetchMember channel.server userId = .ok member ∧
    db.users.find userId = some user ∧
    db.CalculatesChannel now user (.textChannel channel) value ∧
    value.hasChannelPermission .viewChannel

theorem usersSeeing_ok {now : Timestamp} {channel : TextChannel} {users seeing : List String}
    (ran : usersSeeing now channel users backend = (.ok seeing, backend')) :
    ∀ userId ∈ seeing, backend.db.MemberViews now channel userId := by
  obtain ⟨fetched, looked, rest⟩ := of_readOnly_bind_eq_ok (fun _ => rfl) ran
  cases fetched with
  | error e => cases rest
  | ok members =>
    have read : backend.db.fetchMembers channel.server users = .ok members := by
      cases looked
      rfl
    dsimp only at rest
    split at rest
    · cases rest
      simp
    · obtain ⟨visible, calculated, ⟨⟩⟩ := of_readOnly_bind_eq_ok (readOnly_attempt _) rest
      intro userId listed
      have viewed : visible.lookup userId = some true := by
        have seen := (List.mem_filter.mp listed).2
        cases found : visible.lookup userId <;> simp_all
      replace calculated := congrArg Prod.fst calculated
      dsimp only [attempt] at calculated
      split at calculated
      · cases calculated
      · next server located =>
        have joined := MongoDb.fetchMember_of_mem read
        obtain ⟨seen, final, ran, views⟩ :=
          @membersCanSeeChannel_seen backend.db now server channel
            members fun m listed m' listed' same => by
              have fetched := joined m listed
              rw [same, joined m' listed'] at fetched
              exact (Except.ok.inj fetched).symm
        rw [ran] at calculated
        cases calculated
        obtain ⟨m, mListed, user, rfl, found, viewable⟩ := (views userId).mp viewed
        have stored := orNotFound_eq_ok.mp located
        have known : backend.db.memberOf server user = some m := by
          rw [MongoDb.memberOf, Collection.key_of_find stored, Collection.key_of_find found,
            joined m mListed]
          rfl
        rw [← known] at viewable
        exact ⟨m, user, _, joined m mListed, found,
          ⟨_, MongoDb.channelQuery_run stored PermissionQuery.wipeUnlessViewable⟩, viewable⟩

/-- Where users are mentioned, these channels have no role mentions. -/
def Channel.isConversation : Channel → Bool
  | .directMessage _ => true
  | .group _ => true
  | _ => false

/-- Who may be mentioned in a channel. -/
def Channel.Addresses (db : MongoDb) (now : Timestamp) (userId : String) : Channel → Prop
  | .directMessage channel => userId ∈ channel.recipients
  | .group channel => userId ∈ channel.recipients
  | .textChannel channel => db.MemberViews now channel userId
  | .savedMessages _ => False

theorem MessageRequest.validateMentions_ok {users roles users' roles' : List String}
    (validated : request.validateMentions users roles backend = (.ok (users', roles'), backend')) :
    backend' = backend ∧
      (roles' = if !users.isEmpty && request.channel.isConversation then [] else roles) ∧
      ∀ userId ∈ users', request.channel.Addresses backend.db request.now userId := by
  rw [validateMentions] at validated
  split at validated
  next none =>
    cases validated
    simp [List.isEmpty_iff.mp none]
  next some =>
    rw [Bool.not_eq_true] at some
    rw [some]
    cases kind : request.channel with
    | textChannel channel =>
      rw [kind] at validated
      obtain ⟨seeing, ran, ⟨⟩⟩ := of_readOnly_bind_eq_ok (usersSeeing_readOnly _ _ _) validated
      exact ⟨rfl, rfl, usersSeeing_ok ran⟩
    | savedMessages =>
      rw [kind] at validated
      cases validated
      exact ⟨rfl, rfl, by rintro _ ⟨⟩⟩
    | directMessage | group =>
      rw [kind] at validated
      cases validated
      refine ⟨rfl, rfl, ?_⟩
      intro userId kept
      exact List.contains_iff_mem.mp (List.mem_filter.mp kept).2

variable {message : SentMessage}

section Files

variable {queue : List AckData} {parent uploaderId : String}

abbrev KeepsQueue {α : Type} (queue : List AckData) (x : SendTask α) : Prop :=
  Keeps (fun backend => backend.queue = queue) x

theorem useMessageAttachment_keepsQueue (id : String) :
    KeepsQueue queue (useMessageAttachment parent uploaderId id) := by
  intro backend same
  rw [useMessageAttachment]
  split <;> exact same

theorem useAttachments_keepsQueue (ids : List String) :
    KeepsQueue queue (useAttachments parent uploaderId ids) := by
  induction ids with
  | nil => exact keeps_pure _
  | cons id ids ih =>
    exact (useMessageAttachment_keepsQueue id).bind fun _ =>
      ih.bind fun _ => keeps_pure _

theorem SentMessage.useMedia_keepsQueue (message : SentMessage) (media : Option String) :
    KeepsQueue queue (message.useMedia media) := by
  cases media with
  | none => exact keeps_pure _
  | some id => exact (useMessageAttachment_keepsQueue id).bind fun _ => keeps_pure _

def SentMessage.Refiles (message' message : SentMessage) : Prop :=
  ∃ attachments embeds, message' = { message with attachments, embeds }

variable {message' : SentMessage}

theorem SentMessage.attachSendableEmbed_ok {embed : SendableEmbed}
    (attached : message.attachSendableEmbed embed backend = (.ok message', backend')) :
    message'.Refiles message ∧ backend'.queue = backend.queue := by
  obtain ⟨media, claimed, used, ⟨⟩⟩ := of_bind_eq_ok attached
  refine ⟨⟨message.attachments, _, rfl⟩, ?_⟩
  exact (message.useMedia_keepsQueue embed.media).of_ran
    (P := fun backend' => backend'.queue = backend.queue) rfl used

theorem SentMessage.attachEmbeds_ok {embeds : List SendableEmbed}
    (attached : message.attachEmbeds embeds backend = (.ok message', backend')) :
    message'.Refiles message ∧ backend'.queue = backend.queue := by
  induction embeds generalizing message backend with
  | nil =>
    cases attached
    exact ⟨⟨message'.attachments, message'.embeds, rfl⟩, rfl⟩
  | cons embed embeds ih =>
    obtain ⟨middle, between, first, rest⟩ := of_bind_eq_ok attached
    obtain ⟨⟨_, _, rfl⟩, same⟩ := attachSendableEmbed_ok first
    obtain ⟨⟨attachments, embeds, rfl⟩, same'⟩ := ih rest
    exact ⟨⟨attachments, embeds, rfl⟩, same'.trans same⟩

theorem MessageRequest.attachFiles_ok
    (attached : request.attachFiles message backend = (.ok message', backend')) :
    message'.Refiles message ∧ backend'.queue = backend.queue := by
  obtain ⟨_, counted⟩ := of_ensure_bind_eq_ok attached
  obtain ⟨_, claiming⟩ := of_ensure_bind_eq_ok counted
  obtain ⟨files, between, claimed, rest⟩ := of_bind_eq_ok claiming
  obtain ⟨⟨attachments, embeds, rfl⟩, same⟩ := SentMessage.attachEmbeds_ok rest
  refine ⟨⟨attachments, embeds, rfl⟩, same.trans ?_⟩
  exact (useAttachments_keepsQueue _).of_ran
    (P := fun backend' => backend'.queue = backend.queue) rfl claimed

end Files

@[simp] theorem nonempty_isSome (xs : List String) : (nonempty xs).isSome = !xs.isEmpty := by
  cases xs <;> rfl

@[simp] theorem nonempty_getD (xs : List String) : (nonempty xs).getD [] = xs := by
  cases xs <;> rfl

section Flags

variable {suppress everyone online : Bool}

variable (flagged : message.flags = some (finalFlags suppress everyone online))

include flagged

/-- No message has its notifications suppressed, as the bit that is looked up is
not one of a flag. -/
theorem SentMessage.not_suppressed_of_flags : message.hasSuppressedNotifications = false := by
  rw [hasSuppressedNotifications, flagged]
  cases suppress <;> cases everyone <;> cases online <;> decide

theorem SentMessage.containsMassPushMention_of_flags :
    message.containsMassPushMention = (everyone || message.roleMentions.isSome) := by
  have bit : has (finalFlags suppress everyone online) .mentionsEveryone =
      everyone := by
    cases suppress <;> cases everyone <;> cases online <;> decide
  rw [containsMassPushMention, flagged, Option.any_some, bit]

end Flags

theorem SentMessage.send_ok {channel : Channel}
    (sent : message.send channel backend = (.ok (), backend')) :
    backend'.queue = backend.queue ++
      if !message.hasSuppressedNotifications &&
          (message.mentions.isSome || message.containsMassPushMention) &&
          decide (backend.queue.length < 10000) then
        [{ channel := message.channel, user := none,
           event := .processMessage [message.queued channel] }]
      else [] := by
  obtain ⟨_, stored, storing, queueing⟩ := of_bind_eq_ok sent
  have same : stored.queue = backend.queue := by
    have kept : KeepsQueue backend.queue
        (message.sendWithoutNotifications channel.isDirect) := by
      apply Keeps.onlyIf
      apply keeps_write
      intro before after queued wrote
      split at wrote
      · cases wrote
        exact queued
      · cases wrote
    exact kept.of_ran (P := fun backend' => backend'.queue = backend.queue) rfl storing
  rw [← same]
  cases pushes : !message.hasSuppressedNotifications &&
      (message.mentions.isSome || message.containsMassPushMention) with
  | false =>
    rw [pushes] at queueing
    cases queueing
    simp
  | true =>
    rw [pushes] at queueing
    cases queueing
    by_cases room : stored.queue.length < 10000 <;> simp [room]

namespace MessageRequest

variable (request : MessageRequest)

/-- The text or the flags mention everyone. -/
def mentionsEveryone : Bool :=
  (request.data.content.any fun content => (parseMessage content).mentionsEveryone) ||
    (request.allowMentions && request.data.flags.any fun flags => has flags .mentionsEveryone)

def mentionsRoles : Bool :=
  request.data.content.any fun content => !(parseMessage content).roleMentions.isEmpty

/-- The text mentions a user, or a reply to a stored message does. -/
def mentionsUsers (store : MessageStore) : Bool :=
  (request.data.content.any fun content => !(parseMessage content).userMentions.isEmpty) ||
    (request.allowMentions && (request.data.replies.getD []).any (·.mentions store))

/-- The mention of everyone or of roles that is left outside of servers. -/
def pushesMassMention (store : MessageStore) : Bool :=
  request.mentionsEveryone ||
    (request.mentionsRoles && !(request.channel.isConversation && request.mentionsUsers store))

theorem parsed_mentionsEveryone
    (resolved : resolveFlags request.allowMentions request.user request.data.flags = .ok flags) :
    (request.parsed flags).mentionsEveryone = request.mentionsEveryone := by
  rw [mentionsEveryone, ← resolveFlags_mentionsEveryone resolved, parsed]
  cases request.data.content <;> rfl

theorem parsed_roleMentions (flags : RequestedFlags) :
    (request.parsed flags).roleMentions.isEmpty = !request.mentionsRoles := by
  rw [mentionsRoles, parsed]
  cases request.data.content <;> simp

theorem parsed_userMentions (flags : RequestedFlags) :
    (request.parsed flags).userMentions.isEmpty =
      !(request.data.content.any fun content => !(parseMessage content).userMentions.isEmpty) := by
  rw [parsed]
  cases request.data.content <;> simp

end MessageRequest

section Accepted

/-- A message that is ready to be sent has the flags that are defined, and
nothing is queued yet. Outside of servers, the request tells whether it has a
mass mention. -/
theorem MessageRequest.prepare_ok (prepared : request.prepare backend = (.ok message, backend')) :
    message.channel = request.channel.id ∧ backend'.queue = backend.queue ∧
      (∃ suppress everyone online, message.flags = some (finalFlags suppress everyone online)) ∧
      (∀ userId ∈ message.mentions.getD [],
        request.channel.Addresses backend.db request.now userId) ∧
      (request.config.massMentionsEnabled → request.channel.server = none →
        message.containsMassPushMention = request.pushesMassMention backend.toMessageStore) := by
  obtain ⟨⟨flags, key⟩, _, checked, mentioning⟩ := of_bind_eq_ok prepared
  obtain ⟨resolved, nonces, rfl⟩ := check_ok checked
  obtain ⟨results, _, mentioned, replying⟩ := of_bind_eq_ok mentioning
  obtain ⟨rfl, passed⟩ := massMentions_ok mentioned
  obtain ⟨⟨users, replies⟩, _, replied, validating⟩ := of_bind_eq_ok replying
  obtain ⟨rfl, addressed⟩ := replies_ok replied
  obtain ⟨⟨users', roles⟩, _, validated, attaching⟩ := of_bind_eq_ok validating
  obtain ⟨rfl, cleared, reached⟩ := validateMentions_ok validated
  obtain ⟨filed, claimed, attached, ended⟩ := of_bind_eq_ok attaching
  obtain ⟨⟨attachments, embeds, rfl⟩, same⟩ := attachFiles_ok attached
  cases ended
  refine ⟨rfl, same, ⟨_, _, _, rfl⟩, (nonempty_getD users').symm ▸ reached, ?_⟩
  intro enabled noServer
  obtain ⟨roleMentions, rfl, outside⟩ := passed enabled
  refine (SentMessage.containsMassPushMention_of_flags rfl).trans ?_
  have unaddressed : users.isEmpty = !request.mentionsUsers backend.toMessageStore := by
    rw [addressed, parsed_userMentions, mentionsUsers, Bool.not_or]
  have left : (nonempty roles).isSome = (request.mentionsRoles &&
      !(request.channel.isConversation && request.mentionsUsers backend.toMessageStore)) := by
    rw [nonempty_isSome, cleared, outside noServer, unaddressed, apply_ite List.isEmpty,
      parsed_roleMentions]
    cases request.mentionsRoles <;> cases request.channel.isConversation <;>
      cases request.mentionsUsers backend.toMessageStore <;> rfl
  rw [pushesMassMention, ← left, ← parsed_mentionsEveryone request resolved]
  rfl

theorem createFromApi_queue (accepted : createFromApi request backend = (.ok message, backend')) :
    backend'.queue = backend.queue ++
      if (message.mentions.isSome || message.containsMassPushMention) &&
          decide (backend.queue.length < 10000) then
        [{ channel := request.channel.id, user := none,
           event := .processMessage [message.queued request.channel] }]
      else [] := by
  obtain ⟨prepared, between, ran, sending⟩ := of_bind_eq_ok accepted
  obtain ⟨addressed, same, ⟨_, _, _, flagged⟩, _⟩ := MessageRequest.prepare_ok ran
  obtain ⟨_, _, sent, ⟨⟩⟩ := of_bind_eq_ok sending
  have queued := SentMessage.send_ok sent
  rw [same, SentMessage.not_suppressed_of_flags flagged, addressed, Bool.not_false,
    Bool.true_and] at queued
  exact queued

theorem createFromApi_ok (enabled : request.config.massMentionsEnabled)
    (accepted : createFromApi request backend = (.ok message, backend')) :
    message.channel = request.channel.id ∧
      (request.channel.server = none →
        message.containsMassPushMention = request.pushesMassMention backend.toMessageStore) := by
  obtain ⟨prepared, between, ran, sending⟩ := of_bind_eq_ok accepted
  obtain ⟨_, _, _, ⟨⟩⟩ := of_bind_eq_ok sending
  obtain ⟨addressed, _, _, _, massive⟩ := MessageRequest.prepare_ok ran
  exact ⟨addressed, massive enabled⟩

/-- Whatever the text and the replies of an accepted request mention, the users
that its message mentions are recipients, or members of the server who can view
the channel. -/
theorem stored_mentions_addressed (request : MessageRequest) (backend : MessageBackend) :
    Outcome (createFromApi request) backend fun r _ => ∀ message, r = .ok message →
      ∀ userId ∈ message.mentions.getD [],
        request.channel.Addresses backend.db request.now userId := by
  refine .intro ?_
  rintro _ _ accepted message rfl
  obtain ⟨prepared, between, ran, sending⟩ := of_bind_eq_ok accepted
  obtain ⟨_, _, _, ⟨⟩⟩ := of_bind_eq_ok sending
  exact (MessageRequest.prepare_ok ran).2.2.2.1

end Accepted

end Company
