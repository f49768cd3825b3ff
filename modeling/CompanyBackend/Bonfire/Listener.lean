import CompanyBackend.Bonfire.Handling
import CompanyBackend.Bonfire.Start

/-!
# The visibility of subscribed channels, from the start of a connection

A connection loads its documents, then its listener takes turn after turn: it passes on
the pending subscriptions and handles at most one event. The first state is consistent
when the reads of the database agree with each other, and when no call overwrites the
cached member of the user: the members of all participants of calls are cached under their
server. From there on every turn keeps the subscribed server channels viewable, as long as
the events meet none of the gaps of the handler.
-/

namespace Company

open Request HashMap List

/-- An event as it is handled, with the database and the clock of that
moment. -/
structure Delivery where
  db : EventDatabase
  now : Timestamp
  event : EventV1

/-- What one turn of the listener meets: the reports about active servers, and
an event unless the turn was caused by a signal alone. -/
structure Turn where
  servers : List ActiveServer := []
  delivery : Option Delivery := none

/-- One turn of the listener. -/
def listen (turn : Turn) : Connection Unit := do
  let _ ← applyState turn.servers
  match turn.delivery with
  | some delivery =>
    let _ ← handleIncomingEventV1 delivery.db delivery.now delivery.event
    return ()
  | none => return ()

variable (tracked : String → Prop) (state : State)

/-- Every subscribed server channel is cached and can be viewed by what is
cached. -/
def State.Visible : Prop :=
  ∀ topic ∈ state.subscribed, tracked topic → ∃ text,
    state.cache.channels.lookup topic = some (.textChannel text) ∧
      ∀ now, state.cache.canViewChannel .unreachable now (.textChannel text) = .ok true

/-- The turn brings nothing that the services cannot publish, and meets none of
the gaps. -/
structure Turn.Admissible (turn : Turn) : Prop where
  updates : ∀ id, .valid id ∈ turn.servers → ¬ tracked (updateTopic id)
  lists : ∀ delivery ∈ turn.delivery, delivery.db.ListsCached state.cache
  wellFormed : ∀ delivery ∈ turn.delivery, delivery.event.WellFormed tracked delivery.db
  safe : ∀ delivery ∈ turn.delivery, delivery.event.Safe tracked delivery.db state

/-- What holds between two turns. The first turn starts with a reset pending. -/
structure State.Consistent : Prop where
  settled : state.cache.Settled
  accounted : state.Accounted
  judged : ∀ topic ∈ state.subscribed, tracked topic → state.cache.Judged none topic

section Turns

variable {tracked : String → Prop} {state state' : State} {turn : Turn}

theorem State.Sound.consistent (sound : state.Sound tracked {}) : state.Consistent tracked :=
  ⟨sound.settled, sound.live.accounted, fun topic present follow =>
    sound.judged topic present follow (by rintro ⟨⟩)⟩

variable (consistent : state.Consistent tracked)

include consistent

theorem State.Consistent.visible : state.Visible tracked := by
  intro topic present follow
  obtain ⟨text, cached, user, own, granted⟩ := (consistent.judged topic present follow).views
  refine ⟨text, cached, ?_⟩
  intro now
  rw [Cache.canViewChannel_unreachable own, granted]

theorem State.Consistent.sound (live : state'.Live)
    (follows : state.FollowsServers tracked state') : state'.Sound tracked {} := by
  refine ⟨?_, live, ?_, by rintro _ ⟨⟩, .inl rfl⟩
  · rw [follows.cache]
    exact consistent.settled
  · intro topic present follow _
    rw [follows.cache]
    exact consistent.judged topic (follows.old topic present follow) follow

omit consistent in
/-- An event that is safe before the pending changes are collected is safe
afterwards. -/
theorem EventV1.Safe.follows {db : EventDatabase} {event : EventV1}
    (safe : event.Safe tracked db state) (follows : state.FollowsServers tracked state') :
    event.Safe tracked db state' := by
  have lists : ∀ id, state.ListsSubscribed tracked id → state'.ListsSubscribed tracked id := by
    intro id listed topic present follow
    rw [follows.cache]
    exact listed topic (follows.old topic present follow) follow
  cases event with
  | serverDelete id => exact lists id safe
  | serverMemberLeave id user =>
    intro same
    rw [follows.cache] at same
    exact lists id (safe same)
  | channelCreate _ | channelUpdate _ _ _ | userRelationship _ _ =>
    simpa only [Safe, follows.cache] using safe
  | _ => exact safe

theorem listen_consistent (admissible : turn.Admissible tracked state)
    (ran : listen turn state = (.ok (), state')) : state'.Consistent tracked := by
  have outcome : Outcome (listen turn) state fun r state' =>
      r = .ok () → state'.Consistent tracked := by
    rw [listen]
    apply Outcome.bind (applyState_outcome consistent.accounted admissible.updates)
    · intro pending state₁ reached
      obtain ⟨live, follows⟩ := reached pending rfl
      have sound := consistent.sound live follows
      cases delivered : turn.delivery with
      | none => exact fun _ => sound.consistent
      | some delivery =>
        have lists := admissible.lists delivery delivered
        rw [← follows.cache] at lists
        apply Outcome.succeeds_bind (handleIncomingEventV1_sound sound lists
          (admissible.wellFormed delivery delivered)
          ((admissible.safe delivery delivered).follows follows))
        intro _ state₂ sound₂
        exact fun _ => sound₂.consistent
    · rintro e state₁ _ ⟨⟩
  exact outcome.elim ran rfl

end Turns

/-- The reads at the start agree with each other and with the ids of the
system. -/
structure ReadyDatabase.Consistent (db : ReadyDatabase) (user : User) : Prop where
  own : ¬ tracked user.id ∧ ¬ tracked (privateTopic user.id)
  users : ∀ ids users, db.fetchUsers ids = .ok users → ∀ user ∈ users, ¬ tracked user.id
  memberships : ∀ members, db.fetchAllMemberships user.id = .ok members → ∀ member ∈ members,
    db.fetchMember member.id.server user.id = .ok member
  servers : ∀ ids servers, db.fetchServers ids = .ok servers → ∀ server ∈ servers,
    server.id ∈ ids ∧ ¬ tracked server.id ∧ ¬ tracked (updateTopic server.id)
  directMessages : ∀ channels, db.findDirectMessages user.id = .ok channels →
    ∀ channel ∈ channels, ¬ tracked channel.id
  channels : ∀ ids servers channels, db.fetchServers ids = .ok servers →
    db.fetchChannels (servers.flatMap Server.channels) = .ok channels →
      ∀ channel ∈ channels, ∃ server ∈ servers, channel.server = some server.id
  members : ∀ serverId ids members, db.fetchMembers serverId ids = .ok members →
    ∀ member ∈ members, member.id.user ∈ ids ∧
      db.fetchMember member.id.server member.id.user = .ok member

/-- Nobody else takes part in a call of a server channel, or calls are not asked
for. -/
def ReadyDatabase.NoForeignCalls (db : ReadyDatabase) (fields : ReadyPayloadFields) (user : User) :
    Prop :=
  fields.voiceStates = true → ∀ channel state, db.getChannelVoiceState channel = .ok (some state) →
    channel.server.isSome → ∀ participant ∈ state.participants, participant = user.id

variable {tracked : String → Prop} {state : State}

section Start

variable {db : ReadyDatabase} {user : User} {now : Timestamp}
variable {fields : ReadyPayloadFields}

/-- The members of a call are the user itself, as the database knows it. -/
theorem ReadyDatabase.Consistent.voiceMembers (consistent : db.Consistent tracked user)
    (quiet : db.NoForeignCalls fields user) {channels : List Channel} {members : List Member}
    (read : db.voiceMembers (if fields.voiceStates then db.voiceStates channels else []) =
      .ok members) :
    ∀ member ∈ members, db.fetchMember member.id.server user.id = .ok member := by
  intro member listed
  obtain ⟨_, _, answer, answered, inside, calls⟩ := of_voiceMembers read member listed
  obtain ⟨asked, known⟩ := consistent.members _ _ answer answered member inside
  obtain ⟨state, among, located, takesPart⟩ := calls _ asked
  split at among
  · next voice =>
    have self := quiet voice state.1 state.2 (mem_voiceStates among).2 located _ takesPart
    rwa [self] at known
  · cases among

namespace Loaded

/-- The documents are the answers of the database, and the user is the only
participant of calls. -/
structure ReadFrom (db : ReadyDatabase) (now : Timestamp) (fields : ReadyPayloadFields)
    (user : User) (loaded : Loaded) : Prop extends Answers db now fields user loaded where
  own : ∀ member ∈ loaded.voiceMembers, db.fetchMember member.id.server user.id = .ok member

variable {loaded : Loaded}

section

variable (read : loaded.ReadFrom db now fields user)

include read

section

variable (consistent : db.Consistent tracked user)

include consistent

/-- Every loaded server comes with a member that is the one of the database. -/
theorem ReadFrom.member {server : Server} (listed : server ∈ loaded.servers) :
    ∃ member, (loaded.cache user).members.lookup server.id = some member ∧
      db.fetchMember server.id user.id = .ok member := by
  obtain ⟨membership, joined, same⟩ :=
    List.mem_map.mp (consistent.servers _ _ read.servers server listed).1
  obtain ⟨member, among, key, stored⟩ := lookup_putBy_of_mem
    (fun member : Member => member.id.server) ∅ (mem_append_left loaded.voiceMembers joined)
  rw [← same]
  refine ⟨member, stored, ?_⟩
  rw [← key]
  rcases mem_append.mp among with own | called
  · exact consistent.memberships _ read.memberships member own
  · exact read.own member called

theorem ReadFrom.settled : (loaded.cache user).Settled := by
  refine ⟨?_, ?_, ?_⟩
  · rw [cache, lookup_put]
    rfl
  · intro id server stored
    exact (of_lookup_putBy_empty stored).2
  · intro id stored
    obtain ⟨server, stored⟩ := Option.isSome_iff_exists.mp stored
    obtain ⟨listed, rfl⟩ := of_lookup_putBy_empty stored
    obtain ⟨member, joined, _⟩ := read.member consistent listed
    rw [joined]
    rfl

/-- A loaded server channel can be viewed by what is cached: the member that the
filter asked the database for is the member that is cached afterwards. -/
theorem ReadFrom.judged {topic : String} (follow : tracked topic)
    (listed : topic ∈ loaded.channels.map Channel.id) : (loaded.cache user).Judged none topic := by
  obtain ⟨_, present, rfl⟩ := List.mem_map.mp listed
  obtain ⟨channel, kept, same, cached⟩ := lookup_putBy_of_mem Channel.id ∅ present
  rw [← same] at follow cached ⊢
  obtain ⟨among, viewable⟩ := Cache.of_filterAccessibleChannels read.channels channel kept
  have fetched : channel ∈ loaded.serverChannels :=
    (mem_append.mp among).resolve_left fun message =>
      consistent.directMessages _ read.directMessages channel message follow
  obtain ⟨_, known, belongs⟩ :=
    consistent.channels _ _ _ read.servers read.serverChannels channel fetched
  obtain ⟨text, rfl, located⟩ := Channel.eq_textChannel_of_server belongs
  obtain ⟨server, listed, keyed, stored⟩ := lookup_putBy_of_mem Server.id ∅ known
  rw [← located] at keyed stored
  obtain ⟨member, joined, answered⟩ := read.member consistent listed
  have own : (loaded.filterCache user).users.lookup user.id = some user := lookup_put ∅ user.id user
  rw [Cache.canViewChannel_server own stored keyed, answered] at viewable
  rw [keyed] at joined
  refine ⟨text, cached, .inl ⟨user, lookup_put _ _ _, ?_⟩⟩
  rw [Cache.grantsView_some stored, joined]
  exact Except.ok.inj viewable

end

end

end Loaded

theorem generateReadyPayload_consistent (consistent : db.Consistent tracked user)
    (quiet : db.NoForeignCalls fields user) (sessionId : String) :
    Outcome (generateReadyPayload db now fields) (State.fromUser user sessionId)
      fun r state' => ∀ payload, r = .ok payload → state'.Consistent tracked := by
  refine Outcome.intro ?_
  rintro _ state' began payload rfl
  obtain ⟨loaded, answers, within⟩ := (generateReadyPayload_loaded sessionId).elim began payload rfl
  have read : loaded.ReadFrom db now fields user :=
    ⟨answers, consistent.voiceMembers quiet answers.voiceMembers⟩
  -- Of the loaded documents, only the channels have tracked topics.
  have ofChannel : ∀ topic, loaded.Topic user topic → tracked topic →
      topic ∈ loaded.channels.map Channel.id := by
    intro topic listed follow
    cases listed with
    | privately => exact absurd follow consistent.own.2
    | own => exact absurd follow consistent.own.1
    | user known =>
      obtain ⟨ids, fetched⟩ := answers.users
      exact absurd follow (consistent.users _ _ fetched _ known)
    | server joined => exact absurd follow (consistent.servers _ _ answers.servers _ joined).2.1
    | updates joined => exact absurd follow (consistent.servers _ _ answers.servers _ joined).2.2
    | channel shown => exact mem_map_of_mem shown
  refine ⟨?_, within.accounted, ?_⟩
  · rw [within.cache]
    exact read.settled consistent
  · intro topic present follow
    rw [within.cache]
    exact read.judged consistent follow (ofChannel topic (within.allowed topic present) follow)

end Start

/-! ## Runs -/

/-- In a run from the start whose turns meet none of the gaps, every subscribed
server channel can be viewed after each turn. -/
theorem subscribed_channels_visible {tracked : String → Prop} {db : ReadyDatabase} {now : Timestamp}
    {fields : ReadyPayloadFields} {user : User} {sessionId : String} {payload : ReadyPayload}
    {start state : State} {turns done : List Turn} (consistent : db.Consistent tracked user)
    (quiet : db.NoForeignCalls fields user)
    (began : generateReadyPayload db now fields (State.fromUser user sessionId) =
      (.ok payload, start))
    (guarded : Guarded listen (Turn.Admissible tracked) start turns) (reached : done <+: turns)
    (ran : forEach listen done start = (.ok (), state)) : state.Visible tracked := by
  obtain ⟨rest, rfl⟩ := reached
  have first : start.Consistent tracked :=
    (generateReadyPayload_consistent consistent quiet sessionId).elim began payload rfl
  have run := invariant_of_run (fun state turn state' before admissible handled =>
    listen_consistent before admissible handled) first guarded.of_append
  exact (run.elim ran rfl).visible

/-! A server with a hall, which every member may view, and a yard. -/

def hall : TextChannel where
  id := "hall"
  server := "server"
  defaultPermissions := some { a := ChannelPermission.viewChannel.toU64.toInt64, d := 0 }

def yard : TextChannel where
  id := "yard"
  server := "server"

def court (channels : List String) (permissions : Int64) : Server where
  id := "server"
  owner := "owner"
  channels
  defaultPermissions := permissions

def courtMember : Member where
  id := { server := "server", user := "member" }

def IsRoom (topic : String) : Prop := topic = "hall" ∨ topic = "yard"

instance (topic : String) : Decidable (IsRoom topic) :=
  inferInstanceAs (Decidable (topic = "hall" ∨ topic = "yard"))

def courtReads (server : Server) : ReadyDatabase :=
  { Database.unreachable with
    fetchServer := fun _ => .ok server
    fetchMember := fun _ _ => .ok courtMember
    fetchChannel := fun _ => .error .notFound
    fetchChannels := fun ids => .ok ([.textChannel hall, .textChannel yard].filter fun channel =>
      ids.contains channel.id)
    fetchAllMemberships := fun _ => .ok [courtMember]
    fetchServers := fun ids => .ok ([server].filter fun server => ids.contains server.id)
    findDirectMessages := fun _ => .ok []
    getChannelVoiceState := fun _ => .ok none
    fetchMembers := fun _ _ => .ok []
    fetchUsers := fun _ => .ok []
    fetchPolicyChanges := .ok ()
    fetchEmojiByParentIds := fun _ => .ok ()
    fetchUserSettings := fun _ _ => .ok ()
    fetchUnreads := fun _ => .ok () }

theorem courtReads_consistent (channels : List String) (permissions : Int64) :
    (courtReads (court channels permissions)).Consistent IsRoom sampleUser where
  own := by decide
  users := by
    rintro _ _ ⟨⟩ _ ⟨⟩
  memberships := by
    rintro _ ⟨⟩ member listed
    rw [mem_singleton.mp listed]
    rfl
  servers := by
    rintro ids _ ⟨⟩ server listed
    obtain ⟨same, asked⟩ := mem_filter.mp listed
    obtain rfl := mem_singleton.mp same
    have untracked : ¬ IsRoom "server" ∧ ¬ IsRoom (updateTopic "server") := by decide
    exact ⟨by simpa using asked, untracked⟩
  directMessages := by
    rintro _ ⟨⟩ _ ⟨⟩
  channels := by
    rintro ids _ _ ⟨⟩ ⟨⟩ channel listed
    obtain ⟨among, asked⟩ := mem_filter.mp listed
    obtain ⟨server, stored, _⟩ := mem_flatMap.mp (contains_iff_mem.mp asked)
    obtain ⟨same, _⟩ := mem_filter.mp stored
    obtain rfl := mem_singleton.mp same
    refine ⟨_, stored, ?_⟩
    simp only [mem_cons, not_mem_nil, or_false] at among
    rcases among with rfl | rfl <;> rfl
  members := by
    rintro _ _ _ ⟨⟩ _ ⟨⟩

theorem courtReads_lists (server : Server) (listed : List String) :
    (courtReads server).toEventDatabase.Lists "server" listed := by
  intro ids _ channel found
  rw [EventDatabase.found] at found
  split at found
  · cases found
  · obtain ⟨among, _⟩ := mem_filter.mp found
    simp only [mem_cons, not_mem_nil, or_false] at among
    rcases among with rfl | rfl <;> rfl

def courtStart (server : Server) : State :=
  (generateReadyPayload (courtReads server) 0 {} (State.fromUser sampleUser "session")).2

def openCourt : Server := court ["hall", "yard"] ChannelPermission.viewChannel.toU64.toInt64

/-- The court is closed: by default its members no longer view channels. -/
def closing : Turn where
  delivery := some {
    db := (courtReads (court ["hall", "yard"] 0)).toEventDatabase
    now := 1
    event := .serverUpdate "server" { defaultPermissions := some 0 } [] }

def courtClosed : State := (forEach listen [closing] (courtStart openCourt)).2

theorem subscribed_channels_visible_sample :
    courtClosed.Visible IsRoom ∧ "yard" ∈ (courtStart openCourt).subscribed ∧
      "hall" ∈ courtClosed.subscribed ∧ "yard" ∉ courtClosed.subscribed := by
  refine ⟨?_, by decide +kernel, by decide +kernel, by decide +kernel⟩
  obtain ⟨payload, began⟩ : ∃ payload, generateReadyPayload (courtReads openCourt) 0 {}
      (State.fromUser sampleUser "session") = (.ok payload, courtStart openCourt) :=
    exists_of_isOk (by decide +kernel)
  obtain ⟨_, ran⟩ : ∃ a, forEach listen [closing] (courtStart openCourt) = (.ok a, courtClosed) :=
    exists_of_isOk (by decide +kernel)
  have known : ∀ e ∈ (courtStart openCourt).cache.servers.entries, e.1 = "server" := by
    decide +kernel
  have admissible : closing.Admissible IsRoom (courtStart openCourt) := by
    refine ⟨by rintro _ ⟨⟩, ?_, ?_, ?_⟩
    · rintro _ ⟨⟩ id server stored
      obtain rfl : id = "server" := known ⟨id, server⟩ (mem_entries_iff.mpr stored)
      exact courtReads_lists _ _
    · rintro _ ⟨⟩
      exact ⟨by rintro _ ⟨⟩, by rintro _ ⟨⟩⟩
    · rintro _ ⟨⟩
      exact .inl rfl
  have guarded : Guarded listen (Turn.Admissible IsRoom) (courtStart openCourt) [closing] :=
    ⟨admissible, fun _ _ => trivial⟩
  exact subscribed_channels_visible (courtReads_consistent _ _) (by rintro _ _ _ ⟨⟩) began guarded
    (prefix_refl _) ran

def closedCourt : Server := court ["hall"] 0

def creation : Turn where
  delivery := some {
    db := (courtReads closedCourt).toEventDatabase
    now := 1
    event := .channelCreate (.textChannel yard) }

def yardCreated : State := (forEach listen [creation] (courtStart closedCourt)).2

theorem State.not_visible {topic : String}
    (subscribed : topic ∈ state.subscribed) (follow : tracked topic)
    (hidden : (state.cache.channels.lookup topic).all (fun channel =>
      (state.cache.canViewChannel .unreachable 0 channel).toOption != some true)) :
    ¬ state.Visible tracked := by
  intro visible
  obtain ⟨text, cached, views⟩ := visible topic subscribed follow
  rw [cached, Option.all_some, views 0] at hidden
  cases hidden

/-- A member without the right to view channels is subscribed to a new channel,
because nobody asks whether they can view it. -/
theorem unviewable_channel_subscribed :
    (courtReads closedCourt).Consistent IsRoom sampleUser ∧
      (courtReads closedCourt).NoForeignCalls {} sampleUser ∧
      (∃ payload, generateReadyPayload (courtReads closedCourt) 0 {}
        (State.fromUser sampleUser "session") = (.ok payload, courtStart closedCourt)) ∧
      (EventV1.channelCreate (.textChannel yard)).WellFormed IsRoom
        (courtReads closedCourt).toEventDatabase ∧
      forEach listen [creation] (courtStart closedCourt) = (.ok (), yardCreated) ∧
      ¬ yardCreated.Visible IsRoom := by
  obtain ⟨_, ran⟩ : ∃ a, forEach listen [creation] (courtStart closedCourt) =
      (.ok a, yardCreated) := exists_of_isOk (by decide +kernel)
  refine ⟨courtReads_consistent _ _, by rintro _ _ _ ⟨⟩, exists_of_isOk (by decide +kernel), ?_,
    ran, ?_⟩
  · exact ⟨fun _ => rfl, fun _ => .inr rfl⟩
  · apply @State.not_visible IsRoom yardCreated "yard"
    · decide +kernel
    · exact .inr rfl
    · decide +kernel

end Company
