import CompanyBackend.Bonfire.Recalculation
import CompanyBackend.Bonfire.Ready

/-!
# What the start of a connection leaves behind

A start that succeeds leaves a cache that is made of nothing but the answers of the
database, and subscriptions to nothing but the documents in it. Everything that later
modules say about the first state of a connection is read off these answers.
-/

namespace Company

open Request Outcome List HashMap

section Answers

variable {db : ReadyDatabase} {user : User} {now : Timestamp} {fields : ReadyPayloadFields}
variable {state : State}

variable {channels : List Channel}

theorem Cache.of_filterAccessibleChannels {db : Database} {cache : Cache} {kept : List Channel}
    (filtered : cache.filterAccessibleChannels db now channels = .ok kept) :
    ∀ channel ∈ kept, channel ∈ channels ∧ cache.canViewChannel db now channel = .ok true := by
  induction channels generalizing kept with
  | nil =>
    cases filtered
    rintro _ ⟨⟩
  | cons first channels ih =>
    obtain ⟨verdict, viewable, filtered⟩ := bind_eq_ok.mp filtered
    obtain ⟨kept', rest, ⟨⟩⟩ := bind_eq_ok.mp filtered
    intro channel listed
    have later : channel ∈ kept' → channel ∈ first :: channels ∧
        cache.canViewChannel db now channel = .ok true := by
      intro listed
      obtain ⟨member, granted⟩ := ih rest channel listed
      exact ⟨mem_cons_of_mem _ member, granted⟩
    cases verdict with
    | false => exact later listed
    | true =>
      rcases mem_cons.mp listed with rfl | listed
      · exact ⟨mem_cons_self, viewable⟩
      · exact later listed
variable {servers : HashMap String (List String)} {serverId participant : String}

theorem ReadyDatabase.mem_addParticipants {state : Channel × ChannelVoiceState}
    (listed : participant ∈ ((addParticipants servers state).lookup serverId).getD []) :
    participant ∈ (servers.lookup serverId).getD [] ∨
      state.1.server.isSome ∧ participant ∈ state.2.participants := by
  rw [addParticipants] at listed
  cases located : state.1.server with
  | none =>
    rw [located] at listed
    exact .inl listed
  | some server =>
    rw [located] at listed
    by_cases same : serverId = server
    · subst same
      rw [lookup_put, Option.getD_some, mem_append] at listed
      exact listed.imp_right fun takesPart => ⟨rfl, takesPart⟩
    · rw [lookup_put_ne _ same] at listed
      exact .inl listed

variable {states : List (Channel × ChannelVoiceState)}

theorem ReadyDatabase.mem_foldl_addParticipants
    (listed : participant ∈ ((states.foldl addParticipants servers).lookup serverId).getD []) :
    participant ∈ (servers.lookup serverId).getD [] ∨
      ∃ state ∈ states, state.1.server.isSome ∧ participant ∈ state.2.participants := by
  induction states generalizing servers with
  | nil => exact .inl listed
  | cons state states ih =>
    rcases ih listed with earlier | ⟨later, among, calls⟩
    · refine (mem_addParticipants earlier).imp_right fun calls => ?_
      exact ⟨state, mem_cons_self, calls⟩
    · exact .inr ⟨later, mem_cons_of_mem _ among, calls⟩

/-- Every participant listed for a server takes part in a call of a server
channel. -/
theorem ReadyDatabase.mem_serverParticipants {participants : List String}
    (listed : (serverParticipants states).lookup serverId = some participants)
    (member : participant ∈ participants) :
    ∃ state ∈ states, state.1.server.isSome ∧ participant ∈ state.2.participants := by
  have among : participant ∈ ((states.foldl addParticipants ∅).lookup serverId).getD [] := by
    rw [← serverParticipants, listed]
    exact member
  exact (mem_foldl_addParticipants among).resolve_left (by rintro ⟨⟩)
theorem ReadyDatabase.mem_voiceStates
    {state : Channel × ChannelVoiceState} (listed : state ∈ db.voiceStates channels) :
    state.1 ∈ channels ∧ db.getChannelVoiceState state.1 = .ok (some state.2) := by
  rw [voiceStates, mem_filterMap] at listed
  obtain ⟨channel, kept, found⟩ := listed
  split at found
  · next answered =>
    cases found
    exact ⟨mem_of_mem_filter kept, answered⟩
  · cases found

/-- A member that is read for the calls was asked for as a participant of one of
them. -/
theorem ReadyDatabase.of_voiceMembers
    {members : List Member} (read : db.voiceMembers states = .ok members) :
    ∀ member ∈ members, ∃ serverId ids answer, db.fetchMembers serverId ids = .ok answer ∧
      member ∈ answer ∧
      ∀ id ∈ ids, ∃ state ∈ states, state.1.server.isSome ∧ id ∈ state.2.participants := by
  intro member listed
  obtain ⟨answers, fetched, ⟨⟩⟩ := bind_eq_ok.mp read
  obtain ⟨answer, among, inside⟩ := mem_flatten.mp listed
  obtain ⟨e, entry, answered⟩ := of_mapM_eq_ok fetched answer among
  refine ⟨_, _, answer, answered, inside, ?_⟩
  intro id asked
  exact mem_serverParticipants (mem_entries_iff.mp entry) (mem_dedup.mp asked)

structure Loaded where
  memberships : List Member
  servers : List Server
  directMessages : List Channel
  serverChannels : List Channel
  channels : List Channel
  voiceMembers : List Member
  users : List User

namespace Loaded

def filterCache (user : User) (loaded : Loaded) : Cache where
  userId := user.id
  isBot := user.bot.isSome
  users := ofPairs [(user.id, user)]
  servers := putBy Server.id loaded.servers ∅

def cache (user : User) (loaded : Loaded) : Cache where
  userId := user.id
  isBot := user.bot.isSome
  users := (putBy User.id loaded.users ∅).put user.id user
  channels := putBy Channel.id loaded.channels ∅
  members := putBy (fun member => member.id.server) (loaded.memberships ++ loaded.voiceMembers) ∅
  servers := putBy Server.id loaded.servers ∅

structure Answers (db : ReadyDatabase) (now : Timestamp) (fields : ReadyPayloadFields)
    (user : User) (loaded : Loaded) : Prop where
  memberships : db.fetchAllMemberships user.id = .ok loaded.memberships
  servers : db.fetchServers (loaded.memberships.map fun member => member.id.server) =
    .ok loaded.servers
  directMessages : db.findDirectMessages user.id = .ok loaded.directMessages
  serverChannels : db.fetchChannels (loaded.servers.flatMap Server.channels) =
    .ok loaded.serverChannels
  channels : (loaded.filterCache user).filterAccessibleChannels db.toDatabase now
    (loaded.directMessages ++ loaded.serverChannels) = .ok loaded.channels
  voiceMembers : db.voiceMembers (if fields.voiceStates then db.voiceStates loaded.channels
    else []) = .ok loaded.voiceMembers
  users : ∃ ids, db.fetchUsers ids = .ok loaded.users

inductive Topic (user : User) (loaded : Loaded) : String → Prop
  | privately : Topic user loaded (privateTopic user.id)
  | own : Topic user loaded user.id
  | user {other : User} (known : other ∈ loaded.users) : Topic user loaded other.id
  | server {server : Server} (joined : server ∈ loaded.servers) : Topic user loaded server.id
  | updates {server : Server} (joined : server ∈ loaded.servers) :
      Topic user loaded (updateTopic server.id)
  | channel {channel : Channel} (shown : channel ∈ loaded.channels) : Topic user loaded channel.id

end Loaded

/-- The cache and the topics during the subscription of what was loaded. -/
structure State.Within (cache : Cache) (allowed : String → Prop) (state : State) : Prop where
  cache : state.cache = cache
  accounted : state.Accounted
  allowed : ∀ topic ∈ state.subscribed, allowed topic

variable {allowed : String → Prop} {cache : Cache}

theorem insertSubscription_within {topic : String}
    (within : state.Within cache allowed) (fits : allowed topic) :
    Outcome (insertSubscription topic) state
      (Succeeds fun _ state' => state'.Within cache allowed) := by
  apply (insertSubscription_outcome topic state).succeeds_mono
  intro _ state' changed
  refine ⟨changed.cache.trans within.cache, changed.accounted within.accounted, ?_⟩
  intro other present
  rw [changed.subscribed, Finset.mem_insert] at present
  rcases present with rfl | old
  · exact fits
  · exact within.allowed other old

theorem insertSubscriptions_within {topics : List String}
    (within : state.Within cache allowed) (fit : ∀ topic ∈ topics, allowed topic) :
    Outcome (forEach insertSubscription topics) state
      (Succeeds fun _ state' => state'.Within cache allowed) := by
  refine forEach_keeps ?_ within
  intro topic state₁ listed within₁
  exact insertSubscription_within within₁ (fit topic listed)

/-- Of the tracked topics, only those of the loaded channels are subscribed. -/
theorem subscribeLoaded_within {users : List User} {servers : List Server} (allowed : String → Prop)
    (own : allowed user.id ∧ allowed state.privateTopic) (ofUsers : ∀ user ∈ users, allowed user.id)
    (ofServers : ∀ server ∈ servers, allowed server.id ∧ allowed (updateTopic server.id))
    (ofChannels : ∀ channel ∈ channels, allowed channel.id) :
    Outcome (subscribeLoaded user users servers channels) state
      (Succeeds fun _ state' => state'.Within state.cache allowed) := by
  have reset : State.Within state.cache allowed { state with state := .reset, subscribed := ∅ } :=
    ⟨rfl, by rintro _ _ ⟨⟩, by rintro _ ⟨⟩⟩
  have subscribeServers : ∀ state₁ : State, state₁.Within state.cache allowed →
      Outcome (forEach (subscribeServer user.bot.isSome) servers) state₁
        (Succeeds fun _ state' => state'.Within state.cache allowed) := by
    intro state₁ within₁
    refine forEach_keeps ?_ within₁
    intro server state₂ listed within₂
    rw [subscribeServer]
    apply succeeds_bind (insertSubscription_within within₂ (ofServers server listed).1)
    intro _ state₃ within₃
    apply Outcome.onlyIf
    · intro _
      exact insertSubscription_within within₃ (ofServers server listed).2
    · intro _
      exact ⟨(), rfl, within₃⟩
  rw [subscribeLoaded, resetState]
  refine write_bind ?_ (by rintro _ ⟨⟩)
  rintro _ ⟨⟩
  refine attempt_bind ?_ (by rintro _ ⟨⟩)
  rintro _ ⟨⟩
  apply succeeds_bind (insertSubscription_within reset own.2)
  intro _ state₁ within₁
  have ofUserIds : ∀ topic ∈ users.map User.id ++ [user.id], allowed topic := by
    intro topic listed
    rcases mem_append.mp listed with known | self
    · obtain ⟨other, member, rfl⟩ := List.mem_map.mp known
      exact ofUsers other member
    · rw [mem_singleton.mp self]
      exact own.1
  apply succeeds_bind (insertSubscriptions_within within₁ ofUserIds)
  intro _ state₂ within₂
  apply succeeds_bind (subscribeServers state₂ within₂)
  intro _ state₃ within₃
  apply insertSubscriptions_within within₃
  intro topic listed
  obtain ⟨channel, member, rfl⟩ := List.mem_map.mp listed
  exact ofChannels channel member

theorem readExtras_readOnly (servers : List Server) :
    ReadOnly (readExtras db fields user servers) :=
  (readOnly_onlyIf (readOnly_attempt _)).bind fun _ =>
    (readOnly_onlyIf (readOnly_attempt _)).bind fun _ => readOnly_onlyIf (readOnly_attempt _)

/-- A start that succeeds has cached the answers of the database, and is
subscribed to nothing else. -/
theorem generateReadyPayload_loaded (sessionId : String) :
    Outcome (generateReadyPayload db now fields) (State.fromUser user sessionId)
      fun r state' => ∀ payload, r = .ok payload → ∃ loaded : Loaded,
        loaded.Answers db now fields user ∧
          state'.Within (loaded.cache user) (loaded.Topic user) := by
  have failed : ∀ (e : Failure) (state : State) (payload : ReadyPayload),
      (.error e : Except Failure ReadyPayload) = .ok payload → ∃ loaded : Loaded,
        loaded.Answers db now fields user ∧
          state.Within (loaded.cache user) (loaded.Topic user) := by
    rintro _ _ _ ⟨⟩
  have own : (ofPairs [(user.id, user)]).lookup user.id = some user := lookup_put ∅ user.id user
  rw [generateReadyPayload, cloneUser]
  refine readCache_bind (a := user) (by simp [State.fromUser, own]) ?_
  apply modifyCache_bind
  refine readOnly_bind (readOnly_onlyIf (readOnly_attempt _)) (fun _ => ?_) (failed · _)
  refine attempt_mapError_bind (fun memberships joined => ?_) (failed · _)
  refine attempt_mapError_bind (fun servers stored => ?_) (failed · _)
  apply modifyCache_bind
  refine attempt_mapError_bind (fun directMessages messages => ?_) (failed · _)
  refine attempt_mapError_bind (fun serverChannels fetched => ?_) (failed · _)
  refine attempt_mapError_bind (fun channels filtered => ?_) (failed · _)
  refine attempt_mapError_bind (fun voiceMembers called => ?_) (failed · _)
  refine attempt_mapError_bind (fun users known => ?_) (failed · _)
  apply modifyCache_bind
  refine readOnly_bind (readExtras_readOnly servers) (fun _ => ?_) (failed · _)
  apply modifyCache_bind
  let loaded : Loaded :=
    { memberships, servers, directMessages, serverChannels, channels, voiceMembers, users }
  have read : loaded.Answers db now fields user :=
    ⟨joined, stored, messages, fetched, filtered, called, _, known⟩
  refine succeeds_bind (subscribeLoaded_within (loaded.Topic user) ⟨.own, .privately⟩
    (fun _ listed => .user listed) (fun _ listed => ⟨.server listed, .updates listed⟩)
    (fun _ listed => .channel listed)) ?_
  intro _ state' within
  exact fun _ _ => ⟨loaded, read, within⟩

end Answers

end Company
