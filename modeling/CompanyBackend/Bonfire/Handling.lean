import CompanyBackend.Bonfire.Visibility

/-!
# What events do to the visibility

Each kind of event keeps the invariant of a connection, up to what it leaves in the queue,
provided that the event is one the services can publish and that it does not go through
one of the gaps of the handler. The gaps are named one by one:

* a created channel is subscribed without a check;
* an updated channel is judged by the database if its server is not cached;
* a server is judged again only if its default permissions change, not for a new owner or
  new roles;
* a server that is left takes along only the channels that its cached document lists;
* a changed relationship may overwrite the cached user of the connection itself.
-/

namespace Company

open Request HashMap Outcome Cache EventV1 Option

variable (tracked : String → Prop) (db : EventDatabase)

/-- The event is consistent with the ids of the system and with the database at
hand. -/
def EventV1.WellFormed : EventV1 → Prop
  | .channelCreate channel => tracked channel.id ↔ channel.server.isSome
  | .channelUpdate id _ _ => ∀ channel, db.fetchChannel id = .ok channel →
      (tracked id ↔ channel.server.isSome)
  | .channelGroupJoin _ user => ¬ tracked user
  | .serverCreate id server channels =>
    server.id = id ∧ ¬ tracked id ∧ ¬ tracked (updateTopic id) ∧
      (∀ channel ∈ channels, channel.server = some id) ∧ db.Lists id server.channels
  | .serverUpdate id data _ =>
    (∀ other ∈ data.id, other = id) ∧ ∀ channels ∈ data.channels, db.Lists id channels
  | .userRelationship id _ => ¬ tracked id
  | _ => True

/-- All subscribed channels of a server are listed in its cached document. -/
def State.ListsSubscribed (state : State) (id : String) : Prop :=
  ∀ topic ∈ state.subscribed, tracked topic → ∀ text,
    state.cache.channels.lookup topic = some (.textChannel text) → text.server = id →
      ∃ server, state.cache.servers.lookup id = some server ∧ topic ∈ server.channels

/-- The user can take the place of the own user without a change of what is
viewable. -/
def Cache.SameStanding (cache : Cache) (user own : User) : Prop :=
  user.privileged = own.privileged ∧ ∀ id server, cache.servers.lookup id = some server →
    user.unrestricted server = own.unrestricted server

/-- The event meets none of the gaps. -/
def EventV1.Safe (state : State) : EventV1 → Prop
  | .channelCreate channel => ∀ text, channel = .textChannel text → state.cache.Views text
  | .channelUpdate id _ _ => ∀ text,
      (state.cache.channels.lookup id).or (db.fetchChannel id).toOption = some (.textChannel text) →
        (state.cache.servers.lookup text.server).isSome
  | .serverUpdate _ data _ => data.defaultPermissions.isSome ∨ data.owner = none ∧ data.roles = none
  | .serverMemberLeave id user => user = state.cache.userId → state.ListsSubscribed tracked id
  | .serverDelete id => state.ListsSubscribed tracked id
  | .userRelationship id user => id = state.cache.userId → ∀ own,
      state.cache.users.lookup id = some own → state.cache.SameStanding user.toUser own
  | _ => True

variable {f : Server → Server} {now : Timestamp}

section Cache

variable {tracked : String → Prop} {db : EventDatabase} {id : String}
variable {state state' : State} {stale : Option String}

variable (sound : state.Sound tracked {})

include sound

/-- The channels and topics change, and every remaining topic is viewable. -/
theorem State.Sound.rechannel {channels : HashMap String Channel} {topics : Finset String}
    (changed : state.Rechannels state' channels topics)
    (views : ∀ topic ∈ topics, tracked topic →
      ∃ text, channels.lookup topic = some (.textChannel text) ∧ state.cache.Views text) :
    state'.Sound tracked {} := by
  refine ⟨?_, changed.live sound.live, ?_, by rintro _ ⟨⟩, .inl rfl⟩
  · rw [changed.cache]
    exact ⟨sound.settled.own, sound.settled.keyed, sound.settled.joined⟩
  · intro topic present follow _
    rw [changed.subscribed] at present
    rw [changed.cache]
    obtain ⟨text, cached, view⟩ := views topic present follow
    exact ⟨text, cached, .inl view⟩

/-- The cache changes, and every viewable topic is judged. -/
theorem State.Sound.recache {cache : Cache} (settled : cache.Settled)
    (judges : ∀ topic text, state.cache.channels.lookup topic = some (.textChannel text) →
      state.cache.Views text → cache.Judged stale topic) :
    State.Sound tracked { server := stale } { state with cache } where
  settled := settled
  live := sound.live.recache cache
  judged topic present follow _ := by
    obtain ⟨text, cached, views⟩ := sound.views present follow
    exact judges topic text cached views
  added := by rintro _ ⟨⟩
  single := .inr ⟨rfl, rfl⟩

/-- Servers or members change, and a channel keeps its verdict unless its server
is to be judged again. -/
theorem State.Sound.reserve {cache : Cache}
    (sameId : cache.userId = state.cache.userId) (sameUsers : cache.users = state.cache.users)
    (sameChannels : cache.channels = state.cache.channels)
    (keyed : ∀ id server, cache.servers.lookup id = some server → server.id = id)
    (joined : ∀ id, (cache.servers.lookup id).isSome → (cache.members.lookup id).isSome)
    (judges : ∀ user text, stale = some text.server ∧ (cache.servers.lookup text.server).isSome ∨
      cache.grantsView user text = state.cache.grantsView user text) :
    State.Sound tracked { server := stale } { state with cache } := by
  have settled : cache.Settled := by
    refine ⟨?_, keyed, joined⟩
    rw [sameId, sameUsers]
    exact sound.settled.own
  refine sound.recache settled ?_
  rintro topic text cached ⟨user, own, granted⟩
  refine ⟨text, by rw [sameChannels, cached], ?_⟩
  rcases judges user text with queued | same
  · exact .inr queued
  · refine .inl ⟨user, ?_, same.trans granted⟩
    rw [sameId, sameUsers, own]

/-- A cached server changes. If that matters to a view, the server is to be
judged again. -/
theorem State.Sound.modifyServer
    (keyed : ∀ server, state.cache.servers.lookup id = some server → (f server).id = id)
    (judges : stale = some id ∨ ∀ server, state.cache.servers.lookup id = some server →
      ∀ user text, viewGranted (f server) text user (state.cache.members.lookup id) =
        viewGranted server text user (state.cache.members.lookup id)) :
    State.Sound tracked { server := stale } { state with
      cache := { state.cache with servers := state.cache.servers.modify id f } } := by
  refine sound.reserve rfl rfl rfl (forall_modify sound.settled.keyed keyed) ?_ ?_
  · intro other stored
    rw [isSome_lookup_modify] at stored
    exact sound.settled.joined other stored
  · intro user text
    by_cases same : text.server = id
    · subst same
      cases stored : state.cache.servers.lookup text.server with
      | none =>
        right
        rw [grantsView_none stored, grantsView_none]
        rw [lookup_modify, stored]
        rfl
      | some server =>
        have edited : (state.cache.servers.modify text.server f).lookup text.server =
            some (f server) := by
          rw [lookup_modify, stored]
          rfl
        refine judges.imp ?_ ?_
        · intro queued
          exact ⟨queued, by rw [edited]; rfl⟩
        · intro kept
          rw [grantsView_some stored, grantsView_some edited]
          exact kept server stored user text
    · exact .inr (grantsView_congr (lookup_modify_ne _ same f) rfl)

/-- A cached member changes. If the roles change, the server is to be judged
again. -/
theorem State.Sound.modifyMember {f : Member → Member}
    (judges : stale = some id ∨ ∀ member, (f member).roles = member.roles) :
    State.Sound tracked { server := stale } { state with
      cache := { state.cache with members := state.cache.members.modify id f } } := by
  refine sound.reserve rfl rfl rfl sound.settled.keyed ?_ ?_
  · intro other stored
    rw [isSome_lookup_modify]
    exact sound.settled.joined other stored
  · intro user text
    cases stored : state.cache.servers.lookup text.server with
    | none =>
      right
      rw [grantsView_none stored]
      exact grantsView_none stored
    | some server =>
      by_cases same : text.server = id
      · refine judges.imp ?_ ?_
        · intro queued
          exact ⟨same ▸ queued, rfl⟩
        · intro kept
          have after : Cache.grantsView
              { state.cache with members := state.cache.members.modify id f } user text =
              viewGranted server text user ((state.cache.members.modify id f).lookup text.server) :=
            grantsView_some stored
          rw [grantsView_some stored, after, same, lookup_modify, viewGranted,
            viewGranted, Option.any_map]
          congr 2
          funext member
          exact grantedByLayers_view_congr rfl (kept member) (.of_eq rfl)
      · exact .inr (grantsView_congr rfl (lookup_modify_ne _ same f))

end Cache

/-! ## Single events -/

/-- What handling an event has to leave behind: the invariant up to the queue,
and a database that lists the channels to be judged again. -/
structure Dispatched (handled : Option (EventV1 × Queue)) (state : State) : Prop where
  sound : state.Sound tracked ((handled.map Prod.snd).getD {})
  lists : db.ListsStale state.cache ((handled.map Prod.snd).getD {}).server

/-- Handling the event succeeds and leaves that behind. -/
abbrev Handles (now : Timestamp) (state : State) (event : EventV1) : Prop :=
  Outcome (dispatchEvent db now event) state (Succeeds (Dispatched tracked db))

section Events

variable {tracked : String → Prop} {db : EventDatabase} {id : String}
variable {state state' : State}

variable (sound : state.Sound tracked {})

include sound

variable {event : EventV1}

theorem State.Sound.dispatched : Dispatched tracked db (some (event, {})) state :=
  ⟨sound, by rintro _ ⟨⟩⟩

omit sound in
theorem dispatched_of_sound {action : Connection Unit}
    (acted : SoundAfter tracked {} action state) :
    Outcome (action >>= fun _ => pure (some (event, {}))) state
      (Succeeds (Dispatched tracked db)) := by
  apply succeeds_bind acted
  intro _ state₁ sound₁
  exact ⟨_, rfl, sound₁.dispatched⟩

open Channel

variable {channel : Channel}

theorem channelCreate_sound (wellFormed : (channelCreate channel).WellFormed tracked db)
    (safe : (channelCreate channel).Safe tracked db state) :
    Handles tracked db now state (.channelCreate channel) := by
  rw [Handles, dispatchEvent]
  apply succeeds_bind (insertSubscription_outcome channel.id state)
  intro _ state₁ inserted
  apply succeeds_bind (modifyChannels_outcome state₁ fun channels =>
    channels.put channel.id channel)
  intro _ state₂ cached
  have changed := inserted.rechannels.trans cached
  rw [inserted.cache, inserted.subscribed] at changed
  refine ⟨_, rfl, (sound.rechannel changed ?_).dispatched⟩
  intro topic present follow
  by_cases same : topic = channel.id
  · subst same
    obtain ⟨serverId, belongs⟩ := isSome_iff_exists.mp (wellFormed.mp follow)
    obtain ⟨text, rfl, _⟩ := eq_textChannel_of_server belongs
    exact ⟨text, lookup_put _ _ _, safe text rfl⟩
  · have old := Finset.mem_of_mem_insert_of_ne present same
    rw [lookup_put_ne _ same]
    exact sound.views old follow

theorem dropChannel_sound (id : String) : SoundAfter tracked {} (dropChannel id) state := by
  refine (dropChannel_outcome sound.live id).succeeds_mono fun _ state₁ dropped =>
    sound.rechannel dropped ?_
  intro topic present follow
  rw [Finset.mem_erase] at present
  rw [AList.lookup_erase_ne present.1]
  exact sound.views present.2 follow

theorem leaveGroup_sound (id user : String) : SoundAfter tracked {} (leaveGroup id user) state := by
  rw [leaveGroup]
  apply askCache_bind
  split
  · exact removeSubscription_sound sound id
  · apply Outcome.onlyIf
    · intro _
      exact removeSubscription_sound sound user
    · intro _
      exact ⟨(), rfl, sound⟩

theorem userUpdate_sound {data : PartialUser} {clear : List FieldsUser} {eventId : Option String} :
    Handles tracked db now state (.userUpdate id data clear eventId) := by
  rw [Handles, dispatchEvent]
  apply askCache_bind
  split
  · exact ⟨_, rfl, sound, by rintro _ ⟨⟩⟩
  · refine ⟨_, rfl, State.Sound.dispatched ?_⟩
    cases eventId with
    | none => exact sound
    | some eventId =>
      refine sound.reserve rfl rfl rfl sound.settled.keyed sound.settled.joined ?_
      intro user text
      exact .inr rfl

theorem message_sound {message : Message} : Handles tracked db now state (.message message) := by
  have related : ∃ related, state.cache.relate message = .ok related := by
    obtain ⟨own, found⟩ := isSome_iff_exists.mp sound.settled.own
    rw [Cache.relate]
    cases message.user with
    | none => exact ⟨_, rfl⟩
    | some author =>
      rw [found]
      exact ⟨_, rfl⟩
  obtain ⟨related, answered⟩ := related
  rw [Handles, dispatchEvent]
  apply readCache_bind answered
  exact ⟨_, rfl, sound.dispatched⟩

omit sound in
/-- The database lists the channels of every cached server. -/
def EventDatabase.ListsCached (db : EventDatabase) (cache : Cache) : Prop :=
  ∀ id server, cache.servers.lookup id = some server → db.Lists id server.channels

variable {cache : Cache}

omit sound in
theorem EventDatabase.ListsCached.modifyServer (lists : db.ListsCached cache)
    (edited : ∀ server, cache.servers.lookup id = some server → db.Lists id (f server).channels)
    (stale : Option String) :
    db.ListsStale { cache with servers := cache.servers.modify id f } stale := by
  intro other _
  exact forall_modify lists edited other

variable {channels : List Channel}

section

variable {server : Server} (wellFormed : (serverCreate id server channels).WellFormed tracked db)

include wellFormed

theorem joinServer_sound :
    Outcome (joinServer now id server channels) state (Succeeds fun _ state' =>
      state'.Sound tracked { server := some id } ∧
        state'.cache.servers.lookup id = some server) := by
  obtain ⟨keyed, untracked, updates, belong, _⟩ := wellFormed
  rw [joinServer]
  apply succeeds_bind (insertSubscription_sound sound fun follow => absurd follow untracked)
  intro _ state₁ sound₁
  apply askCache_bind
  have subscribed : SoundAfter tracked {}
      (onlyIf state₁.cache.isBot (insertSubscription (updateTopic id))) state₁ := by
    apply Outcome.onlyIf
    · intro _
      exact insertSubscription_sound sound₁ fun follow => absurd follow updates
    · intro _
      exact ⟨(), rfl, sound₁⟩
  apply succeeds_bind subscribed
  intro _ state₂ sound₂
  have settled : (state₂.cache.joinServer now id server channels).Settled := by
    refine ⟨sound₂.settled.own, ?_, ?_⟩
    · exact forall_put sound₂.settled.keyed keyed
    · intro other stored
      by_cases same : other = id
      · rw [Cache.joinServer, same, lookup_put]
        rfl
      · rw [Cache.joinServer, lookup_put_ne _ same] at stored ⊢
        exact sound₂.settled.joined other stored
  refine ⟨(), rfl, sound₂.recache settled ?_, lookup_put _ _ _⟩
  rintro topic text cached ⟨user, own, granted⟩
  have stored : (state₂.cache.joinServer now id server channels).servers.lookup id = some server :=
    lookup_put _ _ _
  rcases lookup_putBy Channel.id channels state₂.cache.channels topic
    with ⟨channel, listed, _, replaced⟩ | ⟨_, kept⟩
  · obtain ⟨text', rfl, rfl⟩ := eq_textChannel_of_server (belong channel listed)
    exact ⟨text', replaced, .inr ⟨rfl, by rw [stored]; rfl⟩⟩
  · refine ⟨text, kept.trans cached, ?_⟩
    by_cases same : text.server = id
    · exact .inr ⟨congrArg some same.symm, by rw [same, stored]; rfl⟩
    · refine .inl ⟨user, own, Eq.trans ?_ granted⟩
      exact grantsView_congr (lookup_put_ne _ same _) (lookup_put_ne _ same _)

theorem serverCreate_sound : Handles tracked db now state (.serverCreate id server channels) := by
  rw [Handles, dispatchEvent]
  apply succeeds_bind (joinServer_sound sound wellFormed)
  rintro _ state₁ ⟨sound₁, stored⟩
  refine ⟨_, rfl, sound₁, ?_⟩
  rintro _ ⟨⟩ found cached
  cases stored.symm.trans cached
  exact wellFormed.2.2.2.2

end

theorem serverUpdate_sound {data : PartialServer} {clear : List FieldsServer}
    (lists : db.ListsCached state.cache)
    (wellFormed : (serverUpdate id data clear).WellFormed tracked db)
    (safe : (serverUpdate id data clear).Safe tracked db state) :
    Handles tracked db now state (.serverUpdate id data clear) := by
  refine ⟨_, rfl, sound.modifyServer ?_ ?_, lists.modifyServer ?_ _⟩
  · intro server stored
    obtain ⟨_, _, _, _, _, removed⟩ := Server.foldl_removeField clear server
    rw [removed, Server.applyOptions]
    cases renamed : data.id with
    | none => exact sound.settled.keyed id server stored
    | some other => exact wellFormed.1 other renamed
  · rcases safe with changes | ⟨sameOwner, sameRoles⟩
    · exact .inl (if_pos changes)
    cases default : data.defaultPermissions with
    | some _ => exact .inl rfl
    | none =>
      right
      intro server _ user text
      obtain ⟨_, _, _, _, _, removed⟩ := Server.foldl_removeField clear server
      rw [removed, Server.applyOptions, sameOwner, sameRoles, default]
      exact viewGranted_congr rfl rfl fun _ _ => .of_eq rfl
  · intro server stored
    obtain ⟨_, _, _, _, _, removed⟩ := Server.foldl_removeField clear server
    rw [removed, Server.applyOptions]
    cases relisted : data.channels with
    | none => exact lists id server stored
    | some channels => exact wellFormed.2 channels relisted

omit sound in
theorem Member.foldl_removeField_roles {remove : List FieldsMember} (kept : .roles ∉ remove)
    (member : Member) : (remove.foldl removeField member).roles = member.roles := by
  induction remove generalizing member with
  | nil => rfl
  | cons field remove ih =>
    rw [List.mem_cons, not_or] at kept
    rw [List.foldl_cons, ih kept.2]
    cases field <;> first | rfl | exact absurd rfl kept.1

theorem serverMemberUpdate_sound {key : MemberCompositeKey} {data : PartialMember}
    {clear : List FieldsMember} (lists : db.ListsCached state.cache) :
    Handles tracked db now state (.serverMemberUpdate key data clear) := by
  rw [Handles, dispatchEvent]
  apply askCache_bind
  cases own : key.user == state.cache.userId with
  | false => exact ⟨_, rfl, sound.dispatched⟩
  | true =>
    refine ⟨_, rfl, sound.modifyMember ?_, fun other _ => lists other⟩
    cases changes : data.roles.isSome || clear.contains .roles with
    | true => exact .inl (if_pos rfl)
    | false =>
      right
      intro member
      rw [Bool.or_eq_false_iff, isSome_eq_false_iff, isNone_iff_eq_none] at changes
      rw [Member.applyOptions, changes.1]
      exact Member.foldl_removeField_roles (by simpa using changes.2) member

variable {roleId : String}

theorem serverRoleUpdate_sound {data : PartialRole} {clear : List FieldsRole}
    (lists : db.ListsCached state.cache) :
    Handles tracked db now state (.serverRoleUpdate id roleId data clear) := by
  refine ⟨_, rfl, sound.modifyServer (sound.settled.keyed id) ?_, lists.modifyServer ?_ _⟩
  case refine_2 => exact lists id
  cases changes : (data.rank.isSome || data.permissions.isSome) &&
      state.cache.holdsRole id roleId with
  | true => exact .inl (if_pos changes)
  | false =>
    right
    intro server _ user text
    refine viewGranted_congr rfl rfl fun member known => Server.sameRoles_modify ?_
    -- A held role keeps its rank and its override.
    intro held role
    have holds : state.cache.holdsRole id roleId = true := by
      rw [Cache.holdsRole, Option.mem_def.mp known]
      simpa using held
    rw [holds, Bool.and_true, Bool.or_eq_false_iff, isSome_eq_false_iff,
      isSome_eq_false_iff, isNone_iff_eq_none, isNone_iff_eq_none] at changes
    obtain ⟨colour, removed⟩ := Role.foldl_removeField clear role
    rw [removed, Role.applyOptions, changes.1, changes.2]
    exact ⟨rfl, rfl⟩

theorem serverRoleDelete_sound (lists : db.ListsCached state.cache) :
    Handles tracked db now state (.serverRoleDelete id roleId) := by
  refine ⟨_, rfl, sound.modifyServer (sound.settled.keyed id) ?_, lists.modifyServer ?_ _⟩
  case refine_2 => exact lists id
  cases holds : state.cache.holdsRole id roleId with
  | true => exact .inl (if_pos holds)
  | false =>
    right
    intro server _ user text
    refine viewGranted_congr rfl rfl fun member known => Server.sameRoles_erase ?_
    rw [Cache.holdsRole, Option.mem_def.mp known] at holds
    simpa using holds

omit sound in
/-- The channels that the cached document of a server lists. -/
def Cache.listedBy (cache : Cache) (id : String) : List String :=
  ((cache.servers.lookup id).map Server.channels).getD []

omit sound in
theorem forgetServer_outcome (live : state.Live) (id : String) :
    Outcome (forgetServer id) state (Succeeds fun _ state' =>
      state'.cache = { state.cache with
          servers := state.cache.servers.erase id
          members := state.cache.members.erase id
          channels := state.cache.channels.eraseAll (state.cache.listedBy id) } ∧
        state'.subscribed = state.subscribed.erase id \ (state.cache.listedBy id).toFinset ∧
        state'.Live) := by
  rw [forgetServer]
  apply succeeds_bind (removeSubscription_outcome live.notReset id)
  intro _ state₁ removed
  apply askCache_bind
  apply modifyCache_bind
  have live₁ := removed.live live
  apply succeeds_bind (dropChannels_outcome (live₁.recache _) _)
  intro _ state₂ dropped
  refine ⟨(), rfl, ?_, ?_, (dropped.live (live₁.recache _)).recache _⟩
  · change { state₂.cache with members := state₂.cache.members.erase id } = _
    rw [dropped.cache, removed.cache]
    rfl
  · change state₂.subscribed = _
    rw [dropped.subscribed, removed.subscribed, removed.cache]
    rfl

/-- Leaving a server takes along what its cached document lists. -/
theorem forgetServer_sound (safe : state.ListsSubscribed tracked id) :
    SoundAfter tracked {} (forgetServer id) state := by
  apply (forgetServer_outcome sound.live id).succeeds_mono
  rintro _ state' ⟨cache, topics, live⟩
  have others : ∀ other, other ≠ id → (state.cache.servers.erase id).lookup other =
      state.cache.servers.lookup other := fun other ne => AList.lookup_erase_ne ne
  have gone : (state.cache.servers.erase id).lookup id = none := AList.lookup_erase _ _
  refine ⟨?_, live, ?_, by rintro _ ⟨⟩, .inl rfl⟩
  · rw [cache]
    refine ⟨sound.settled.own, forall_erase sound.settled.keyed, ?_⟩
    · intro other stored
      by_cases same : other = id
      · rw [same, gone] at stored
        cases stored
      · rw [others other same] at stored
        rw [AList.lookup_erase_ne same]
        exact sound.settled.joined other stored
  · intro topic present follow _
    rw [topics, Finset.mem_sdiff, List.mem_toFinset, Finset.mem_erase] at present
    rw [cache]
    obtain ⟨⟨_, old⟩, unlisted⟩ := present
    obtain ⟨text, cached, user, own, granted⟩ := sound.views old follow
    have elsewhere : text.server ≠ id := by
      intro same
      obtain ⟨server, stored, listed⟩ := safe topic old follow text cached same
      rw [Cache.listedBy, stored] at unlisted
      exact unlisted listed
    refine ⟨text, (lookup_eraseAll _ unlisted).trans cached, .inl ⟨user, own, ?_⟩⟩
    refine Eq.trans ?_ granted
    exact grantsView_congr (others _ elsewhere) (AList.lookup_erase_ne elsewhere)

/-- The own user may be replaced by one of the same standing. -/
theorem changeRelationship_sound {user : ApiUser}
    (untracked : ¬ tracked id) (safe : (userRelationship id user).Safe tracked db state) :
    SoundAfter tracked {} (changeRelationship id user) state := by
  have replaced : State.Sound tracked {} { state with
      cache := { state.cache with users := state.cache.users.put id user.toUser } } := by
    by_cases own : state.cache.userId = id
    · have present : (state.cache.users.put id user.toUser).lookup state.cache.userId =
          some user.toUser := by
        rw [own, lookup_put]
      refine sound.recache ⟨by rw [present]; rfl, sound.settled.keyed, sound.settled.joined⟩ ?_
      rintro topic text cached ⟨old, found, granted⟩
      obtain ⟨samePrivilege, sameStanding⟩ := safe own.symm old (own ▸ found)
      refine ⟨text, cached, .inl ⟨user.toUser, present, Eq.trans ?_ granted⟩⟩
      cases stored : state.cache.servers.lookup text.server with
      | none =>
        rw [grantsView_none stored, ← samePrivilege]
        exact grantsView_none stored
      | some server =>
        rw [grantsView_some stored, viewGranted, ← sameStanding text.server server stored]
        exact grantsView_some stored
    · have kept := lookup_put_ne state.cache.users own user.toUser
      refine sound.recache ⟨by rw [kept]; exact sound.settled.own, sound.settled.keyed,
        sound.settled.joined⟩ ?_
      rintro topic text cached ⟨old, found, granted⟩
      exact ⟨text, cached, .inl ⟨old, kept.trans found, granted⟩⟩
  rw [changeRelationship]
  apply modifyCache_bind
  apply askCache_bind
  split
  · exact insertSubscription_sound replaced fun follow => absurd follow untracked
  · exact removeSubscription_sound replaced id

omit sound in
theorem Channel.edited_server (data : PartialChannel) (clear : List FieldsChannel)
    (channel : Channel) :
    ((clear.foldl (fun channel field => channel.removeField field) channel).applyOptions
      data).server = channel.server := by
  induction clear generalizing channel with
  | nil => cases channel <;> rfl
  | cons field clear ih =>
    rw [List.foldl_cons, ih]
    cases channel <;> cases field <;> rfl

omit sound in
/-- What an update leaves under the id of the channel: the edited channel or the
fetched one. -/
theorem Cache.updateChannel_spec (data : PartialChannel) (clear : List FieldsChannel) :
    ∃ channels, cache.updateChannel db id data clear = { cache with channels } ∧
      (∀ other, other ≠ id → channels.lookup other = cache.channels.lookup other) ∧
      (channels.lookup id).map server =
        ((cache.channels.lookup id).or (db.fetchChannel id).toOption).map server := by
  rw [updateChannel]
  cases known : cache.channels.lookup id with
  | some channel =>
    refine ⟨_, rfl, fun other ne => lookup_modify_ne _ ne _, ?_⟩
    rw [lookup_modify, known]
    exact congrArg some (edited_server data clear channel)
  | none =>
    cases fetched : db.fetchChannel id with
    | error e => exact ⟨_, rfl, fun _ _ => rfl, by rw [known]; rfl⟩
    | ok channel =>
      refine ⟨_, rfl, fun other ne => lookup_put_ne _ ne _, ?_⟩
      rw [lookup_put]
      rfl

variable {user : User}

omit sound in
theorem Cache.Settled.canViewCached (settled : cache.Settled)
    (own : cache.users.lookup cache.userId = some user)
    (located : ∀ text, cache.channels.lookup id = some (.textChannel text) →
      (cache.servers.lookup text.server).isSome) :
    cache.canViewCached db.toDatabase now id =
      .ok ((cache.channels.lookup id).any (cache.shows user)) := by
  rw [Cache.canViewCached]
  cases cached : cache.channels.lookup id with
  | none => rfl
  | some channel =>
    cases channel with
    | textChannel text =>
      obtain ⟨server, stored⟩ := isSome_iff_exists.mp (located text cached)
      obtain ⟨_, member, knows⟩ := settled.knows stored
      cases own.symm.trans knows.own
      exact knows.canViewChannel rfl
    | savedMessages _ | directMessage _ | group _ => rfl

variable {channels : HashMap String Channel}

/-- One channel changes, and the others are as before. -/
theorem State.Sound.rejudge {add remove : Option String}
    (others : ∀ other, other ≠ id → channels.lookup other = state.cache.channels.lookup other)
    (kept : id ∈ state.subscribed → tracked id → remove ≠ some id →
      Cache.Judged { state.cache with channels } none id)
    (added : ∀ topic, add = some topic → tracked topic →
      Cache.Judged { state.cache with channels } none topic) :
    State.Sound tracked { add, remove }
      { state with cache := { state.cache with channels } } := by
  refine ⟨⟨sound.settled.own, sound.settled.keyed, sound.settled.joined⟩, sound.live.recache _, ?_,
    added, .inl rfl⟩
  intro topic present follow stays
  by_cases same : topic = id
  · subst same
    exact kept present follow stays
  · obtain ⟨text, cached, views⟩ := sound.views present follow
    exact ⟨text, (others topic same).trans cached, .inl views⟩

omit sound in
theorem Cache.server_isSome_of_hidden
    (hidden : cache.shows user channel = false) : channel.server.isSome := by
  cases channel with
  | textChannel text => rfl
  | savedMessages _ | directMessage _ | group _ => cases hidden

variable {data : PartialChannel} {clear : List FieldsChannel}

omit sound in
/-- A tracked channel that can be viewed after an update is one of a server,
provided that it was one before or could not be viewed before. -/
theorem Cache.judged_of_update (wellFormed : (channelUpdate id data clear).WellFormed tracked db)
    (own : cache.users.lookup cache.userId = some user)
    (sameServer : (channels.lookup id).map server =
      ((cache.channels.lookup id).or (db.fetchChannel id).toOption).map server)
    (follow : tracked id)
    (before : ∀ channel, cache.channels.lookup id = some channel → channel.server.isSome)
    (shown : (channels.lookup id).any (cache.shows user)) :
    Cache.Judged { cache with channels } none id := by
  cases cached : channels.lookup id with
  | none =>
    rw [cached] at shown
    cases shown
  | some channel =>
    rw [cached] at shown sameServer
    obtain ⟨old, found, same⟩ := map_eq_some_iff.mp sameServer.symm
    have located : channel.server.isSome := by
      rw [← same]
      cases known : cache.channels.lookup id with
      | some known' =>
        rw [known] at found
        exact before old (known.trans found)
      | none =>
        rw [known, Option.none_or] at found
        cases fetched : db.fetchChannel id with
        | error e =>
          rw [fetched] at found
          cases found
        | ok channel' =>
          rw [fetched] at found
          cases found
          exact (wellFormed old fetched).mp follow
    obtain ⟨serverId, belongs⟩ := isSome_iff_exists.mp located
    obtain ⟨text, rfl, _⟩ := eq_textChannel_of_server belongs
    exact ⟨text, cached, .inl ⟨user, own, shown⟩⟩

omit sound in
/-- An updated channel is judged by the server that it belonged to before. -/
theorem Cache.Settled.canViewUpdated (settled : cache.Settled)
    (own : cache.users.lookup cache.userId = some user)
    (sameServer : (channels.lookup id).map server =
      ((cache.channels.lookup id).or (db.fetchChannel id).toOption).map server)
    (located : ∀ text, (cache.channels.lookup id).or (db.fetchChannel id).toOption =
      some (.textChannel text) → (cache.servers.lookup text.server).isSome) :
    Cache.canViewCached db.toDatabase now id { cache with channels } =
      .ok ((channels.lookup id).any (cache.shows user)) := by
  have after : Cache.Settled { cache with channels } := ⟨settled.own, settled.keyed, settled.joined⟩
  refine after.canViewCached own fun text cached => ?_
  rw [cached] at sameServer
  obtain ⟨old, found, belongs⟩ := map_eq_some_iff.mp sameServer.symm
  obtain ⟨text', rfl, same⟩ := eq_textChannel_of_server belongs
  rw [← same]
  exact located text' found

/-- A subscribed channel is one of a server, and the cache grants the view of
it. -/
theorem State.Sound.grantsView (own : state.cache.users.lookup state.cache.userId = some user)
    (present : id ∈ state.subscribed) (follow : tracked id) :
    ∃ text, state.cache.channels.lookup id = some (.textChannel text) ∧
      state.cache.grantsView user text := by
  obtain ⟨text, cached, views⟩ := sound.views present follow
  exact ⟨text, cached, (views_iff own).mp views⟩

/-- The verdicts before and after the update decide what is queued. -/
theorem handleChannelUpdate_sound (wellFormed : (channelUpdate id data clear).WellFormed tracked db)
    (safe : (channelUpdate id data clear).Safe tracked db state) :
    Outcome (handleChannelUpdate db now id data clear) state (Succeeds fun handled state' =>
      Dispatched tracked db (some handled) state') := by
  obtain ⟨user, own⟩ := isSome_iff_exists.mp sound.settled.own
  obtain ⟨channels, updated, others, sameServer⟩ := @updateChannel_spec db id state.cache data clear
  have before : state.cache.canViewCached db.toDatabase now id =
      .ok ((state.cache.channels.lookup id).any (state.cache.shows user)) := by
    refine sound.settled.canViewCached own fun text cached => safe text ?_
    rw [cached]
    rfl
  have after : Cache.canViewCached db.toDatabase now id { state.cache with channels } =
      .ok ((channels.lookup id).any (state.cache.shows user)) :=
    sound.settled.canViewUpdated own sameServer safe
  rw [handleChannelUpdate]
  apply readCache_bind before
  apply modifyCache_bind
  rw [updated]
  apply readCache_bind after
  apply askCache_bind
  have judged := @judged_of_update tracked db id state.cache user channels data clear
    wellFormed own sameServer
  refine ⟨_, rfl, ?_⟩
  split
  · next channel cached =>
    split
    · next same =>
      refine State.Sound.dispatched (sound.rejudge others ?_ (by rintro _ ⟨⟩))
      intro present follow _
      obtain ⟨text, known, granted⟩ := sound.grantsView own present follow
      rw [known] at same judged
      refine judged follow ?_ (same ▸ granted)
      rintro _ ⟨⟩
      rfl
    · next different =>
      split
      · next shown =>
        have hidden : (state.cache.channels.lookup id).any (state.cache.shows user) = false := by
          rw [shown] at different
          exact Bool.eq_false_iff.mpr different
        refine ⟨sound.rejudge others ?_ ?_, by rintro _ ⟨⟩⟩
        · intro present follow _
          obtain ⟨text, known, granted⟩ := sound.grantsView own present follow
          rw [known] at hidden
          cases hidden.symm.trans granted
        · rintro _ ⟨⟩ follow
          refine judged follow ?_ shown
          intro old known
          rw [known] at hidden
          exact server_isSome_of_hidden hidden
      · exact ⟨sound.rejudge others (fun _ _ stays => absurd rfl stays) (by rintro _ ⟨⟩),
          by rintro _ ⟨⟩⟩
  · next cached =>
    refine State.Sound.dispatched (sound.rejudge others ?_ (by rintro _ ⟨⟩))
    intro present follow _
    -- A cached channel is still there after the update.
    obtain ⟨text, known, _⟩ := sound.grantsView own present follow
    rw [cached, known] at sameServer
    cases sameServer

section

variable (lists : db.ListsCached state.cache) (wellFormed : event.WellFormed tracked db)
variable (safe : event.Safe tracked db state)

include lists wellFormed safe

theorem dispatchEvent_sound : Handles tracked db now state event := by
  cases event with
  | channelCreate channel => exact channelCreate_sound sound wellFormed safe
  | channelUpdate id data clear =>
    rw [Handles, dispatchEvent]
    apply succeeds_bind (handleChannelUpdate_sound sound wellFormed safe)
    intro handled state₁ dispatched
    exact ⟨_, rfl, dispatched⟩
  | channelDelete id => exact dispatched_of_sound (dropChannel_sound sound id)
  | channelGroupJoin id user =>
    exact dispatched_of_sound (insertSubscription_sound sound fun follow =>
      absurd follow wellFormed)
  | channelGroupLeave id user => exact dispatched_of_sound (leaveGroup_sound sound id user)
  | serverCreate id server channels => exact serverCreate_sound sound wellFormed
  | serverUpdate id data clear => exact serverUpdate_sound sound lists wellFormed safe
  | serverDelete id => exact dispatched_of_sound (forgetServer_sound sound safe)
  | serverMemberLeave id user =>
    rw [Handles, dispatchEvent]
    apply askCache_bind
    apply dispatched_of_sound
    apply Outcome.onlyIf
    · intro same
      exact forgetServer_sound sound (safe (beq_iff_eq.mp same))
    · intro _
      exact ⟨(), rfl, sound⟩
  | serverMemberUpdate key data clear => exact serverMemberUpdate_sound sound lists
  | serverRoleUpdate id roleId data clear => exact serverRoleUpdate_sound sound lists
  | serverRoleDelete id roleId => exact serverRoleDelete_sound sound lists
  | userUpdate id data clear eventId => exact userUpdate_sound sound
  | userRelationship id user =>
    exact dispatched_of_sound (changeRelationship_sound sound wellFormed safe)
  | message message => exact message_sound sound
  -- The remaining events are sent on and change nothing.
  | serverMemberJoin _ _ => exact ⟨_, rfl, sound.dispatched⟩
  | serverRoleRanksUpdate _ _ => exact ⟨_, rfl, sound.dispatched⟩
  | bulk _ => exact ⟨_, rfl, sound.dispatched⟩
  | other _ => exact ⟨_, rfl, sound.dispatched⟩

/-- Handling an event keeps the invariant and never fails. -/
theorem handleIncomingEventV1_sound :
    SoundAfter tracked {} (handleIncomingEventV1 db now event) state := by
  rw [handleIncomingEventV1]
  apply succeeds_bind (dispatchEvent_sound sound lists wellFormed safe)
  intro handled state₁ dispatched
  cases handled with
  | none => exact ⟨_, rfl, dispatched.sound⟩
  | some handled => exact settleQueue_sound handled.1 dispatched.sound dispatched.lists

end

end Events

end Company
