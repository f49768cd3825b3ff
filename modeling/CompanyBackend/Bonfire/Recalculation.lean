import CompanyBackend.Bonfire.Views

/-!
# Recalculation of a server

What judging the channels of a cached server again leaves behind: the cached channels that
can be viewed are subscribed, the others are dropped, and the listed channels that were not
cached and can be viewed are learned. The rest of the cache is untouched.
-/

namespace Company

open Request Outcome List

/-- Of the cache, only the channels were changed. -/
structure State.Rechannels (state state' : State) (channels : HashMap String Channel)
    (topics : Finset String) : Prop where
  cache : state'.cache = { state.cache with channels }
  subscribed : state'.subscribed = topics
  live : state.Live → state'.Live

variable {state : State}

section Loops

variable {state' state'' : State} {channels channels' : HashMap String Channel}
variable {topics topics' : Finset String}

theorem State.Resubscribes.rechannels (changed : state.Resubscribes state' topics) :
    state.Rechannels state' state.cache.channels topics :=
  ⟨changed.cache, changed.subscribed, changed.live⟩

theorem State.Rechannels.trans (first : state.Rechannels state' channels topics)
    (second : state'.Rechannels state'' channels' topics') :
    state.Rechannels state'' channels' topics' where
  cache := by rw [second.cache, first.cache]
  subscribed := second.subscribed
  live before := second.live (first.live before)

theorem State.Rechannels.refl (state : State) :
    state.Rechannels state state.cache.channels state.subscribed := ⟨rfl, rfl, id⟩

theorem modifyChannels_outcome (state : State)
    (f : HashMap String Channel → HashMap String Channel) :
    Outcome (modifyCache fun cache => { cache with channels := f cache.channels }) state
      (Succeeds fun _ state' =>
        state.Rechannels state' (f state.cache.channels) state.subscribed) :=
  ⟨(), rfl, rfl, rfl, fun live => live.recache _⟩

theorem dropChannel_outcome (live : state.Live) (id : String) :
    Outcome (dropChannel id) state (Succeeds fun _ state' =>
      state.Rechannels state' (state.cache.channels.erase id) (state.subscribed.erase id)) := by
  rw [dropChannel]
  apply succeeds_bind (removeSubscription_outcome live.notReset id)
  intro _ state' removed
  obtain ⟨_, ran, dropped⟩ := modifyChannels_outcome state' fun channels => channels.erase id
  refine ⟨_, ran, ?_⟩
  have composed := removed.rechannels.trans dropped
  rwa [removed.subscribed, removed.cache] at composed

theorem learnChannel_outcome (state : State) (channel : Channel) :
    Outcome (learnChannel channel) state (Succeeds fun _ state' =>
      state.Rechannels state' (state.cache.channels.put channel.id channel)
        (insert channel.id state.subscribed)) := by
  rw [learnChannel]
  apply succeeds_bind (modifyChannels_outcome state fun channels =>
    channels.put channel.id channel)
  intro _ state' cached
  obtain ⟨_, ran, inserted⟩ := insertSubscription_outcome channel.id state'
  refine ⟨_, ran, ?_⟩
  have composed := cached.trans inserted.rechannels
  rwa [cached.subscribed, cached.cache] at composed

/-- A loop whose steps change the channels and the topics. -/
theorem rechannels_forEach {α : Type} {action : α → Connection Unit}
    {edit : HashMap String Channel → α → HashMap String Channel}
    {retopic : Finset String → α → Finset String}
    (each : ∀ a state, state.Live → Outcome (action a) state (Succeeds fun _ state' =>
      state.Rechannels state' (edit state.cache.channels a) (retopic state.subscribed a)))
    (live : state.Live) (xs : List α) :
    Outcome (forEach action xs) state (Succeeds fun _ state' =>
      state.Rechannels state' (xs.foldl edit state.cache.channels)
        (xs.foldl retopic state.subscribed)) := by
  induction xs generalizing state with
  | nil => exact ⟨(), rfl, .refl state⟩
  | cons a xs ih =>
    apply succeeds_bind (each a state live)
    intro _ state₁ changed
    refine (ih (changed.live live)).succeeds_mono fun _ state₂ rest => ?_
    rw [changed.cache, changed.subscribed] at rest
    exact changed.trans rest

theorem foldl_insert_eq_union (ids : List String) (topics : Finset String) :
    ids.foldl (fun topics id => insert id topics) topics = topics ∪ ids.toFinset := by
  induction ids generalizing topics with
  | nil => simp
  | cons id ids ih => simp [ih]

theorem insertSubscriptions_outcome (live : state.Live) (ids : List String) :
    Outcome (forEach insertSubscription ids) state (Succeeds fun _ state' =>
      state.Rechannels state' state.cache.channels (state.subscribed ∪ ids.toFinset)) := by
  have whole := @rechannels_forEach state String insertSubscription (fun channels _ => channels)
    (fun topics topic => insert topic topics) (fun topic state _ =>
      (insertSubscription_outcome topic state).succeeds_mono fun _ _ inserted =>
        inserted.rechannels)
    live ids
  rwa [foldl_fixed, foldl_insert_eq_union] at whole

theorem dropChannels_outcome (live : state.Live) (ids : List String) :
    Outcome (forEach dropChannel ids) state (Succeeds fun _ state' =>
      state.Rechannels state' (state.cache.channels.eraseAll ids)
        (state.subscribed \ ids.toFinset)) := by
  have topics : ids.foldl Finset.erase state.subscribed = state.subscribed \ ids.toFinset := by
    induction ids using reverseRecOn with
    | nil => simp
    | append_singleton ids id ih =>
      rw [foldl_append, ih]
      ext topic
      simp
      tauto
  rw [← topics]
  exact rechannels_forEach (fun id _ live => dropChannel_outcome live id) live ids

theorem learnChannels_outcome (live : state.Live) (found : List Channel) :
    Outcome (forEach learnChannel found) state (Succeeds fun _ state' =>
      state.Rechannels state' (state.cache.channels.putBy Channel.id found)
        (state.subscribed ∪ (found.map Channel.id).toFinset)) := by
  rw [← foldl_insert_eq_union, foldl_map]
  exact rechannels_forEach (fun channel state _ => learnChannel_outcome state channel) live found

end Loops

namespace Cache

variable (cache : Cache) (user : User) (serverId : String)

/-- The keys of the cached channels of a server that can be viewed. -/
def shownOf : List String :=
  ((cache.channelsOf serverId).filter fun entry => cache.shows user entry.2).map Prod.fst

/-- The keys of the cached channels of a server that cannot be viewed. -/
def hiddenOf : List String :=
  ((cache.channelsOf serverId).filter fun entry => !cache.shows user entry.2).map Prod.fst

def unknownOf (serverId : String) (server : Server) : List String :=
  server.channels.dedup.filter fun id => !((cache.channelsOf serverId).map Prod.fst).contains id

end Cache

/-- The channels that the database returns for the given ids. -/
def EventDatabase.found (db : EventDatabase) (ids : List String) : List Channel :=
  if ids.isEmpty then [] else (db.fetchChannels ids).toOption.getD []

/-- The channels that a server lists belong to it. -/
def EventDatabase.Lists (db : EventDatabase) (serverId : String) (listed : List String) : Prop :=
  ∀ ids ⊆ listed, ∀ channel ∈ db.found ids, channel.server = some serverId

variable {server : Server} {db : EventDatabase} {now : Timestamp} {member : Member}

section Verdicts

variable {id : String} {user : User}
variable {cache : Cache} {channel : Channel}

theorem Channel.eq_textChannel_of_server (belongs : channel.server = some id) :
    ∃ text, channel = .textChannel text ∧ text.server = id := by
  cases channel with
  | textChannel text => exact ⟨text, rfl, Option.some.inj belongs⟩
  | savedMessages _ | directMessage _ | group _ => cases belongs

theorem Cache.mem_channelsOf {entry : String × Channel} :
    entry ∈ cache.channelsOf id ↔
      cache.channels.lookup entry.1 = some entry.2 ∧ entry.2.server = some id := by
  simp only [channelsOf, List.mem_map, mem_filter, beq_iff_eq]
  constructor
  · rintro ⟨e, ⟨member, belongs⟩, rfl⟩
    exact ⟨HashMap.mem_entries_iff.mp member, belongs⟩
  · rintro ⟨found, belongs⟩
    exact ⟨⟨entry.1, entry.2⟩, ⟨HashMap.mem_entries_iff.mpr found, belongs⟩, rfl⟩

/-- The user, the server and the member that the check of a server channel
needs. -/
structure Cache.Knows (cache : Cache) (user : User) (id : String) (server : Server)
    (member : Member) : Prop where
  own : cache.users.lookup cache.userId = some user
  stored : cache.servers.lookup id = some server
  keyed : server.id = id
  joined : cache.members.lookup id = some member

theorem Cache.Knows.canViewChannel (knows : cache.Knows user id server member)
    (belongs : channel.server = some id) :
    cache.canViewChannel db.toDatabase now channel = .ok (cache.shows user channel) := by
  obtain ⟨text, rfl, rfl⟩ := Channel.eq_textChannel_of_server belongs
  exact canViewChannel_cached knows.own knows.stored knows.keyed knows.joined

theorem Cache.Knows.judgeChannels (knows : cache.Knows user id server member) :
    cache.judgeChannels db.toDatabase now id =
      .ok ((cache.channelsOf id).map fun entry => (entry.1, cache.shows user entry.2)) := by
  apply mapM_eq_ok
  intro entry listed
  rw [knows.canViewChannel (Cache.mem_channelsOf.mp listed).2]
  rfl

theorem fetchViewable_outcome (knows : state.cache.Knows user id server member)
    {listed ids : List String} (lists : db.Lists id listed) (sub : ids ⊆ listed) :
    Outcome (fetchViewable db now ids) state (Succeeds fun found state' =>
      state' = state ∧ found = (db.found ids).filter (state.cache.shows user)) := by
  have members := lists ids sub
  rw [fetchViewable, EventDatabase.found] at *
  split
  · exact ⟨[], rfl, rfl, rfl⟩
  · next some =>
    rw [if_neg some] at members
    cases fetched : db.fetchChannels ids with
    | error e => exact ⟨[], rfl, rfl, rfl⟩
    | ok channels =>
      rw [fetched] at members
      have filtered := @Cache.filterAccessibleChannels_eq db.toDatabase now state.cache
        (state.cache.shows user) channels fun channel member =>
          knows.canViewChannel (members channel member)
      have answered : readCache (Cache.filterAccessibleChannels db.toDatabase now channels) state =
          (.ok (channels.filter (state.cache.shows user)), state) := by
        change ((Cache.filterAccessibleChannels db.toDatabase now channels state.cache).mapError _,
          state) = _
        rw [filtered]
        rfl
      rw [Outcome]
      dsimp only
      rw [answered]
      exact ⟨_, rfl, rfl, rfl⟩

end Verdicts

theorem recalculateChannels_outcome {id : String} {user : User} (event : EventV1)
    (live : state.Live) (knows : state.cache.Knows user id server member)
    (lists : db.Lists id server.channels) :
    Outcome (recalculateChannels db now id server event) state (Succeeds fun event' state' =>
      let hidden := state.cache.hiddenOf user id
      let found := (db.found (state.cache.unknownOf id server)).filter (state.cache.shows user)
      let bulk := hidden.map EventV1.channelDelete ++ found.map EventV1.channelCreate
      event' = (if bulk.isEmpty then event else .bulk (bulk ++ [event])) ∧
        state.Rechannels state' ((state.cache.channels.eraseAll hidden).putBy Channel.id found)
          (((state.subscribed ∪ (state.cache.shownOf user id).toFinset) \ hidden.toFinset) ∪
            (found.map Channel.id).toFinset)) := by
  have sub : state.cache.unknownOf id server ⊆ server.channels := by
    intro listed member
    exact mem_dedup.mp (mem_of_mem_filter member)
  rw [recalculateChannels]
  apply readCache_bind knows.judgeChannels
  rw [filter_map, filter_map, List.map_map, List.map_map, List.map_map]
  apply succeeds_bind (insertSubscriptions_outcome live (state.cache.shownOf user id))
  intro _ inserted insertion
  apply succeeds_bind (dropChannels_outcome (insertion.live live) (state.cache.hiddenOf user id))
  intro _ dropped dropping
  have reached := insertion.trans dropping
  rw [insertion.subscribed, insertion.cache] at reached
  have knows' : dropped.cache.Knows user id server member := by
    rw [reached.cache]
    exact ⟨knows.own, knows.stored, knows.keyed, knows.joined⟩
  apply succeeds_bind (fetchViewable_outcome knows' lists sub)
  rintro found state' ⟨same', rfl⟩
  rw [same']
  have same : dropped.cache.shows user = state.cache.shows user := by
    rw [reached.cache]
    rfl
  rw [same]
  apply succeeds_bind (learnChannels_outcome (reached.live live) _)
  intro _ learned learning
  refine ⟨_, rfl, rfl, ?_⟩
  have final := reached.trans learning
  rwa [reached.subscribed, reached.cache] at final

end Company
