import CompanyBackend.Bonfire.Recalculation

/-!
# Visibility of the subscribed channels

A connection should be subscribed only to those server channels that its user can view by
what is cached. While an event is handled there are exceptions: the channels of a server
that is queued to be judged again, and a channel that is queued to be removed. What an
event leaves in the queue makes up for the exceptions it causes.

Topics are plain strings, and the ids of users and servers are topics as well. The
predicate `tracked` tells which topics are ids of server channels.
-/

namespace Company

open Request Finset List

variable {topic : String} {server : Server} {cache : Cache} {text : TextChannel}

namespace Cache

/-- The user of the connection can view the channel by what is cached. -/
def Views (cache : Cache) (text : TextChannel) : Prop :=
  ∃ user, cache.users.lookup cache.userId = some user ∧ cache.grantsView user text = true

/-- The documents that a check needs are cached. -/
structure Settled (cache : Cache) : Prop where
  own : (cache.users.lookup cache.userId).isSome
  keyed : ∀ id server, cache.servers.lookup id = some server → server.id = id
  joined : ∀ id, (cache.servers.lookup id).isSome → (cache.members.lookup id).isSome

/-- The topic is that of a cached server channel that can be viewed, or that
belongs to a server to be judged again. -/
def Judged (cache : Cache) (stale : Option String) (topic : String) : Prop :=
  ∃ text, cache.channels.lookup topic = some (.textChannel text) ∧
    (cache.Views text ∨ stale = some text.server ∧ (cache.servers.lookup text.server).isSome)

variable {cache' : Cache} {id : String}

theorem Settled.knows (settled : cache.Settled) (stored : cache.servers.lookup id = some server) :
    ∃ user member, cache.Knows user id server member := by
  obtain ⟨user, own⟩ := Option.isSome_iff_exists.mp settled.own
  obtain ⟨member, joined⟩ := Option.isSome_iff_exists.mp (settled.joined id (by rw [stored]; rfl))
  exact ⟨user, member, own, stored, settled.keyed id server stored, joined⟩

theorem views_iff {user : User} (own : cache.users.lookup cache.userId = some user) :
    cache.Views text ↔ cache.grantsView user text := by
  constructor
  · rintro ⟨_, found, granted⟩
    cases own.symm.trans found
    exact granted
  · intro granted
    exact ⟨user, own, granted⟩

theorem Judged.views (judged : cache.Judged none topic) :
    ∃ text, cache.channels.lookup topic = some (.textChannel text) ∧ cache.Views text := by
  obtain ⟨text, cached, views | ⟨stale, _⟩⟩ := judged
  · exact ⟨text, cached, views⟩
  · cases stale

end Cache

/-- The invariant of a connection, up to what is queued. -/
structure State.Sound (tracked : String → Prop) (queue : Queue) (state : State) : Prop where
  settled : state.cache.Settled
  live : state.Live
  judged : ∀ topic ∈ state.subscribed, tracked topic → queue.remove ≠ some topic →
    state.cache.Judged queue.server topic
  added : ∀ topic, queue.add = some topic → tracked topic → state.cache.Judged none topic
  single : queue.server = none ∨ queue.add = none ∧ queue.remove = none

variable {tracked : String → Prop}

/-- The action succeeds and leaves the invariant behind, up to a queue. -/
abbrev SoundAfter (tracked : String → Prop) (queue : Queue) {α : Type} (action : Connection α)
    (state : State) : Prop :=
  Outcome action state (Succeeds fun _ state' => state'.Sound tracked queue)

theorem State.Sound.views {state : State}
    (sound : state.Sound tracked {}) (present : topic ∈ state.subscribed) (follow : tracked topic) :
    ∃ text, state.cache.channels.lookup topic = some (.textChannel text) ∧ state.cache.Views text :=
  (sound.judged topic present follow (by rintro ⟨⟩)).views

section Queue

variable {db : EventDatabase} {now : Timestamp} {id : String}
variable {state state' : State} {user : User}

theorem Cache.mem_shownOf (listed : topic ∈ cache.shownOf user id) :
    ∃ text, cache.channels.lookup topic = some (.textChannel text) ∧
      cache.grantsView user text := by
  obtain ⟨⟨_, channel⟩, member, rfl⟩ := List.mem_map.mp listed
  obtain ⟨member, shown⟩ := mem_filter.mp member
  obtain ⟨cached, belongs⟩ := mem_channelsOf.mp member
  obtain ⟨text, rfl, _⟩ := Channel.eq_textChannel_of_server belongs
  exact ⟨text, cached, shown⟩

theorem Cache.mem_hiddenOf (cached : cache.channels.lookup topic = some (.textChannel text))
    (hidden : cache.grantsView user text = false) : topic ∈ cache.hiddenOf user text.server := by
  refine List.mem_map.mpr ⟨(topic, .textChannel text), mem_filter.mpr ⟨?_, ?_⟩, rfl⟩
  · exact mem_channelsOf.mpr ⟨cached, rfl⟩
  · change (!cache.grantsView user text) = true
    rw [hidden]
    rfl

/-- After a recalculation every subscribed channel can be viewed: the channels
of the server have been judged, and those of other servers are as before. -/
theorem State.Sound.recalculate {member : Member}
    (sound : state.Sound tracked { server := some id })
    (knows : state.cache.Knows user id server member) {found : List Channel}
    (belong : ∀ channel ∈ found, channel.server = some id ∧ state.cache.shows user channel = true)
    (changed : state.Rechannels state'
      ((state.cache.channels.eraseAll (state.cache.hiddenOf user id)).putBy Channel.id found)
      (((state.subscribed ∪ (state.cache.shownOf user id).toFinset) \
          (state.cache.hiddenOf user id).toFinset) ∪ (found.map Channel.id).toFinset)) :
    state'.Sound tracked {} := by
  refine ⟨?_, changed.live sound.live, ?_, by rintro _ ⟨⟩, .inl rfl⟩
  · rw [changed.cache]
    exact ⟨sound.settled.own, sound.settled.keyed, sound.settled.joined⟩
  intro topic present follow _
  rw [changed.subscribed] at present
  rw [changed.cache]
  -- A channel that was learned replaces what was cached under its id.
  rcases HashMap.lookup_putBy Channel.id found
      (state.cache.channels.eraseAll (state.cache.hiddenOf user id)) topic
    with ⟨channel, listed, _, learned⟩ | ⟨others, kept⟩
  · obtain ⟨belongs, shown⟩ := belong channel listed
    obtain ⟨text, rfl, _⟩ := Channel.eq_textChannel_of_server belongs
    exact ⟨text, learned, .inl ⟨user, knows.own, shown⟩⟩
  have old : topic ∈ (state.subscribed ∪ (state.cache.shownOf user id).toFinset) \
      (state.cache.hiddenOf user id).toFinset := by
    refine (mem_union.mp present).resolve_right fun new => ?_
    obtain ⟨channel, listed, same⟩ := List.mem_map.mp (mem_toFinset.mp new)
    exact others channel listed same
  rw [mem_sdiff, mem_union, mem_toFinset, mem_toFinset] at old
  rw [HashMap.lookup_eraseAll _ old.2] at kept
  have viewable : ∃ text, state.cache.channels.lookup topic = some (.textChannel text) ∧
      state.cache.grantsView user text = true := by
    rcases old.1 with subscribed | shown
    · obtain ⟨text, cached, views | ⟨stale, _⟩⟩ :=
        sound.judged topic subscribed follow (by rintro ⟨⟩)
      · exact ⟨text, cached, (Cache.views_iff knows.own).mp views⟩
      · cases stale
        refine ⟨text, cached, ?_⟩
        by_contra refused
        exact old.2 (Cache.mem_hiddenOf cached (Bool.eq_false_iff.mpr refused))
    · exact Cache.mem_shownOf shown
  obtain ⟨text, cached, granted⟩ := viewable
  exact ⟨text, kept.trans cached, .inl ⟨user, knows.own, granted⟩⟩

theorem recalculateServer_sound {event : EventV1}
    (sound : state.Sound tracked { server := some id })
    (lists : ∀ server, state.cache.servers.lookup id = some server → db.Lists id server.channels) :
    SoundAfter tracked {} (recalculateServer db now id event) state := by
  rw [recalculateServer]
  apply Outcome.askCache_bind
  cases stored : state.cache.servers.lookup id with
  | none =>
    refine ⟨event, rfl, sound.settled, sound.live, ?_, by rintro _ ⟨⟩, .inl rfl⟩
    intro topic present follow _
    obtain ⟨text, cached, views | ⟨stale, known⟩⟩ :=
      sound.judged topic present follow (by rintro ⟨⟩)
    · exact ⟨text, cached, .inl views⟩
    · rw [← Option.some.inj stale, stored] at known
      cases known
  | some server =>
    obtain ⟨user, member, knows⟩ := sound.settled.knows stored
    obtain ⟨event', ran, _, changed⟩ := @recalculateChannels_outcome state server db now member id
      user event sound.live knows (lists server stored)
    refine ⟨event', ran, sound.recalculate knows ?_ changed⟩
    intro channel listed
    obtain ⟨listed, shown⟩ := mem_filter.mp listed
    refine ⟨lists server stored _ ?_ channel listed, shown⟩
    intro unknown member
    exact mem_dedup.mp (mem_of_mem_filter member)

variable {queue : Queue}

section

variable (sound : state.Sound tracked queue)

include sound

/-- Topics may go, and new ones are judged. -/
theorem State.Sound.resubscribe {topics : Finset String}
    (changed : state.Resubscribes state' topics)
    (judged : ∀ topic ∈ topics, tracked topic →
      topic ∈ state.subscribed ∨ state.cache.Judged queue.server topic) :
    state'.Sound tracked queue := by
  refine ⟨?_, changed.live sound.live, ?_, ?_, sound.single⟩
  · rw [changed.cache]
    exact sound.settled
  · intro topic present follow stays
    rw [changed.subscribed] at present
    rw [changed.cache]
    rcases judged topic present follow with old | new
    · exact sound.judged topic old follow stays
    · exact new
  · rw [changed.cache]
    exact sound.added

theorem insertSubscription_sound (judged : tracked topic → state.cache.Judged queue.server topic) :
    SoundAfter tracked queue (insertSubscription topic) state := by
  refine (insertSubscription_outcome topic state).succeeds_mono fun _ state' changed =>
    sound.resubscribe changed ?_
  intro other present follow
  rcases mem_insert.mp present with rfl | old
  · exact .inr (judged follow)
  · exact .inl old

theorem removeSubscription_sound (topic : String) :
    SoundAfter tracked queue (removeSubscription topic) state := by
  refine (removeSubscription_outcome sound.live.notReset topic).succeeds_mono
    fun _ state' changed => sound.resubscribe changed ?_
  intro other present _
  exact .inl (mem_of_mem_erase present)

end

theorem onQueued_insert_sound {add remove : Option String}
    (sound : state.Sound tracked { add, remove }) :
    SoundAfter tracked { remove } (onQueued insertSubscription add) state := by
  have rest : state.Sound tracked { remove } :=
    ⟨sound.settled, sound.live, sound.judged, by rintro _ ⟨⟩, .inl rfl⟩
  cases add with
  | none => exact ⟨(), rfl, rest⟩
  | some topic => exact insertSubscription_sound rest (sound.added topic rfl)

theorem onQueued_remove_sound {remove : Option String} (sound : state.Sound tracked { remove }) :
    SoundAfter tracked {} (onQueued removeSubscription remove) state := by
  cases remove with
  | none => exact ⟨(), rfl, sound⟩
  | some topic =>
    apply (removeSubscription_outcome sound.live.notReset topic).succeeds_mono
    intro _ state' changed
    refine ⟨?_, changed.live sound.live, ?_, by rintro _ ⟨⟩, .inl rfl⟩
    · rw [changed.cache]
      exact sound.settled
    · intro other present follow _
      rw [changed.subscribed, mem_erase] at present
      rw [changed.cache]
      exact sound.judged other present.2 follow fun same => present.1 (Option.some.inj same).symm

/-- The database lists the channels of the server that is to be judged again. -/
def EventDatabase.ListsStale (db : EventDatabase) (cache : Cache) (stale : Option String) : Prop :=
  ∀ id, stale = some id → ∀ server, cache.servers.lookup id = some server →
    db.Lists id server.channels

/-- Working off the queue leaves no exceptions. -/
theorem settleQueue_sound (event : EventV1) (sound : state.Sound tracked queue)
    (lists : db.ListsStale state.cache queue.server) : SoundAfter tracked {} (do
      let event ← recalculateQueued db now event queue.server
      onQueued insertSubscription queue.add
      onQueued removeSubscription queue.remove
      return (true, event)) state := by
  obtain ⟨server, add, remove⟩ := queue
  cases server with
  | none =>
    apply Outcome.succeeds_bind (onQueued_insert_sound sound)
    intro _ state₁ sound₁
    apply Outcome.succeeds_bind (onQueued_remove_sound sound₁)
    intro _ state₂ sound₂
    exact ⟨_, rfl, sound₂⟩
  | some id =>
    -- A server to be judged again leaves no single channel in the queue.
    obtain ⟨⟨⟩, ⟨⟩⟩ : add = none ∧ remove = none := sound.single.resolve_left (by rintro ⟨⟩)
    apply Outcome.succeeds_bind (recalculateServer_sound sound (lists id rfl))
    intro event' state₁ sound₁
    exact ⟨_, rfl, sound₁⟩

end Queue

end Company
