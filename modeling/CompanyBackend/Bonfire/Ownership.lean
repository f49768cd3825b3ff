import CompanyBackend.Bonfire.Identity
import CompanyBackend.Users.Sequential

/-!
# The cached memberships and users of a connection

At the start the members of all participants of calls are cached, under their server only,
so a call may leave the membership of somebody else where the user's own is expected. After
the start the cached members stay those of the user.

The users are cached under their own ids at the start. An event about a relationship names
the user who is told and carries the other one, and the connection stores what it carries
under the id that it names.
-/

namespace Company

open Request HashMap List

/-- The event brings no membership but that of the user and server that it
names. -/
def EventV1.NamesMember : EventV1 → Prop
  | .serverCreate id server _ => server.id = id
  | .serverMemberUpdate id data _ => ∀ other ∈ data.id, other = id
  | _ => True

/-- The database finds memberships by the ids in them. -/
structure ReadyDatabase.FindsMembers (db : ReadyDatabase) (user : User) : Prop where
  memberships : ∀ members, db.fetchAllMemberships user.id = .ok members →
    ∀ member ∈ members, member.id.user = user.id
  members : ∀ serverId ids members, db.fetchMembers serverId ids = .ok members →
    ∀ member ∈ members, member.id.user ∈ ids

/-- In the server channels that are shown at the start nobody but the user takes
part in a call, or calls are not asked for. -/
def ReadyDatabase.OwnCalls (db : ReadyDatabase) (now : Timestamp) (fields : ReadyPayloadFields)
    (user : User) : Prop :=
  fields.voiceStates = true → ∀ loaded : Loaded, loaded.Answers db now fields user →
    ∀ channel ∈ loaded.channels, channel.server.isSome →
      ∀ state, db.getChannelVoiceState channel = .ok (some state) →
        ∀ participant ∈ state.participants, participant = user.id

variable {turns : List Turn} {now : Timestamp} {event : EventV1}

section Members

variable {identity : Identity}

theorem EventV1.identify_userId (now : Timestamp) (identity : Identity) (event : EventV1) :
    (event.identify now identity).userId = identity.userId := by
  cases event with
  | serverMemberLeave id user | serverMemberUpdate id data clear =>
    rw [identify]
    split <;> rfl
  | _ => rfl

theorem Turn.foldl_identify_userId (turns : List Turn) (identity : Identity) :
    (turns.foldl Turn.identify identity).userId = identity.userId := by
  refine read_foldl_edit Identity.userId ?_ turns identity
  intro identity turn
  rw [Turn.identify]
  split
  · exact EventV1.identify_userId _ _ _
  · rfl

variable (own : identity.OwnMembers)

include own

theorem Identity.OwnMembers.erase (id : String) :
    Identity.OwnMembers { identity with members := identity.members.erase id } :=
  forall_erase own

theorem Identity.OwnMembers.modify (id : String) {f : Member → Member}
    (named : ∀ member, member.id = { server := id, user := identity.userId } →
      (f member).id = member.id) :
    Identity.OwnMembers { identity with members := identity.members.modify id f } := by
  refine forall_modify own ?_
  intro member stored
  have known := own id member stored
  exact (named member known).trans known

omit own in
theorem Identity.not_ownMembers {id : String} {member : Member}
    (stored : identity.members.lookup id = some member)
    (foreign : member.id.user ≠ identity.userId) : ¬ identity.OwnMembers := by
  intro own
  rw [own id member stored] at foreign
  exact foreign rfl

/-- A well-formed event keeps the cached members those of the user. -/
theorem Identity.OwnMembers.identify (named : event.NamesMember) :
    (event.identify now identity).OwnMembers := by
  cases event with
  | serverCreate id server channels =>
    have same : server.id = id := named
    refine forall_put own ?_
    rw [same]
    rfl
  | serverMemberLeave id user =>
    rw [EventV1.identify]
    split
    · exact own.erase id
    · exact own
  | serverDelete id => exact own.erase id
  | serverMemberUpdate id data clear =>
    rw [EventV1.identify]
    split
    · next same =>
      refine own.modify id.server ?_
      intro member known
      cases renamed : data.id with
      | none =>
        rw [Member.applyOptions, renamed, Option.getD_none, Member.foldl_removeField_id]
      | some other =>
        have self : other = id := named other renamed
        rw [Member.applyOptions, renamed, Option.getD_some, self, known, ← beq_iff_eq.mp same]
    · exact own
  | _ => exact own

theorem Identity.OwnMembers.run
    (named : ∀ turn ∈ turns, ∀ delivery ∈ turn.delivery, delivery.event.NamesMember) :
    (turns.foldl Turn.identify identity).OwnMembers := by
  induction turns generalizing identity with
  | nil => exact own
  | cons turn turns ih =>
    rw [foldl_cons]
    refine ih ?_ fun later listed => named later (mem_cons_of_mem _ listed)
    rw [Turn.identify]
    split
    · next delivery delivered =>
      exact own.identify (named turn mem_cons_self delivery delivered)
    · exact own

omit own in
/-- The members that are cached at the start are those of the user, if no call
brings the membership of somebody else. -/
theorem Loaded.ownMembers {db : ReadyDatabase} {fields : ReadyPayloadFields} {user : User}
    {loaded : Loaded} (finds : db.FindsMembers user) (quiet : db.OwnCalls now fields user)
    (answers : loaded.Answers db now fields user) : (loaded.cache user).identity.OwnMembers := by
  intro id member stored
  have ownRow : member.id.user = user.id → member.id = { server := id, user := user.id } := by
    intro same
    rw [← same, ← (of_lookup_putBy_empty stored).2]
  rcases mem_append.mp (of_lookup_putBy_empty stored).1 with joined | called
  · exact ownRow (finds.memberships _ answers.memberships member joined)
  · obtain ⟨_, _, answer, answered, inside, calls⟩ :=
      ReadyDatabase.of_voiceMembers answers.voiceMembers member called
    obtain ⟨state, among, located, takesPart⟩ :=
      calls _ (finds.members _ _ answer answered member inside)
    split at among
    · next voice =>
      obtain ⟨shown, read⟩ := ReadyDatabase.mem_voiceStates among
      exact ownRow (quiet voice loaded answers state.1 shown located state.2 read _ takesPart)
    · cases among

end Members

/-- In every run in which no call brings the membership of somebody else at the
start, the cached members are the memberships of the connected user. -/
theorem cached_members_own {db : ReadyDatabase} {now : Timestamp} {fields : ReadyPayloadFields}
    {user : User} {sessionId : String} {payload : ReadyPayload} {start state : State}
    {turns : List Turn} (finds : db.FindsMembers user) (quiet : db.OwnCalls now fields user)
    (began : generateReadyPayload db now fields (State.fromUser user sessionId) =
      (.ok payload, start))
    (named : ∀ turn ∈ turns, ∀ delivery ∈ turn.delivery, delivery.event.NamesMember)
    (ran : forEach listen turns start = (.ok (), state)) :
    state.cache.userId = user.id ∧ state.cache.identity.OwnMembers := by
  obtain ⟨loaded, answers, within⟩ := (generateReadyPayload_loaded sessionId).elim began payload rfl
  have reached := identity_of_run ran
  rw [within.cache] at reached
  constructor
  · calc state.cache.userId
      _ = (turns.foldl Turn.identify (loaded.cache user).identity).userId :=
          congrArg Identity.userId reached
      _ = user.id := Turn.foldl_identify_userId turns _
  · rw [reached]
    exact (Loaded.ownMembers finds quiet answers).run named

/-! The court with a call in its hall. -/

def ownerMember : Member where
  id := { server := "server", user := "owner" }

def callHall : TextChannel := { hall with voice := some {} }

variable (participant : String)

/-- The reads of a member of the court while one participant is in the call. -/
def callReads : ReadyDatabase :=
  { courtReads openCourt with
    fetchChannels := fun ids => .ok ([.textChannel callHall].filter fun channel =>
      ids.contains channel.id)
    getChannelVoiceState := fun channel =>
      .ok (some { id := channel.id, participants := [participant] })
    fetchMembers := fun _ ids => .ok ([courtMember, ownerMember].filter fun member =>
      ids.contains member.id.user) }

theorem callReads_finds : (callReads participant).FindsMembers sampleUser := by
  constructor
  · rintro _ ⟨⟩ member listed
    rw [mem_singleton.mp listed]
    rfl
  · rintro _ ids _ ⟨⟩ member listed
    exact contains_iff_mem.mp (mem_filter.mp listed).2

def callStart : State :=
  (generateReadyPayload (callReads participant) 0 {} (State.fromUser sampleUser "session")).2

def promotion : Turn where
  delivery := some {
    db := (callReads "member").toEventDatabase
    now := 1
    event := .serverMemberUpdate courtMember.id { roles := some ["staff"] } [] }

def promoted : State := (forEach listen [promotion] (callStart "member")).2

theorem cached_members_own_sample :
    promoted.cache.identity.OwnMembers ∧
      (promoted.cache.members.lookup "server").map Member.roles = some ["staff"] := by
  obtain ⟨payload, began⟩ : ∃ payload, generateReadyPayload (callReads "member") 0 {}
      (State.fromUser sampleUser "session") = (.ok payload, callStart "member") :=
    exists_of_isOk (by decide +kernel)
  obtain ⟨_, ran⟩ : ∃ a, forEach listen [promotion] (callStart "member") = (.ok a, promoted) :=
    exists_of_isOk (by decide +kernel)
  have quiet : (callReads "member").OwnCalls 0 {} sampleUser := by
    rintro _ _ _ _ _ _ _ ⟨⟩ participant takesPart
    exact mem_singleton.mp takesPart
  have named : ∀ turn ∈ [promotion], ∀ delivery ∈ turn.delivery, delivery.event.NamesMember := by
    intro turn listed
    rw [mem_singleton.mp listed]
    rintro _ ⟨⟩ _ ⟨⟩
  exact ⟨(cached_members_own (callReads_finds _) quiet began named ran).2, by decide +kernel⟩

/-- While the owner is in the call, the owner's membership is cached as that of
the member. -/
theorem caller_member_cached :
    (callReads "owner").FindsMembers sampleUser ∧
      (∃ payload, generateReadyPayload (callReads "owner") 0 {}
        (State.fromUser sampleUser "session") = (.ok payload, callStart "owner")) ∧
      (callStart "owner").cache.members.lookup "server" = some ownerMember ∧
      ¬ (callStart "owner").cache.identity.OwnMembers := by
  refine ⟨callReads_finds _, exists_of_isOk (by decide +kernel), by decide +kernel, ?_⟩
  apply @Identity.not_ownMembers (callStart "owner").cache.identity "server" ownerMember
  all_goals decide +kernel

/-- An event about a relationship carries the user that it names. -/
def EventV1.NamesUser : EventV1 → Prop
  | .userRelationship id user => user.id = id
  | _ => True

/-- The user under a key has the key as id, and there is one under the given
id. -/
structure Identity.Keyed (own : String) (identity : Identity) : Prop where
  users : identity.KeyedUsers
  present : (identity.users.lookup own).isSome

section Users

variable {own : String} {identity : Identity}

theorem Identity.Keyed.identify_iff (keyed : identity.Keyed own) :
    (event.identify now identity).Keyed own ↔ event.NamesUser := by
  have same : ∀ other : Identity, other.users = identity.users → other.Keyed own := by
    intro other users
    constructor
    · intro id user stored
      rw [users] at stored
      exact keyed.users id user stored
    · rw [users]
      exact keyed.present
  cases event with
  | userRelationship id user =>
    constructor
    · intro after
      exact after.users id user.toUser (lookup_put _ _ _)
    · intro named
      refine ⟨forall_put keyed.users named, ?_⟩
      rw [EventV1.identify]
      by_cases equal : own = id
      · rw [equal, lookup_put]
        rfl
      · rw [lookup_put_ne _ equal]
        exact keyed.present
  | serverMemberLeave id user | serverMemberUpdate id data clear =>
    refine iff_of_true (same _ ?_) trivial
    rw [EventV1.identify]
    split <;> rfl
  | _ => exact iff_of_true (same _ rfl) trivial

theorem Identity.not_keyed {id other : String}
    (stored : (identity.users.lookup id).map User.id = some other) (foreign : other ≠ id) :
    ¬ identity.Keyed own := by
  intro keyed
  obtain ⟨user, found, rfl⟩ := Option.map_eq_some_iff.mp stored
  exact foreign (keyed.users id user found)

theorem Identity.Keyed.turn_iff (keyed : identity.Keyed own) (turn : Turn) :
    (turn.identify identity).Keyed own ↔ ∀ delivery ∈ turn.delivery, delivery.event.NamesUser := by
  rw [Turn.identify]
  split
  · next delivery delivered =>
    rw [keyed.identify_iff, delivered]
    simp
  · next idle =>
    rw [idle]
    exact iff_of_true keyed (by rintro _ ⟨⟩)

/-- The maps stay keyed through a run exactly if each of its events carries the
user that it names. -/
theorem Identity.Keyed.run_iff (keyed : identity.Keyed own) :
    (∀ done, done <+: turns → (done.foldl Turn.identify identity).Keyed own) ↔
      ∀ turn ∈ turns, ∀ delivery ∈ turn.delivery, delivery.event.NamesUser := by
  induction turns generalizing identity with
  | nil =>
    constructor
    · rintro _ _ ⟨⟩
    · intro _ done start
      rw [prefix_nil.mp start]
      exact keyed
  | cons turn turns ih =>
    constructor
    · intro always
      have first := always [turn] ⟨turns, rfl⟩
      have rest := (ih first).mp fun done start =>
        always (turn :: done) ((prefix_cons_inj turn).mpr start)
      exact forall_mem_cons.mpr ⟨(keyed.turn_iff turn).mp first, rest⟩
    · intro named done start
      obtain ⟨now, later⟩ := forall_mem_cons.mp named
      cases done with
      | nil => exact keyed
      | cons first done =>
        obtain ⟨rfl, rest⟩ := cons_prefix_cons.mp start
        exact (ih ((keyed.turn_iff first).mpr now)).mpr later done rest

theorem Loaded.keyed (user : User) (loaded : Loaded) :
    (loaded.cache user).identity.Keyed user.id := by
  constructor
  · exact forall_put (fun _ _ stored => (of_lookup_putBy_empty stored).2) rfl
  · rw [Option.isSome_iff_exists]
    exact ⟨user, lookup_put _ _ _⟩

end Users

/-- In every state of a run the cached users are stored under their ids, that of
the connection included, exactly if every event about a relationship carries the
user that it names. -/
theorem cached_users_keyed_iff {db : ReadyDatabase} {now : Timestamp} {fields : ReadyPayloadFields}
    {user : User} {sessionId : String} {payload : ReadyPayload} {start last : State}
    {turns : List Turn}
    (began : generateReadyPayload db now fields (State.fromUser user sessionId) =
      (.ok payload, start))
    (ran : forEach listen turns start = (.ok (), last)) :
    (∀ done state, done <+: turns → forEach listen done start = (.ok (), state) →
        state.cache.identity.Keyed user.id) ↔
      ∀ turn ∈ turns, ∀ delivery ∈ turn.delivery, delivery.event.NamesUser := by
  obtain ⟨loaded, answers, within⟩ := (generateReadyPayload_loaded sessionId).elim began payload rfl
  have first := loaded.keyed user
  rw [← within.cache] at first
  rw [← first.run_iff]
  constructor
  · rintro always done ⟨rest, rfl⟩
    obtain ⟨state, reached, _⟩ := of_forEach_append ran
    rw [← identity_of_run reached]
    exact always done state ⟨rest, rfl⟩ reached
  · intro always done state start reached
    rw [identity_of_run reached]
    exact always done start

/-! The connection of a user who is sent a friend request. -/

def lonelyReads : ReadyDatabase :=
  { Database.unreachable with
    fetchChannel := fun _ => .error .notFound
    fetchChannels := fun _ => .ok []
    fetchAllMemberships := fun _ => .ok []
    fetchServers := fun _ => .ok []
    findDirectMessages := fun _ => .ok []
    getChannelVoiceState := fun _ => .ok none
    fetchMembers := fun _ _ => .ok []
    fetchUsers := fun _ => .ok []
    fetchPolicyChanges := .ok ()
    fetchEmojiByParentIds := fun _ => .ok ()
    fetchUserSettings := fun _ _ => .ok ()
    fetchUnreads := fun _ => .ok () }

def bobStart : State :=
  (generateReadyPayload lonelyReads 0 {} (State.fromUser bob "session")).2

def Published.turn (published : Published) : Turn where
  delivery := some { db := lonelyReads.toEventDatabase, now := 1, event := published.event }

def introduction : Published where
  topic := privateTopic "bob"
  event := .userRelationship "alice" { id := "alice", relationship := .incoming }

def bobTold : State := (forEach listen [introduction.turn] bobStart).2

theorem cached_users_keyed_iff_sample :
    bobTold.cache.identity.Keyed "bob" ∧
      (bobTold.cache.users.lookup "alice").map User.id = some "alice" := by
  obtain ⟨payload, began⟩ : ∃ payload, generateReadyPayload lonelyReads 0 {}
      (State.fromUser bob "session") = (.ok payload, bobStart) := exists_of_isOk (by decide +kernel)
  obtain ⟨_, ran⟩ : ∃ a, forEach listen [introduction.turn] bobStart = (.ok a, bobTold) :=
    exists_of_isOk (by decide +kernel)
  have named : ∀ turn ∈ [introduction.turn], ∀ delivery ∈ turn.delivery,
      delivery.event.NamesUser := by
    intro turn listed
    rw [mem_singleton.mp listed]
    rintro _ ⟨⟩
    exact rfl
  have always := (cached_users_keyed_iff began ran).mpr named
  exact ⟨always _ _ (prefix_refl _) ran, by decide +kernel⟩

def friendRequest : Except Failure (List Published) :=
  (RelationshipCall.perform quietServices 0 ⟨.addFriend, "alice", "bob"⟩ acquaintances).1

def requestTurns : List Turn :=
  ((friendRequest.toOption.getD []).filter fun published =>
    published.topic = privateTopic "bob").map Published.turn

def bobAsked : State := (forEach listen requestTurns bobStart).2

/-- The request to bob replaces bob in bob's own cache by alice. -/
theorem friend_request_replaces_own_user :
    friendRequest.isOk ∧
      (∃ payload, generateReadyPayload lonelyReads 0 {} (State.fromUser bob "session") =
        (.ok payload, bobStart)) ∧
      privateTopic "bob" ∈ bobStart.subscribed ∧
      forEach listen requestTurns bobStart = (.ok (), bobAsked) ∧
      (bobAsked.cache.users.lookup "bob").map User.id = some "alice" ∧
      ¬ bobAsked.cache.identity.Keyed "bob" := by
  obtain ⟨_, ran⟩ : ∃ a, forEach listen requestTurns bobStart = (.ok a, bobAsked) :=
    exists_of_isOk (by decide +kernel)
  refine ⟨by decide +kernel, exists_of_isOk (by decide +kernel), by decide +kernel, ran,
    by decide +kernel, ?_⟩
  apply @Identity.not_keyed "bob" bobAsked.cache.identity "bob" "alice"
  · decide +kernel
  · decide

end Company
