import CompanyBackend.Library.Interleaving
import CompanyBackend.Library.Resumption
import CompanyBackend.Members.Removal
import CompanyBackend.Voice.ChannelCalls

/-!
# Bans and members

A user who is banned from a server is not to be a member of it. Joining looks for a ban before
it writes the member, and a ban removes the member before it is stored. Each access to the
store is atomic, neither request is: between the look at one collection and the write to the
other, any number of accesses of other requests may come.

A request to join has entered once it has found no ban, until it has written the member. A
request to ban excludes the user once it has looked for the member, until the ban is stored.
While no request excludes, a request may enter, and while none has entered, one may exclude:
then the user is never both.
-/

namespace Company

open Request Pool Route

/-- A user, and a server that they are let into or banned from. -/
structure Admission where
  readSeconds : Timestamp → Option Timestamp
  describe : DataBanCreate → String
  server : String
  user : String

namespace Admission

variable (site : Admission)

def key : MemberCompositeKey := { server := site.server, user := site.user }

def newMember (now : Timestamp) : Member := { id := site.key, joinedAt := now }

def Banned (backend : Backend) : Prop := (backend.fetchBan site.server site.user).isOk = true

def IsMember (backend : Backend) :
    Prop := (backend.db.fetchMember site.server site.user).isOk = true

instance decidableBanned (backend : Backend) : Decidable (site.Banned backend) :=
  inferInstanceAs (Decidable (_ = true))

instance decidableIsMember (backend : Backend) : Decidable (site.IsMember backend) :=
  inferInstanceAs (Decidable (_ = true))

def lookUpBan : Task Unit := do
  let ban ← result (attempt fun backend =>
    (backend.fetchBan site.server site.user).mapError Failure.error)
  ensure (!ban.isOk) (.error .banned)

def lookUpMember : Task Unit := do
  let existing ← result (Task.ofRoute (fetch fun db => db.fetchMember site.server site.user))
  ensure (!existing.isOk) (.error .alreadyInServer)

def findDocument : Task (Option MemberDocument) :=
  Task.ofRoute (fetch fun db => .ok (db.serverMembers.find site.key))

/-- Take back the document that was found to be marked. It may be gone, and then
nothing is written. -/
def mergeDocument (now : Timestamp) : Task Unit := do
  let joinedAt := site.readSeconds now
  match ← site.findDocument with
  | some document => do
    Task.ofRoute (update fun db => .ok (db.mergeMember site.key joinedAt))
    let _ ← Task.ofRoute (lift (document.merged joinedAt).decoded)
    return ()
  | none => return ()

/-- Insert a document. The key may be taken. -/
def insertDocument (now : Timestamp) : Task Unit :=
  Task.ofRoute (update fun db =>
    if (db.serverMembers.find site.key).isSome then
      .error (.databaseError "insert_one" "server_members")
    else .ok (db.insertMember (site.newMember now)))

variable (services : VoiceServices)

def authorise (moderator : User) (data : DataBanCreate) :
    Task (Server × DatabasePermissionQuery) := do
  ensure data.valid (.error (.failedValidation (site.describe data)))
  Task.ofRoute (moderatedServer services.now moderator site.server site.user .banMembers)

def findTarget (server : Server) (query : DatabasePermissionQuery) : Task (Option Member) := do
  match ← result (Task.ofRoute (fetch fun db => db.fetchMember server.id site.user)) with
  | .ok member => do
    Task.ofRoute (ensureBelow query member)
    return some member
  | .error _ => return none

def refetchTarget (id : MemberCompositeKey) : Task Member := do
  match ← result (Task.ofRoute (fetch fun db => db.fetchMember id.server id.user)) with
  | .ok member => return member
  | .error _ => fail (.error (.databaseError "fetch_member" "server_members"))

def dropTarget (id : MemberCompositeKey) (timeout : Option Timestamp) : Task Unit :=
  Task.ofRoute (update fun db => .ok (db.dropMember services.now id timeout))

def releaseTarget (server : Server) (id : MemberCompositeKey) : Task Unit := do
  releaseCompanion id
  removeFromCall services site.user server.id

end Admission

open Admission

/-- How far a request has come, with what it has found out. -/
inductive AdmissionProgress where
  | joining (now : Timestamp)
  /-- There was no ban. -/
  | admitted (now : Timestamp)
  /-- There was no member. -/
  | absent (now : Timestamp)
  /-- There was a document that is marked for deletion. -/
  | marked (now : Timestamp)
  | unmarked (now : Timestamp)
  | banning (services : VoiceServices) (moderator : User) (data : DataBanCreate)
  | authorised (services : VoiceServices) (data : DataBanCreate) (server : Server)
      (query : DatabasePermissionQuery)
  /-- There was a member, who is below the moderator. -/
  | removing (services : VoiceServices) (data : DataBanCreate) (server : Server) (member : Member)
  | dropping (services : VoiceServices) (data : DataBanCreate) (server : Server) (member : Member)
      (timeout : Option Timestamp)
  | dropped (services : VoiceServices) (data : DataBanCreate) (server : Server) (member : Member)
  | storing (data : DataBanCreate) (server : Server)
  | ended (result : Except Failure Unit)

namespace AdmissionProgress

/-- The next access to the members or to the bans. -/
def next (site : Admission) : AdmissionProgress → Backend → AdmissionProgress × Backend
  | joining now => step site.lookUpBan fun _ => admitted now
  | admitted now => step site.lookUpMember fun _ => absent now
  | absent now => step site.findDocument fun document =>
    if document.any (·.pendingDeletionAt.isSome) then marked now else unmarked now
  | marked now => step (site.mergeDocument now) fun _ => ended (.ok ())
  | unmarked now => step (site.insertDocument now) fun _ => ended (.ok ())
  | banning services moderator data => step (site.authorise services moderator data)
      fun moderated => authorised services data moderated.1 moderated.2
  | authorised services data server query => step (site.findTarget server query) fun
      | some member => removing services data server member
      | none => storing data server
  | removing services data server member => step (refetchTarget member.id)
      fun stored => dropping services data server member stored.timeout
  | dropping services data server member timeout =>
    step (Admission.dropTarget services member.id timeout) fun _ =>
      dropped services data server member
  | dropped services data server member => step (site.releaseTarget services server member.id)
      fun _ => storing data server
  | storing data server => step (ServerBan.create server site.user data.reason)
      fun _ => ended (.ok ())
  | ended result => fun backend => (ended result, backend)
where
  step {α : Type} (command : Task α) (resume : α → AdmissionProgress) :=
    advance command resume fun e => ended (.error e)

def isBegun : AdmissionProgress → Bool
  | joining _ | banning .. => true
  | _ => false

def result : AdmissionProgress → Option (Except Failure Unit)
  | ended result => some result
  | _ => none

def hasEntered : AdmissionProgress → Bool
  | admitted _ | absent _ | marked _ | unmarked _ => true
  | _ => false

/-- The member has been looked for, and the ban has not been stored. -/
def isExcluding : AdmissionProgress → Bool
  | removing .. | dropping .. | dropped .. | storing .. => true
  | _ => false

def hasRemoved : AdmissionProgress → Bool
  | dropped .. | storing .. => true
  | _ => false

def looksForBan : AdmissionProgress → Bool
  | joining _ => true
  | _ => false

/-- The next access is the one that looks for the member to remove. -/
def looksForTarget : AdmissionProgress → Bool
  | authorised .. => true
  | _ => false

/-- What a request has loaded is what it asked for. -/
def About (site : Admission) : AdmissionProgress → Prop
  | authorised _ _ server _ => server.id = site.server
  | removing _ _ _ member | dropping _ _ _ member _ | dropped _ _ _ member => member.id = site.key
  | _ => True

end AdmissionProgress

variable {site : Admission} {α : Type}

namespace Admission

variable {backend backend' : Backend} {services : VoiceServices}

theorem readOnly_fetchResult (g : MongoDb → Result α) :
    ReadOnly (result (Task.ofRoute (fetch g))) := fun _ => rfl

theorem fetchResult_run {g : MongoDb → Result α} {fetched : Result α}
    (read : g backend.db = fetched) :
    result (Task.ofRoute (fetch g)) backend = (.ok (fetched.mapError .error), backend) := by
  subst read
  rfl

theorem lookUpBan_readOnly : ReadOnly site.lookUpBan :=
  (readOnly_attempt _).result.bind fun _ => readOnly_ensure _ _

theorem lookUpBan_ok (ran : site.lookUpBan backend = (.ok (), backend')) :
    ¬site.Banned backend := by
  intro banned
  cases found : backend.fetchBan site.server site.user with
  | error e =>
    rw [Banned, found] at banned
    cases banned
  | ok ban =>
    rw [lookUpBan, bind_of_ok (result_attempt_run ..), found] at ran
    cases ran

theorem lookUpMember_readOnly : ReadOnly site.lookUpMember :=
  (readOnly_fetchResult _).bind fun _ => readOnly_ensure _ _

theorem findDocument_readOnly : ReadOnly site.findDocument := fun _ => rfl

theorem mergeDocument_bans (now : Timestamp) (bans : Collection MemberCompositeKey ServerBan _) :
    Keeps (fun backend : Backend => backend.bans = bans) (site.mergeDocument now) := by
  refine findDocument_readOnly.keeps.bind fun found => ?_
  cases found with
  | none => exact (readOnly_pure ()).keeps
  | some document =>
    have written : Keeps (fun backend : Backend => backend.bans = bans)
        (Task.ofRoute (update fun db =>
          .ok (db.mergeMember site.key (site.readSeconds now)))) := fun _ same => same
    have decoded : ReadOnly (Task.ofRoute
        (lift (document.merged (site.readSeconds now)).decoded)) := fun _ => rfl
    exact written.bind fun _ => (decoded.bind fun _ => readOnly_pure ()).keeps

theorem authorise_readOnly (moderator : User) (data : DataBanCreate) :
    ReadOnly (site.authorise services moderator data) :=
  (readOnly_ensure _ _).bind fun _ =>
    Task.ofRoute_readOnly (moderatedServer_readOnly _ _ _ _ _)

theorem authorise_ok {moderator : User} {data : DataBanCreate}
    {moderated : Server × DatabasePermissionQuery}
    (ran : site.authorise services moderator data backend = (.ok moderated, backend')) :
    moderated.1.id = site.server := by
  have checked := (of_ensure_bind_eq_ok ran).2
  exact moderatedServer_id (Task.of_ofRoute_eq checked).1

theorem findTarget_readOnly (server : Server) (query : DatabasePermissionQuery) :
    ReadOnly (site.findTarget server query) := by
  refine (readOnly_fetchResult _).bind fun fetched => ?_
  cases fetched with
  | ok member =>
    exact (Task.ofRoute_readOnly (ensureBelow_readOnly query member)).bind fun _ =>
      readOnly_pure _
  | error e => exact readOnly_pure _

variable {query : DatabasePermissionQuery} {server : Server}

theorem findTarget_some {member : Member} (same : server.id = site.server)
    (ran : site.findTarget server query backend = (.ok (some member), backend')) :
    member.id = site.key := by
  rw [findTarget, same] at ran
  cases fetched : backend.db.fetchMember site.server site.user with
  | error e =>
    rw [bind_of_ok (fetchResult_run fetched)] at ran
    cases ran
  | ok stored =>
    rw [bind_of_ok (fetchResult_run fetched)] at ran
    obtain ⟨_, _, _, ⟨⟩⟩ := of_bind_eq_ok ran
    exact MongoDb.fetchMember_id fetched

theorem findTarget_none (same : server.id = site.server)
    (ran : site.findTarget server query backend = (.ok none, backend')) :
    ¬site.IsMember backend := by
  intro isMember
  rw [findTarget, same] at ran
  cases fetched : backend.db.fetchMember site.server site.user with
  | error e =>
    rw [IsMember, fetched] at isMember
    cases isMember
  | ok stored =>
    rw [bind_of_ok (fetchResult_run fetched)] at ran
    obtain ⟨_, _, _, ⟨⟩⟩ := of_bind_eq_ok ran

theorem refetchTarget_readOnly (id : MemberCompositeKey) : ReadOnly (refetchTarget id) := by
  refine (readOnly_fetchResult _).bind fun fetched => ?_
  cases fetched with
  | ok member => exact readOnly_pure _
  | error e => exact readOnly_fail _

/-- Whether the document is marked or deleted, there is no member. -/
theorem dropTarget_gone (timeout : Option Timestamp) :
    ¬site.IsMember (dropTarget services site.key timeout backend).2 := by
  have gone : ((backend.db.dropMember services.now site.key timeout).fetchMember site.server
      site.user).isOk = false := MongoDb.fetchMember_dropMember timeout
  exact Bool.eq_false_iff.mp gone

theorem removeFromCall_quiet (services : VoiceServices) (userId serverId : String) :
    Task.Quiet (removeFromCall services userId serverId) := by
  refine (Task.quiet_readVoice _).bind fun channel => ?_
  cases channel with
  | some channelId => exact Task.removeUserFromVoiceChannel_quiet services channelId userId
  | none => exact Task.quiet_pure ()

theorem releaseTarget_same (server : Server) (id : MemberCompositeKey) :
    (site.releaseTarget services server id backend).2.db = backend.db ∧
      (site.releaseTarget services server id backend).2.bans = backend.bans := by
  have released :
      Keeps (fun stored : Backend => stored.db = backend.db ∧ stored.bans = backend.bans)
      (releaseCompanion id) := releaseCompanion_keeps id fun _ _ same => same
  have left : Keeps (fun stored : Backend => stored.db = backend.db ∧ stored.bans = backend.bans)
      (removeFromCall services site.user server.id) := by
    intro middle same
    have quiet := removeFromCall_quiet services site.user server.id middle
    exact ⟨quiet.db.trans same.1, quiet.bans.trans same.2⟩
  exact (released.bind fun _ => left) backend ⟨rfl, rfl⟩

end Admission

variable {backend : Backend}

namespace AdmissionProgress

/-- What an access may do to a ban, to a member and to the request that makes
it. -/
structure Effect (site : Admission) (before : AdmissionProgress) (backend : Backend)
    (after : AdmissionProgress) (backend' : Backend) : Prop where
  bans : site.Banned backend' → site.Banned backend ∨ before.hasRemoved
  joins : site.IsMember backend' → site.IsMember backend ∨ before.hasEntered
  enters : after.hasEntered → before.hasEntered ∨ before.looksForBan ∧ ¬site.Banned backend'
  excludes : after.isExcluding → before.isExcluding ∨ before.looksForTarget
  removes : after.hasRemoved → before.hasRemoved ∨ ¬site.IsMember backend'
  about : after.About site

variable {backend backend' : Backend} {before after : AdmissionProgress}
variable {r : Except Failure Unit}

theorem Effect.ended (bans : site.Banned backend' → site.Banned backend ∨ before.hasRemoved)
    (joins : site.IsMember backend' → site.IsMember backend ∨ before.hasEntered) :
    Effect site before backend (ended r) backend' := by
  refine ⟨bans, joins, ?_, ?_, ?_, trivial⟩ <;> rintro ⟨⟩

variable {command : Task α}

theorem Effect.of_read {resume : α → AdmissionProgress} (readOnly : ReadOnly command)
    (goesOn : ∀ a, command backend = (.ok a, backend) →
      Effect site before backend (resume a) backend) :
    Effect site before backend (next.step command resume backend).1
      (next.step command resume backend).2 := by
  refine advance_elim (P := Effect site before backend) ?_ ?_
  · intro a backend' ran
    obtain rfl := readOnly.of_ran ran
    exact goesOn a ran
  · intro e backend' ran
    obtain rfl := readOnly.of_ran ran
    exact .ended .inl .inl

theorem Effect.of_last
    (bans : site.Banned (command backend).2 → site.Banned backend ∨ before.hasRemoved)
    (joins : site.IsMember (command backend).2 → site.IsMember backend ∨ before.hasEntered) :
    Effect site before backend (next.step command (fun _ => .ended r) backend).1
      (next.step command (fun _ => .ended r) backend).2 := by
  refine advance_elim (P := Effect site before backend) ?_ ?_
  · intro a backend' ran
    rw [ran] at bans joins
    exact .ended bans joins
  · intro e backend' ran
    rw [ran] at bans joins
    exact .ended bans joins

theorem Effect.keepsMember (site : Admission) {backend' : Backend}
    (same : backend'.db = backend.db) : site.IsMember backend' → site.IsMember backend := by
  intro isMember
  rwa [Admission.IsMember, same] at isMember

theorem Effect.keepsBan (site : Admission) {backend' : Backend}
    (same : backend'.bans = backend.bans) : site.Banned backend' → site.Banned backend := by
  intro banned
  rwa [Admission.Banned, Backend.fetchBan, same] at banned

open Effect

theorem next_effect (about : before.About site) :
    Effect site before backend (next site before backend).1 (next site before backend).2 := by
  cases before with
  | joining now =>
    refine .of_read lookUpBan_readOnly fun _ ran => ?_
    refine ⟨.inl, .inl, fun _ => .inr ⟨rfl, lookUpBan_ok ran⟩, ?_, ?_, trivial⟩ <;> rintro ⟨⟩
  | admitted now =>
    refine .of_read lookUpMember_readOnly fun _ _ => ?_
    refine ⟨.inl, .inl, fun _ => .inl rfl, ?_, ?_, trivial⟩ <;> rintro ⟨⟩
  | absent now =>
    refine .of_read findDocument_readOnly fun document _ => ?_
    split
    all_goals refine ⟨.inl, .inl, fun _ => .inl rfl, ?_, ?_, trivial⟩ <;> rintro ⟨⟩
  | marked now =>
    exact .of_last
      (fun banned => .inl (keepsBan site (mergeDocument_bans now _ _ rfl) banned))
      fun _ => .inr rfl
  | unmarked now =>
    exact .of_last (fun banned => .inl (keepsBan site rfl banned)) fun _ => .inr rfl
  | banning services moderator data =>
    refine .of_read (authorise_readOnly moderator data) fun moderated ran => ?_
    refine ⟨.inl, .inl, ?_, ?_, ?_, authorise_ok ran⟩ <;> rintro ⟨⟩
  | authorised services data server query =>
    refine .of_read (findTarget_readOnly server query) fun target ran => ?_
    cases target with
    | some member =>
      refine ⟨.inl, .inl, ?_, fun _ => .inr rfl, ?_, findTarget_some about ran⟩ <;> rintro ⟨⟩
    | none =>
      refine ⟨.inl, .inl, ?_, fun _ => .inr rfl, fun _ => .inr (findTarget_none about ran), trivial⟩
      rintro ⟨⟩
  | removing services data server member =>
    refine .of_read (refetchTarget_readOnly member.id) fun stored _ => ?_
    refine ⟨.inl, .inl, ?_, fun _ => .inl rfl, ?_, about⟩ <;> rintro ⟨⟩
  | dropping services data server member timeout =>
    have gone : ¬site.IsMember (Admission.dropTarget services member.id timeout backend).2 := by
      rw [show member.id = site.key from about]
      exact dropTarget_gone timeout
    refine ⟨fun banned => .inl (keepsBan site rfl banned), fun isMember => ?_, ?_,
      fun _ => .inl rfl, fun _ => .inr gone, about⟩
    · exact absurd isMember gone
    · rintro ⟨⟩
  | dropped services data server member =>
    obtain ⟨db, bans⟩ := @releaseTarget_same site backend services server member.id
    refine advance_elim (P := Effect site (dropped services data server member) backend) ?_ ?_
    · intro _ backend' ran
      rw [ran] at db bans
      refine ⟨fun banned => .inl (keepsBan site bans banned),
        fun isMember => .inl (keepsMember site db isMember), ?_, fun _ => .inl rfl,
        fun _ => .inl rfl, trivial⟩
      rintro ⟨⟩
    · intro e backend' ran
      rw [ran] at db bans
      exact .ended (fun banned => .inl (keepsBan site bans banned))
        fun isMember => .inl (keepsMember site db isMember)
  | storing data server =>
    refine .of_last (fun _ => .inr rfl) fun isMember => .inl ?_
    have same : Keeps (fun stored : Backend => stored.db = backend.db)
        (ServerBan.create server site.user data.reason) :=
      ServerBan.create_keeps server site.user data.reason fun _ _ same => same
    exact keepsMember site (same backend rfl) isMember
  | ended r => exact .ended .inl .inl

end AdmissionProgress

/-! ## Interleavings -/

abbrev AdmissionPool (ι : Type) := Pool ι AdmissionProgress Backend

/-- A request looks for a ban only while no other one excludes the user, and for
the member to remove only while no other one has entered. -/
def TakesTurns {ι : Type} (pool : AdmissionPool ι) (i : ι) : Prop :=
  ((pool.calls i).looksForBan = true → ∀ j, (pool.calls j).isExcluding = false) ∧
    ((pool.calls i).looksForTarget = true → ∀ j, (pool.calls j).hasEntered = false)

instance decidableTakesTurns {ι : Type} [Fintype ι] (pool : AdmissionPool ι) (i : ι) :
    Decidable (TakesTurns pool i) :=
  inferInstanceAs (Decidable (_ ∧ _))

/-- The user is not both banned and a member, and the requests in progress keep
it so. -/
structure AdmissionPool.Exclusive {ι : Type} (site : Admission) (pool : AdmissionPool ι) :
    Prop where
  exclusive : ¬(site.Banned pool.store ∧ site.IsMember pool.store)
  about : ∀ i, (pool.calls i).About site
  entered : ∀ i, (pool.calls i).hasEntered → ¬site.Banned pool.store
  removed : ∀ i, (pool.calls i).hasRemoved → ¬site.IsMember pool.store
  separate : ∀ i j, (pool.calls i).hasEntered → (pool.calls j).isExcluding = false

section Interleavings

open AdmissionProgress

variable {ι : Type} {pool : AdmissionPool ι} {request : AdmissionProgress}

theorem AdmissionProgress.begun_cases (begun : request.isBegun) :
    request.hasEntered = false ∧ request.isExcluding = false ∧ request.hasRemoved = false ∧
      request.About site := by
  cases request <;> first | exact ⟨rfl, rfl, rfl, trivial⟩ | cases begun

theorem AdmissionProgress.excluding_of_removed (removed : request.hasRemoved) :
    request.isExcluding := by
  cases request <;> first | rfl | cases removed

theorem AdmissionProgress.not_excluding_of_entered (entered : request.hasEntered) :
    request.isExcluding = false := by
  cases request <;> first | rfl | cases entered

variable (held : pool.Exclusive site)

include held

variable {i j : ι}

theorem AdmissionPool.Exclusive.not_removed
    (entered : (pool.calls i).hasEntered) : ¬(pool.calls j).hasRemoved := by
  intro removed
  have excluding := excluding_of_removed removed
  rw [held.separate i j entered] at excluding
  cases excluding

/-- A ban is stored when no request has entered. -/
theorem AdmissionPool.Exclusive.unbanned
    (bans : site.Banned backend → site.Banned pool.store ∨ (pool.calls i).hasRemoved)
    (entered : (pool.calls j).hasEntered) : ¬site.Banned backend := by
  intro banned
  rcases bans banned with before | removed
  · exact held.entered j entered before
  · exact held.not_removed entered removed

/-- A member is written when no request has removed it. -/
theorem AdmissionPool.Exclusive.absent
    (joins : site.IsMember backend → site.IsMember pool.store ∨ (pool.calls i).hasEntered)
    (removed : (pool.calls j).hasRemoved) : ¬site.IsMember backend := by
  intro isMember
  rcases joins isMember with before | entered
  · exact held.removed j removed before
  · exact held.not_removed entered removed

theorem AdmissionPool.Exclusive.step [DecidableEq ι] (i : ι)
    (turns : TakesTurns pool i) : AdmissionPool.Exclusive site (pool.step (next site) i) := by
  have effect := @next_effect site pool.store _ (held.about i)
  constructor
  · rintro ⟨banned, isMember⟩
    rcases effect.bans banned with before | removed
    · rcases effect.joins isMember with member | entered
      · exact held.exclusive ⟨before, member⟩
      · exact held.entered i entered before
    · exact held.absent effect.joins removed isMember
  · exact forall_step effect.about fun j _ => held.about j
  · refine forall_step (P := fun _ request => hasEntered request = true → ¬site.Banned _) ?_ ?_
    · intro entered
      rcases effect.enters entered with before | ⟨_, unbanned⟩
      · exact held.unbanned effect.bans before
      · exact unbanned
    · intro j _ entered
      exact held.unbanned effect.bans entered
  · refine forall_step (P := fun _ request => hasRemoved request = true → ¬site.IsMember _) ?_ ?_
    · intro removed
      rcases effect.removes removed with before | gone
      · exact held.absent effect.joins before
      · exact gone
    · intro j _ removed
      exact held.absent effect.joins removed
  · intro j k entered
    by_cases own : j = i <;> by_cases own' : k = i
    · subst own own'
      exact not_excluding_of_entered entered
    · subst own
      rw [step_self] at entered
      rw [Pool.step_ne own']
      rcases effect.enters entered with before | ⟨looks, _⟩
      · exact held.separate j k before
      · exact turns.1 looks k
    · subst own'
      rw [Pool.step_ne own] at entered
      by_contra excluding
      rw [step_self, Bool.not_eq_false] at excluding
      rcases effect.excludes excluding with before | looks
      · exact Bool.false_ne_true ((held.separate j k entered).symm.trans before)
      · exact Bool.false_ne_true ((turns.2 looks j).symm.trans entered)
    · rw [Pool.step_ne own] at entered
      rw [Pool.step_ne own']
      exact held.separate j k entered

end Interleavings

open AdmissionProgress

/-- Requests to join and requests to ban the user, in any interleaving in which
none looks for what the other writes while the other is about to write it, never
leave the user both banned and a member. -/
theorem bans_exclude_members {ι : Type} [DecidableEq ι] {site : Admission}
    {start pool : AdmissionPool ι} (begun : ∀ i, (start.calls i).isBegun)
    (exclusive : ¬(site.Banned start.store ∧ site.IsMember start.store))
    (reached : Pool.Reaches (AdmissionProgress.next site) TakesTurns start pool) :
    ¬(site.Banned pool.store ∧ site.IsMember pool.store) := by
  have waits := fun i => @begun_cases site _ (begun i)
  have first : AdmissionPool.Exclusive site start := by
    refine ⟨exclusive, fun i => (waits i).2.2.2, ?_, ?_, fun i j _ => (waits j).2.1⟩
    · intro i entered
      exact absurd ((waits i).1.symm.trans entered) Bool.false_ne_true
    · intro i removed
      exact absurd ((waits i).2.2.1.symm.trans removed) Bool.false_ne_true
  have last : AdmissionPool.Exclusive site pool :=
    reached.invariant first fun _ i held turns => held.step i turns
  exact last.exclusive

/-! The owner bans a user who is about to join. -/

def strangerAtDoor : Admission where
  readSeconds := some
  describe _ := ""
  server := "server"
  user := "stranger"

def doorRequests : AdmissionPool Bool where
  calls
    | true => .joining 0
    | false => .banning oneNode { id := "owner" } {}
  store := callBackend

/-- The user joins before the ban begins. -/
def joinedThenBanned : AdmissionPool Bool :=
  doorRequests.run (next strangerAtDoor)
    [true, true, true, true, false, false, false, false, false, false]

theorem bans_exclude_members_sample :
    ¬(strangerAtDoor.Banned joinedThenBanned.store ∧
        strangerAtDoor.IsMember joinedThenBanned.store) ∧
      strangerAtDoor.Banned joinedThenBanned.store := by
  have reached : Pool.Reaches (next strangerAtDoor) TakesTurns doorRequests
      joinedThenBanned := reaches_run (by decide +kernel)
  refine ⟨?_, by decide +kernel⟩
  exact bans_exclude_members (by decide) (by decide) reached

/-- The ban is looked for before it is stored, and the member is written after
that. -/
def bannedWhileJoining : AdmissionPool Bool :=
  doorRequests.run (next strangerAtDoor) [true, false, false, false, true, true, true]

/-- The request to join has looked for a ban before there was one, and the ban
has looked for a member before there was one. Both succeed, and the user is
banned and a member. -/
theorem ban_misses_member :
    Pool.Reaches (AdmissionProgress.next strangerAtDoor) (fun _ _ => True) doorRequests
        bannedWhileJoining ∧
      (∀ i, (bannedWhileJoining.calls i).result.map (·.isOk) = some true) ∧
      strangerAtDoor.Banned bannedWhileJoining.store ∧
      strangerAtDoor.IsMember bannedWhileJoining.store := by
  refine ⟨reaches_run (admits_any _), ?_, ?_, ?_⟩ <;> decide +kernel

end Company
