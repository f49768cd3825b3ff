import CompanyBackend.Database.Mongo
import CompanyBackend.Library.Trace
import Mathlib.Data.List.GetD
import Mathlib.Data.List.Infix

/-!
# Usernames and discriminators

Users may share a name, in any spelling of upper and lower case, as long as their discriminators
differ. A new name gets a discriminator that nobody with this name has: the one that the user
already has, if it is free, or one that is drawn from those that are. A change of the spelling
only keeps the discriminator without a search.

The users are those of the reference driver, which compares names in lower case.
-/

namespace Company

open Request Outcome

inductive RatelimitEventType where
  | discriminatorChange
  deriving DecidableEq, Repr

structure RatelimitEvent where
  id : String
  targetId : String
  eventType : RatelimitEventType
  deriving DecidableEq, Repr

structure ReferenceDb where
  users : Collection String User User.id
  ratelimitEvents : Collection String RatelimitEvent RatelimitEvent.id

abbrev UserTask (α : Type) := Request ReferenceDb Error α

/-- What the standard library and `decancer` make of a text. -/
structure TextSupport where
  toLowercase : String → String
  cure : String → String

/-- What is drawn at random or read from the clock. -/
structure Draw where
  ulid : String
  roll : Nat
  /-- The id of an event of a day ago. -/
  since : String
  deriving DecidableEq, Repr

namespace ReferenceDb

def insertUser (user : User) : UserTask Unit :=
  write fun db =>
    if (db.users.find user.id).isSome then .error (.databaseError "insert" "user")
    else .ok { db with users := db.users.insert user }

def fetchUser (id : String) : UserTask User :=
  attempt fun db =>
    match db.users.find id with
    | some user => .ok user
    | none => .error .notFound

def updateUser (id : String) (data : PartialUser) (remove : List FieldsUser) : UserTask Unit :=
  write fun db =>
    if (db.users.find id).isSome then
      let users := db.users.update id (User.updated data remove) (User.updated_id data remove)
      .ok { db with users }
    else .error .notFound

def fetchDiscriminatorsInUse (text : TextSupport) (username : String) : UserTask (List String) :=
  attempt fun db =>
    let lowercase := text.toLowercase username
    .ok ((db.users.documents.filter fun user =>
      text.toLowercase user.username == lowercase).map User.discriminator)

def insertRatelimitEvent (event : RatelimitEvent) : UserTask Unit :=
  write fun db =>
    if (db.ratelimitEvents.find event.id).isSome then .error (.databaseError "insert" "message")
    else .ok { db with ratelimitEvents := db.ratelimitEvents.insert event }

def hasRatelimited (targetId : String) (eventType : RatelimitEventType) (since : String)
    (count : Nat) : UserTask Bool :=
  attempt fun db => .ok (decide (count ≤ (db.ratelimitEvents.documents.filter fun event =>
    decide (since < event.id) && event.targetId == targetId &&
      event.eventType == eventType).length))

end ReferenceDb

def BLOCKED_USERNAMES : List String := ["admin", "revolt"]

def BLOCKED_SUBSTRINGS : List String :=
  ["```", "discord.gg", "company.earthservers.net", "guilded.gg", "https://", "http://"]

variable (text : TextSupport) (draw : Draw)

def validateUsername (username : String) : Result String :=
  let lowercase := text.toLowercase username
  if text.cure lowercase != lowercase then .error .invalidUsername
  else if BLOCKED_USERNAMES.contains lowercase then .error .invalidUsername
  else if BLOCKED_SUBSTRINGS.any fun blocked => decide (blocked.toList <:+: lowercase.toList) then
    .error .invalidUsername
  else .ok username

def formatDiscriminator (value : Nat) : String :=
  String.ofList ((toString value).toList.leftpad 4 '0')

def DISCRIMINATOR_SEARCH_SPACE : List String :=
  ((List.range' 2 9997).map formatDiscriminator).filter fun value =>
    !([123, 1234, 1111, 2222, 3333, 4444, 5555, 6666, 7777, 8888, 9999, 1488].map
      formatDiscriminator).contains value

open ReferenceDb

/-- A discriminator that nobody with this name has. The preferred one belongs to
a user who changes their name; if it is taken, they get another one at most once
a day. -/
def findDiscriminator (username : String)
    (preferred : Option (String × String)) : UserTask String := do
  let used ← fetchDiscriminatorsInUse text username
  match DISCRIMINATOR_SEARCH_SPACE.filter fun value => !used.contains value with
  | [] => fail .usernameTaken
  | first :: rest =>
    match preferred with
    | some (preferred, targetId) =>
      if (first :: rest).contains preferred then return preferred
      else do
        let limited ← hasRatelimited targetId .discriminatorChange draw.since 1
        ensure (!limited) .discriminatorChangeRatelimited
        insertRatelimitEvent { id := draw.ulid, targetId, eventType := .discriminatorChange }
        return (first :: rest).getD draw.roll first
    | none => return (first :: rest).getD draw.roll first

/-- `User::create` -/
def createUser (username : String) (accountId : Option String)
    (data : Option PartialUser) : UserTask User := do
  let username ← attempt fun _ => validateUsername text username
  let discriminator ← findDiscriminator text draw username none
  let user : User := { id := accountId.getD draw.ulid, username, discriminator }
  let user := (data.map user.applyOptions).getD user
  insertUser user
  return user

def User.updateUsername (user : User) (username : String) : UserTask Unit := do
  let username ← attempt fun _ => validateUsername text username
  if text.toLowercase user.username == text.toLowercase username then
    updateUser user.id { username := some username } []
  else do
    let discriminator ← findDiscriminator text draw username (some (user.discriminator, user.id))
    updateUser user.id { username := some username, discriminator := some discriminator } []

/-- The ways to get a name, with what is drawn on the way. -/
inductive Naming where
  /-- A user completes onboarding. -/
  | complete (userId username : String)
  /-- A user creates a bot. -/
  | createBot (owner username : String)
  /-- A user changes their own name, or that of a bot. -/
  | change (id username : String)
  deriving DecidableEq, Repr

def Naming.perform (naming : Naming × Draw) : UserTask Unit :=
  match naming.1 with
  | .complete userId username => do
    let _ ← createUser text naming.2 username (some userId) none
  | .createBot owner username => do
    let _ ← createUser text naming.2 username (some naming.2.ulid) (some { bot := some { owner } })
  | .change id username => do
    let user ← fetchUser id
    user.updateUsername text naming.2 username

def User.handle (user : User) : String × String :=
  (text.toLowercase user.username, user.discriminator)

def ReferenceDb.UniqueHandles (db : ReferenceDb) : Prop :=
  db.users.Distinct (User.handle text)

variable {text : TextSupport}

theorem ReferenceDb.UniqueHandles.of_users {db db' : ReferenceDb}
    (unique : db.UniqueHandles text) (same : db'.users = db.users) : db'.UniqueHandles text := by
  rw [UniqueHandles, same]
  exact unique

section Uniqueness

variable {draw : Draw} {db db' : ReferenceDb} {username : String}
variable (preferred : Option (String × String))

theorem findDiscriminator_keeps {users : Collection String User User.id} :
    Keeps (fun db => db.users = users) (findDiscriminator text draw username preferred) := by
  refine (readOnly_attempt _).keeps.bind fun used => ?_
  split
  · exact (readOnly_fail _).keeps
  · split
    · split
      · exact keeps_pure _
      · refine (readOnly_attempt _).keeps.bind fun limited => ?_
        refine (readOnly_ensure _ _).keeps.bind fun _ => ?_
        refine Keeps.bind (keeps_write ?_) fun _ => keeps_pure _
        intro before after same wrote
        split at wrote
        · cases wrote
        · cases wrote
          exact same
    · exact keeps_pure _

/-- What is found is not in use with the name. -/
theorem findDiscriminator_free {preferred : Option (String × String)} {discriminator : String}
    (found : findDiscriminator text draw username preferred db = (.ok discriminator, db')) :
    ∀ user ∈ db.users.documents,
      user.handle text ≠ (text.toLowercase username, discriminator) := by
  obtain ⟨used, read, choosing⟩ := of_readOnly_bind_eq_ok (readOnly_attempt _) found
  -- Whatever is chosen comes from the list of those that are left.
  have free : ∀ value,
      value ∈ DISCRIMINATOR_SEARCH_SPACE.filter (fun value => !used.contains value) →
      ∀ user ∈ db.users.documents, user.handle text ≠ (text.toLowercase username, value) := by
    intro value left user listed same
    cases read
    obtain ⟨sameName, sameValue⟩ := Prod.mk.inj same
    simp only [List.mem_filter, Bool.not_eq_true', List.contains_eq_mem, decide_eq_false_iff_not,
      List.mem_map, beq_iff_eq, not_exists] at left
    exact left.2 user ⟨⟨listed, sameName⟩, sameValue⟩
  cases left : DISCRIMINATOR_SEARCH_SPACE.filter (fun value => !used.contains value) with
  | nil =>
    rw [left] at choosing
    cases choosing
  | cons first rest =>
    rw [left] at choosing free
    have drawn : (first :: rest).getD draw.roll first ∈ first :: rest := by
      by_cases inside : draw.roll < (first :: rest).length
      · rw [List.getD_eq_getElem _ _ inside]
        exact List.getElem_mem inside
      · rw [List.getD_eq_default _ _ (Nat.le_of_not_lt inside)]
        exact List.mem_cons_self
    cases preferred with
    | none =>
      cases choosing
      exact free _ drawn
    | some preferred =>
      dsimp only at choosing
      split at choosing
      · next available =>
        cases choosing
        exact free _ (List.contains_iff_mem.mp available)
      · obtain ⟨_, _, checking⟩ := of_readOnly_bind_eq_ok (readOnly_attempt _) choosing
        obtain ⟨_, recording⟩ := of_ensure_bind_eq_ok checking
        obtain ⟨_, _, _, ⟨⟩⟩ := of_bind_eq_ok recording
        exact free _ drawn

/-- A search that is made for a name, whatever comes of it. -/
theorem findDiscriminator_outcome :
    Outcome (findDiscriminator text draw username preferred) db fun r db' =>
      db'.users = db.users ∧ ∀ discriminator, r = .ok discriminator →
        ∀ user ∈ db'.users.documents,
          user.handle text ≠ (text.toLowercase username, discriminator) := by
  apply intro
  intro r db' ran
  have same : db'.users = db.users :=
    (findDiscriminator_keeps preferred).of_ran (P := fun db' => db'.users = db.users) rfl ran
  refine ⟨same, ?_⟩
  rintro discriminator rfl
  rw [same]
  exact findDiscriminator_free ran

variable {data : Option PartialUser}

theorem handle_given (unnamed : ∀ given ∈ data, given.username = none ∧ given.discriminator = none)
    (user : User) : ((data.map user.applyOptions).getD user).handle text = user.handle text := by
  cases data with
  | none => rfl
  | some given =>
    obtain ⟨noName, noDiscriminator⟩ := unnamed given rfl
    simp [User.handle, User.applyOptions, noName, noDiscriminator]

/-- A new user has a pair of their own. -/
theorem createUser_keeps (accountId : Option String)
    (unnamed : ∀ given ∈ data, given.username = none ∧ given.discriminator = none) :
    Keeps (UniqueHandles text) (createUser text draw username accountId data) := by
  intro db unique
  change Outcome (createUser text draw username accountId data) db
    fun _ db' => db'.UniqueHandles text
  apply readOnly_bind (readOnly_attempt _)
  · intro name
    apply bind (findDiscriminator_outcome none)
    · rintro discriminator db' ⟨same, free⟩
      apply write_bind
      · intro db'' inserted
        split at inserted
        · cases inserted
        · cases inserted
          refine Collection.Distinct.insert (unique.of_users same) ?_
          rw [handle_given unnamed]
          exact free discriminator rfl
      · intro _ _
        exact unique.of_users same
    · rintro _ db' ⟨same, _⟩
      exact unique.of_users same
  · exact fun _ => unique

/-- An update of a stored user keeps the pairs apart if the new one is not that
of another user. -/
theorem updateUser_keeps {user : User} {data : PartialUser} (unique : db.UniqueHandles text)
    (stored : db.users.find user.id = some user)
    (apart : ∀ other ∈ db.users.documents, other.id ≠ user.id →
      other.handle text ≠ (user.updated data []).handle text) :
    Outcome (updateUser user.id data []) db fun _ db' => db'.UniqueHandles text := by
  apply intro
  intro r db' ran
  rw [updateUser, write, stored] at ran
  cases ran
  change Collection.Distinct _ (db.users.update user.id _ (User.updated_id data []))
  exact Collection.Distinct.update unique stored apart

/-- A user who changes their name keeps their pair in another spelling, or gets
a new one. -/
theorem updateUsername_outcome {user : User} (unique : db.UniqueHandles text)
    (stored : db.users.find user.id = some user) :
    Outcome (user.updateUsername text draw username) db fun _ db' => db'.UniqueHandles text := by
  apply readOnly_bind (readOnly_attempt _)
  · intro name
    split
    · next sameName =>
      refine updateUser_keeps unique stored ?_
      intro other listed otherId sameHandle
      have kept : (user.updated { username := some name } []).handle text = user.handle text :=
        congrArg (·, user.discriminator) (beq_iff_eq.mp sameName).symm
      refine otherId (unique other listed user ?_ (sameHandle.trans kept))
      exact Collection.mem_documents.mpr stored
    · apply bind (findDiscriminator_outcome _)
      · rintro discriminator db' ⟨same, free⟩
        refine updateUser_keeps (unique.of_users same) (same ▸ stored) ?_
        intro other listed _
        exact free discriminator rfl other listed
      · rintro _ db' ⟨same, _⟩
        exact unique.of_users same
  · exact fun _ => unique

theorem perform_keeps (naming : Naming × Draw) :
    Keeps (UniqueHandles text) (Naming.perform text naming) := by
  obtain ⟨naming, draw⟩ := naming
  cases naming with
  | complete userId username | createBot owner username =>
    exact (createUser_keeps _ (by simp)).bind fun _ => keeps_pure _
  | change id username =>
    intro db unique
    change Outcome (Naming.perform text (.change id username, draw)) db
      fun _ db' => db'.UniqueHandles text
    apply attempt_bind
    · intro user fetched
      have stored : db.users.find user.id = some user := by
        cases found : db.users.find id with
        | none =>
          rw [found] at fetched
          cases fetched
        | some user' =>
          rw [found] at fetched
          cases fetched
          rw [Collection.key_of_find found, found]
      exact updateUsername_outcome unique stored
    · exact fun _ _ => unique

end Uniqueness

/-- No two users ever have the same name, up to upper and lower case, with the
same discriminator, whatever is drawn and whichever requests are refused on the
way. -/
theorem usernames_unique (text : TextSupport) (db : ReferenceDb) (namings : List (Naming × Draw))
    (unique : db.UniqueHandles text) :
    (session (Naming.perform text) namings db).UniqueHandles text := by
  induction namings generalizing db with
  | nil => exact unique
  | cons naming namings ih => exact ih _ (perform_keeps naming db unique)

def asciiText : TextSupport where
  toLowercase := String.toLower
  cure := id

/-- Two users take the same name, and one of them changes its spelling. -/
def sameName : List (Naming × Draw) :=
  [(.complete "01H" "Alice", ⟨"01A", 0, ""⟩), (.complete "01J" "alice", ⟨"01B", 0, ""⟩),
    (.change "01H" "ALICE", ⟨"01C", 0, ""⟩)]

def noUsers : ReferenceDb := ⟨.empty, .empty⟩

theorem usernames_unique_sameName :
    noUsers.UniqueHandles asciiText ∧
    (session (Naming.perform asciiText) sameName noUsers).UniqueHandles asciiText := by
  have start : noUsers.UniqueHandles asciiText := Collection.distinct_empty
  exact ⟨start, usernames_unique asciiText noUsers sameName start⟩

end Company
