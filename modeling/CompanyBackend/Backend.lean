import CompanyBackend.Members.Membership
import CompanyBackend.Routes.Groups
import CompanyBackend.Voice.State

/-!
# The backend around the document store

Some requests touch more than the documents of servers, channels and members: bans and bots have
collections of their own, calls are kept in Redis, and the voice nodes are told about rooms and
participants. A task is a request against all of these. A route is a task that stays within the
document store.

What is sent to the voice nodes is recorded in the order in which it is sent. How a node answers
is up to the node.
-/

namespace Company

open Request

structure ServerBan where
  id : MemberCompositeKey
  reason : Option String := none
  deriving DecidableEq, Repr

/-- A bot as it is stored, with the server that an AI companion is said to have
joined. -/
structure BotDocument extends Bot where
  joinedServerId : Option String := none
  deriving DecidableEq, Repr

def BotDocument.key (bot : BotDocument) : String := bot.id

structure ParticipantPermission where
  canSubscribe : Bool
  canPublish : Bool
  canPublishData : Bool
  deriving DecidableEq, Repr

inductive NodeRequest where
  | createRoom (node channel : String)
  | deleteRoom (node channel : String)
  | updateParticipant (node channel user : String) (permission : ParticipantPermission)
  | removeParticipant (node channel user : String)
  deriving DecidableEq, Repr

def NodeRequest.node : NodeRequest → String
  | createRoom node _ | deleteRoom node _ | updateParticipant node _ _ _
  | removeParticipant node _ _ => node

def NodeRequest.participant : NodeRequest → Option String
  | updateParticipant _ _ user _ | removeParticipant _ _ user => some user
  | _ => none

structure Backend where
  db : MongoDb
  bans : Collection MemberCompositeKey ServerBan ServerBan.id := .empty
  bots : Collection String BotDocument BotDocument.key := .empty
  voice : VoiceRedis := {}
  issued : List NodeRequest := []

abbrev Task (α : Type) := Request Backend Failure α

/-- The voice nodes and what a call needs to know about users. -/
structure VoiceServices where
  now : Timestamp
  nodes : List String
  /-- How a node answers a request, given the requests before it. -/
  answer : List NodeRequest → NodeRequest → Except Failure Unit
  createToken :
    (node : String) → MongoDb → User → PermissionValue → (channel : Channel) → Except Failure String
  allowsVideo : User → Bool
  /-- What it ends with to unwrap the node of a channel that has none. -/
  missingNode : Failure := .panic "called `Option::unwrap()` on a `None` value"

namespace Task

variable {α β : Type}

def ofRoute (x : Route α) : Task α := fun backend =>
  ((x backend.db).1, { backend with db := (x backend.db).2 })

def readVoice (f : VoiceRedis → α) : Task α := attempt fun backend => .ok (f backend.voice)

def writeVoice (f : VoiceRedis → VoiceRedis) : Task Unit :=
  write fun backend => .ok { backend with voice := f backend.voice }

/-- Send a request to a node. A node that is not configured is not asked. -/
def send (services : VoiceServices) (request : NodeRequest) : Task Unit := fun backend =>
  if services.nodes.contains request.node then
    (services.answer backend.issued request, { backend with issued := backend.issued ++ [request] })
  else (.error (.error .unknownNode), backend)

def unwrap (missing : Failure) : Option α → Task α
  | some a => pure a
  | none => fail missing

end Task

variable {backend' : Backend}

section Rules

variable {α β : Type} {backend : Backend} {f : α → Task β} {Q : Except Failure β → Backend → Prop}
variable {x : Route α} {r : Except Failure α}

theorem Task.ofRoute_run {db : MongoDb}
    (ran : x backend.db = (r, db)) : Task.ofRoute x backend = (r, { backend with db }) := by
  rw [Task.ofRoute, ran]

theorem Task.of_ofRoute_eq (ran : Task.ofRoute x backend = (r, backend')) :
    x backend.db = (r, backend'.db) ∧ backend' = { backend with db := backend'.db } := by
  cases ran
  exact ⟨rfl, rfl⟩

theorem Task.ofRoute_readOnly (readOnly : ReadOnly x) : ReadOnly (Task.ofRoute x) := by
  intro backend
  rw [Task.ofRoute, readOnly backend.db]

/-- A route at the start that only reads has been run on the documents. -/
theorem Task.of_ofRoute_bind_eq_ok (readOnly : ReadOnly x) {b : β}
    (ran : (Task.ofRoute x >>= f) backend = (.ok b, backend')) :
    ∃ a, x backend.db = (.ok a, backend.db) ∧ f a backend = (.ok b, backend') := by
  obtain ⟨a, read, rest⟩ := of_readOnly_bind_eq_ok (Task.ofRoute_readOnly readOnly) ran
  have returned : (x backend.db).1 = .ok a := congrArg (fun ran => ran.1) read
  exact ⟨a, Prod.ext returned (readOnly backend.db), rest⟩

variable {g : MongoDb → Result α}

theorem Outcome.fetched_bind (found : ∀ a, g backend.db = .ok a → Outcome (f a) backend Q)
    (failed : ∀ e, Q (.error e) backend) :
    Outcome (Task.ofRoute (Route.fetch g) >>= f) backend Q := by
  have read : Task.ofRoute (Route.fetch g) =
      attempt fun backend => (g backend.db).mapError Failure.error := rfl
  rw [read]
  exact Outcome.attempt_mapError_bind found failed

theorem Task.fetch_run {a : α} (found : g backend.db = .ok a) :
    Task.ofRoute (Route.fetch g) backend = (.ok a, backend) := by
  apply Task.ofRoute_run
  rw [Route.fetch, attempt, found]
  rfl

theorem Task.readVoice_run (g : VoiceRedis → α) (backend : Backend) :
    Task.readVoice g backend = (.ok (g backend.voice), backend) := rfl

theorem Outcome.readVoice_bind {g : VoiceRedis → α} (next : Outcome (f (g backend.voice)) backend Q)
    : Outcome (Task.readVoice g >>= f) backend Q :=
  Outcome.attempt_ok_bind rfl next

variable {f : Unit → Task β}

theorem Outcome.writeVoice_bind {g : VoiceRedis → VoiceRedis}
    (next : Outcome (f ()) { backend with voice := g backend.voice } Q) :
    Outcome (Task.writeVoice g >>= f) backend Q :=
  next

variable {services : VoiceServices} {request : NodeRequest}

theorem Task.send_ok (ran : Task.send services request backend = (.ok (), backend')) :
    backend' = { backend with issued := backend.issued ++ [request] } := by
  rw [Task.send] at ran
  split at ran
  · exact (congrArg Prod.snd ran).symm
  · cases ran

/-- What follows a request that is answered starts with the request recorded. -/
theorem Task.of_send_bind_eq_ok {b : β}
    (ran : (Task.send services request >>= f) backend = (.ok b, backend')) :
    f () { backend with issued := backend.issued ++ [request] } = (.ok b, backend') := by
  obtain ⟨_, middle, sent, rest⟩ := of_bind_eq_ok ran
  rwa [Task.send_ok sent] at rest

end Rules

/-! ## Tasks and the documents -/

/-- The documents stay as they are, and nobody enters a call. -/
structure Backend.Quiet (backend backend' : Backend) : Prop where
  db : backend'.db = backend.db
  bans : backend'.bans = backend.bans
  bots : backend'.bots = backend.bots
  voice : backend.voice.Shrinks backend'.voice

theorem Backend.Quiet.refl (backend : Backend) : backend.Quiet backend :=
  ⟨rfl, rfl, rfl, .refl _⟩

theorem Backend.Quiet.trans {backend backend'' : Backend} (first : backend.Quiet backend')
    (second : backend'.Quiet backend'') : backend.Quiet backend'' :=
  ⟨second.db.trans first.db, second.bans.trans first.bans, second.bots.trans first.bots,
    first.voice.trans second.voice⟩

namespace Task

variable {α β : Type}

def Quiet (x : Task α) : Prop := ∀ backend, Backend.Quiet backend (x backend).2

variable {x : Task α}

theorem quiet_of_readOnly (readOnly : ReadOnly x) : Quiet x := by
  intro backend
  rw [readOnly backend]
  exact .refl backend

theorem quiet_readVoice (f : VoiceRedis → α) : Quiet (readVoice f) :=
  quiet_of_readOnly (readOnly_attempt _)

theorem quiet_pure (a : α) : Quiet (pure a : Task α) := quiet_of_readOnly (readOnly_pure a)

theorem quiet_writeVoice {f : VoiceRedis → VoiceRedis}
    (shrinks : ∀ redis : VoiceRedis, redis.Shrinks (f redis)) : Quiet (writeVoice f) :=
  fun backend => ⟨rfl, rfl, rfl, shrinks backend.voice⟩

theorem quiet_send (services : VoiceServices) (request : NodeRequest) :
    Quiet (send services request) := by
  intro backend
  rw [send]
  split
  · exact ⟨rfl, rfl, rfl, .refl _⟩
  · exact .refl backend

theorem quiet_unwrap (missing : Failure) (value : Option α) : Quiet (unwrap missing value) := by
  cases value with
  | some a => exact quiet_pure a
  | none => exact quiet_of_readOnly (readOnly_fail _)

theorem Quiet.bind {f : α → Task β} (first : Quiet x) (rest : ∀ a, Quiet (f a)) :
    Quiet (x >>= f) := by
  intro backend
  have kept : Keeps backend.Quiet (x >>= f) :=
    Keeps.bind (fun middle quiet => quiet.trans (first middle)) fun a middle quiet =>
      quiet.trans (rest a middle)
  exact kept backend (.refl backend)

theorem quiet_ofRoute {x : Route α} (readOnly : ReadOnly x) : Quiet (ofRoute x) :=
  quiet_of_readOnly (ofRoute_readOnly readOnly)

theorem Quiet.onlyIf {condition : Bool} {action : Task Unit} (quiet : Quiet action) :
    Quiet (onlyIf condition action) := by
  cases condition with
  | true => exact quiet
  | false => exact quiet_pure ()

theorem Quiet.forEach {action : α → Task Unit} (each : ∀ a, Quiet (action a)) (xs : List α) :
    Quiet (forEach action xs) := by
  induction xs with
  | nil => exact quiet_pure ()
  | cons a xs ih => exact (each a).bind fun _ => ih

/-- The task leaves the documents that the route leaves. -/
def Agrees (x : Task α) (y : Route β) : Prop := ∀ backend, (x backend).2.db = (y backend.db).2

theorem Agrees.of_quiet {y : Route β} (quiet : Quiet x) (readOnly : ReadOnly y) : Agrees x y := by
  intro backend
  rw [readOnly backend.db]
  exact (quiet backend).db

/-- A task that begins like a route agrees with it if the rest does. -/
theorem Agrees.bind {γ : Type} (x : Route α) {f : α → Task β} {g : α → Route γ}
    (rest : ∀ a, Agrees (f a) (g a)) : Agrees (ofRoute x >>= f) (x >>= g) := by
  intro backend
  cases ran : x backend.db with
  | mk r db =>
    cases r with
    | ok a =>
      rw [bind_of_ok ran, bind_of_ok (ofRoute_run ran)]
      exact rest a { backend with db }
    | error e => rw [bind_of_error ran, bind_of_error (ofRoute_run ran)]

end Task

end Company
