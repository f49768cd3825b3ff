import CompanyBackend.Permissions.Store

/-!
# Routes

A route is a request against the document store. `?` on a result ends the route with
its error; a panic ends it as well. Documents fetched by a route are snapshots, and
the methods of the models update the snapshot and the store.

The voice client and the voice state in Redis are parameters. Their functions read
documents and talk to the voice server; they never write to the document store.
-/

namespace Company

abbrev Route (α : Type) := Request MongoDb Failure α

/-- Length limits count characters, and an absent text passes. -/
def lengthWithin (low high : Nat) (text : Option String) : Bool :=
  text.all fun text => decide (low ≤ text.length) && decide (text.length ≤ high)

/-- The functions of the voice subsystem, each with the documents it may
read. -/
structure VoiceClient where
  isEnabled : Bool
  syncVoicePermissions :
    MongoDb → (channel : Channel) → Option Server → (role : Option String) → Except Failure Unit
  syncUserVoicePermissions :
    MongoDb → (node : String) → User → (channel : Channel) → Option Server →
      (role : Option String) → Except Failure Unit
  getUserVoiceChannelInServer : (user server : String) → Except Failure (Option String)
  getChannelNode : (channel : String) → Except Failure (Option String)
  setChannelNode : (channel node : String) → Except Failure Unit
  setUserMovedFromVoice : (oldChannel newChannel user : String) → Except Failure Unit
  setUserMovedToVoice : (newChannel oldChannel user : String) → Except Failure Unit
  createRoom : (node : String) → (channel : Channel) → Except Failure Unit
  createToken :
    (node : String) → MongoDb → User → PermissionValue → (channel : Channel) → Except Failure String
  removeUser : (node user channel : String) → Except Failure Unit

/-- A voice client that is switched off and has nothing to synchronise. -/
def VoiceClient.disabled : VoiceClient where
  isEnabled := false
  syncVoicePermissions _ _ _ _ := .ok ()
  syncUserVoicePermissions _ _ _ _ _ _ := .ok ()
  getUserVoiceChannelInServer _ _ := .ok none
  getChannelNode _ := .ok none
  setChannelNode _ _ := .ok ()
  setUserMovedFromVoice _ _ _ := .ok ()
  setUserMovedToVoice _ _ _ := .ok ()
  createRoom _ _ := .error (.error .unknownNode)
  createToken _ _ _ _ _ := .error (.error .unknownNode)
  removeUser _ _ _ := .error (.error .unknownNode)

namespace Route

variable {α β : Type}

/-- A panic of a query as a failure of the route. -/
def ofQuery (x : Except Panic α) : Except Failure α :=
  x.mapError fun panic => .panic panic.message

def fetch (f : MongoDb → Result α) : Route α :=
  .attempt fun db => (f db).mapError .error

/-- Pass on a result that does not depend on the store. -/
def lift (x : Result α) : Route α := .attempt fun _ => x.mapError .error

def update (f : MongoDb → Result MongoDb) : Route Unit :=
  .write fun db => (f db).mapError .error

def ask (query : Database → DatabasePermissionQuery) (x : QueryM DatabasePermissionQuery α) :
    Route (α × DatabasePermissionQuery) :=
  .attempt fun db => ofQuery (x.run (query db.reads))

/-- The ranking of the query's member, the smallest integer without one. -/
def memberRank (query : DatabasePermissionQuery) : Route Int64 :=
  .attempt fun _ => ofQuery (query.getMemberRank.map fun rank => rank.getD Int64.minValue)

def syncVoicePermissions (voice : VoiceClient) (channel : Channel) (server : Option Server)
    (role : Option String) : Route Unit :=
  .attempt fun db => voice.syncVoicePermissions db channel server role

/-- The loop over the channels of a server at the end of the routes. -/
def syncChannels (voice : VoiceClient) (server : Server) (role : Option String) : Route Unit :=
  .forEach (fun channelId => do
    let channel ← fetch fun db => db.fetchChannel channelId
    syncVoicePermissions voice channel (some server) role) server.channels

end Route

section Rules

open Request

variable {α β : Type} {db : MongoDb} {f : α → Route β} {Q : Except Failure β → MongoDb → Prop}

theorem Route.syncChannels_readOnly (voice : VoiceClient) (server : Server)
    (role : Option String) : ReadOnly (Route.syncChannels voice server role) := by
  apply ReadOnly.forEach
  intro channelId
  exact .read fun channel => readOnly_attempt _

open Outcome

theorem Outcome.fetch_bind {g : MongoDb → Result α} (found : ∀ a, g db = .ok a → Outcome (f a) db Q)
    (failed : ∀ e, Q (.error e) db) : Outcome (Route.fetch g >>= f) db Q :=
  attempt_mapError_bind found failed

theorem Outcome.find_bind {find : MongoDb → Option α}
    (found : ∀ a, find db = some a → Outcome (f a) db Q) (failed : ∀ e, Q (.error e) db) :
    Outcome (Route.fetch (fun db => orNotFound (find db)) >>= f) db Q :=
  fetch_bind (fun a read => found a (orNotFound_eq_ok.mp read)) failed

theorem Outcome.lift_bind {x : Result α} (passed : ∀ a, x = .ok a → Outcome (f a) db Q)
    (failed : ∀ e, Q (.error e) db) : Outcome (Route.lift x >>= f) db Q :=
  fetch_bind passed failed

variable {f : Unit → Route β}

theorem Outcome.update_bind {g : MongoDb → Result MongoDb}
    (written : ∀ db', g db = .ok db' → Outcome (f ()) db' Q) (failed : ∀ e, Q (.error e) db) :
    Outcome (Route.update g >>= f) db Q := by
  apply write_bind
  · intro db' accepted
    exact written db' (mapError_eq_ok.mp accepted)
  · intro e _
    exact failed e

/-- The check that a rank is below that of the user. -/
theorem Outcome.elevated_bind {rank other : Int64} {e : Failure}
    (below : rank < other → Outcome (f ()) db Q) (refused : Q (.error e) db) :
    Outcome (ensure (!decide (other ≤ rank)) e >>= f) db Q := by
  apply ensure_bind _ fun _ => refused
  intro elevated
  rw [Bool.not_eq_true', decide_eq_false_iff_not, not_le] at elevated
  exact below elevated

variable {f : α × DatabasePermissionQuery → Route β} {query : Database → DatabasePermissionQuery}
variable {x : QueryM DatabasePermissionQuery α}

theorem Outcome.ask_bind {value : α} {final : DatabasePermissionQuery}
    (ran : x.run (query db.reads) = .ok (value, final))
    (next : Outcome (f (value, final)) db Q) : Outcome (Route.ask query x >>= f) db Q := by
  refine attempt_ok_bind ?_ next
  rw [ran]
  rfl

theorem Outcome.ask_any_bind (next : ∀ value final, x.run (query db.reads) = .ok (value, final) →
      Outcome (f (value, final)) db Q) (failed : ∀ e, Q (.error e) db) :
    Outcome (Route.ask query x >>= f) db Q :=
  attempt_mapError_bind (fun answer read => next answer.1 answer.2 read) failed

variable {query : DatabasePermissionQuery} {server : Server}

theorem getMemberRank_eq (known : query.server = some server) : query.getMemberRank =
      .ok (query.member.map fun member => member.getRanking server) := by
  unfold DatabasePermissionQuery.getMemberRank
  rw [known]
  cases query.member <;> rfl

theorem Outcome.memberRank_bind {f : Int64 → Route β} (known : query.server = some server)
    (next : Outcome (f ((query.member.map fun member => member.getRanking server).getD
      Int64.minValue)) db Q) : Outcome (Route.memberRank query >>= f) db Q := by
  refine attempt_ok_bind ?_ next
  rw [getMemberRank_eq known]
  rfl

end Rules

end Company
