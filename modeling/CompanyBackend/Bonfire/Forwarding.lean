import CompanyBackend.Bonfire.Listener
import CompanyBackend.Routes.ChannelPermissions
import CompanyBackend.Users.Relationships

/-!
# Updates of channels that the client cannot view

An update of a server channel is published on the topic of the server, which reaches every
member. The connection compares what its client could view before the update with what it
can view afterwards. It replaces the event when the two differ, and sends it on as it is
when they agree, also when the client can view the channel neither before nor after.
-/

namespace Company

open Request

def Channel.updatesTopic : Channel → String
  | .textChannel channel => channel.server
  | channel => channel.id

def Channel.updatePublishing (channel : Channel) (data : PartialChannel)
    (remove : List FieldsChannel) : Route Published := do
  let updated ← channel.update data remove
  return { topic := updated.updatesTopic, event := .channelUpdate updated.id data remove }

/-- The event says something about the channel. -/
inductive EventV1.Describes (id : String) : EventV1 → Prop
  | created {channel : Channel} (same : channel.id = id) : Describes id (.channelCreate channel)
  | updated (data : PartialChannel) (clear : List FieldsChannel) :
      Describes id (.channelUpdate id data clear)
  | deleted : Describes id (.channelDelete id)
  | listed {channel : Channel} {channels : List Channel} (serverId : String) (server : Server)
      (among : channel ∈ channels) (same : channel.id = id) :
      Describes id (.serverCreate serverId server channels)
  | bulk {event : EventV1} {events : List EventV1} (among : event ∈ events)
      (described : Describes id event) : Describes id (.bulk events)

/-- The client can view the channel neither before the update nor after it. -/
structure State.Hides (db : EventDatabase) (now : Timestamp) (id : String) (data : PartialChannel)
    (clear : List FieldsChannel) (state : State) : Prop where
  before : state.cache.canViewCached db.toDatabase now id = .ok false
  after : (state.cache.updateChannel db id data clear).canViewCached db.toDatabase now id =
    .ok false

/-- Nothing about the channel is sent to the client when the event is
handled. -/
def State.Withholds (db : EventDatabase) (now : Timestamp) (id : String) (event : EventV1)
    (state : State) : Prop :=
  ∀ sent state', handleIncomingEventV1 db now event state = (.ok (true, sent), state') →
    ¬ sent.Describes id

section Updates

variable {db : EventDatabase} {now : Timestamp} {id : String} {data : PartialChannel}
  {clear : List FieldsChannel} {state : State}

theorem readCache_of_ok {α : Type} {f : Cache → Except Panic α} {a : α}
    (read : f state.cache = .ok a) : readCache f state = (.ok a, state) := by
  rw [readCache, attempt, read]
  rfl

/-- Two equal views leave the update as it is, whether or not the channel is
cached. -/
theorem handleChannelUpdate_of_hides (hidden : state.Hides db now id data clear) :
    handleChannelUpdate db now id data clear state =
      (.ok (.channelUpdate id data clear, {}),
        { state with cache := state.cache.updateChannel db id data clear }) := by
  rw [handleChannelUpdate, bind_of_ok (readCache_of_ok hidden.before)]
  refine (bind_of_ok rfl).trans ?_
  rw [bind_of_ok (readCache_of_ok hidden.after)]
  refine (bind_of_ok rfl).trans ?_
  cases (state.cache.updateChannel db id data clear).channels.lookup id <;> rfl

/-- An update that nobody at this connection may see is sent on unchanged. -/
theorem handleIncomingEventV1_of_hides (hidden : state.Hides db now id data clear) :
    handleIncomingEventV1 db now (.channelUpdate id data clear) state =
      (.ok (true, .channelUpdate id data clear),
        { state with cache := state.cache.updateChannel db id data clear }) := by
  have dispatched : dispatchEvent db now (.channelUpdate id data clear) state =
      (.ok (some (.channelUpdate id data clear, {})),
        { state with cache := state.cache.updateChannel db id data clear }) :=
    bind_of_ok (handleChannelUpdate_of_hides hidden)
  exact bind_of_ok dispatched

end Updates

/-- An update of a channel that stays hidden is withheld exactly if the channel
does not stay hidden: whenever the client can view it neither before nor after,
the update is sent. -/
theorem hidden_update_withheld_iff (db : EventDatabase) (now : Timestamp) (id : String)
    (data : PartialChannel) (clear : List FieldsChannel) (state : State) :
    (state.Hides db now id data clear → state.Withholds db now id (.channelUpdate id data clear)) ↔
      ¬ state.Hides db now id data clear := by
  constructor
  · intro withheld hidden
    exact withheld hidden _ _ (handleIncomingEventV1_of_hides hidden) (.updated data clear)
  · intro visible hidden
    exact absurd hidden visible

/-! The closed court, whose yard its members cannot view. -/

def courtStore : MongoDb where
  users := .empty
  servers := .ofDocuments [closedCourt]
  channels := .ofDocuments [.textChannel hall, .textChannel yard]
  serverMembers := .empty
  attachments := .empty
  rolesKeyed := by decide

def description : PartialChannel where
  description := some "secret"

def courtJoined : State := (listen {} (courtStart closedCourt)).2

def courtEvents : EventDatabase :=
  { (courtReads closedCourt).toEventDatabase with
    fetchChannel := fun _ => .ok ((Channel.textChannel yard).applyOptions description) }

/-- The member cannot view the yard, is subscribed to the topic on which its
description is published, and is sent the description. -/
theorem hidden_description_sent :
    ((Channel.textChannel yard).updatePublishing description [] courtStore).1 =
        .ok { topic := "server", event := .channelUpdate "yard" description [] } ∧
      "server" ∈ courtJoined.subscribed ∧
      courtJoined.Hides courtEvents 1 "yard" description [] ∧
      (∃ state', handleIncomingEventV1 courtEvents 1 (.channelUpdate "yard" description [])
        courtJoined = (.ok (true, .channelUpdate "yard" description []), state')) ∧
      ¬ courtJoined.Withholds courtEvents 1 "yard" (.channelUpdate "yard" description []) := by
  have hidden : courtJoined.Hides courtEvents 1 "yard" description [] := by
    constructor <;> decide +kernel
  have sent := handleIncomingEventV1_of_hides hidden
  refine ⟨?_, by decide +kernel, hidden, ⟨_, sent⟩, ?_⟩
  · rfl
  · intro withheld
    exact withheld _ _ sent (.updated description [])

end Company
