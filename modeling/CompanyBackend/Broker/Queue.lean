import CompanyBackend.Redis
import CompanyBackend.Result
import CompanyBackend.Library.HashMap
import CompanyBackend.Library.Interleaving

/-!
# The message broker

Messages for a device that is offline wait in a list in Redis, and so do the envelopes that
two devices of a user exchange. A call that queues one counts itself against its rate limits,
looks at the length of the list, and only then writes. A call that drains a list reads it
and deletes it with a second command, and looks up the epochs of the channels afterwards.

A call is a machine whose states are the points between two commands. What happens between
the commands is local to the call. The commands of a pipeline are steps of their own where a
call goes on with what they return; the writes at its end are one step.
-/

namespace Company

/-- A parsed JSON value. A number is an integer, signed or unsigned with 64
bits, or a float, of which the bits are kept. -/
inductive Json where
  | null
  | bool (value : Bool)
  | integer (value : Int)
  | float (bits : UInt64)
  | string (value : String)
  | array (values : List Json)
  | object (fields : List (String × Json))

namespace Json

def get (key : String) : Json → Option Json
  | object fields => fields.lookup key
  | _ => none

def asStr : Json → Option String
  | string value => some value
  | _ => none

def isI64 (value : Int) : Bool :=
  decide (-9223372036854775808 ≤ value ∧ value ≤ 9223372036854775807)

def asI64 : Json → Option Int
  | integer value => if isI64 value then some value else none
  | _ => none

end Json

/-- The channel and the content of an event that carries a message. -/
def messageContent (event : Json) : Option (String × String) := do
  match ← (← event.get "type").asStr with
  | "Message" => return (← (← event.get "channel").asStr, ← (← event.get "content").asStr)
  | "MessageUpdate" =>
    let channel ← (← event.get "channel").asStr
    let data ← event.get "data"
    return (channel, ← (← data.get "content").asStr)
  | _ => none

/-- The channel and the epoch of an encrypted envelope. -/
def extractEnvelopeEpoch (fromStr : String → Option Json) (eventJson : String) :
    Option (String × Int) := do
  let (channel, content) ← messageContent (← fromStr eventJson)
  if content.startsWith "\x7b\"_e2e\":1," then
    let envelope ← fromStr content
    return (channel, ((envelope.get "e").bind Json.asI64).getD 0)
  else none

def offlineQueueTtlSeconds : Nat := 21600

def offlineQueueMaxDepth : Nat := 100

def offlineQueueMaxMessageBytes : Nat := 4096

def rateLimitWindowSeconds : Nat := 60

def rateLimitMaxPerWindow : Nat := 30

def rateLimitGlobalMaxPerWindow : Nat := 120

def syncQueueTtlSeconds : Nat := 3600

def syncMaxEnvelopeBytes : Nat := 65536

def syncMaxEnvelopesPerQueue : Nat := 100

def syncRateLimitPerHour : Nat := 10

def syncRateLimitWindowSeconds : Nat := 3600

/-- A counter that limits how often something may happen in a window. -/
structure RateLimit where
  key : String
  max : Nat
  window : Nat
  error : String
  deriving DecidableEq, Repr

/-- A call that puts a message into a list. -/
structure Enqueue where
  message : String
  maxBytes : Nat
  sizeError : String
  limits : List RateLimit
  queue : String
  maxDepth : Nat
  queueTtl : Nat
  depthError : String
  deriving DecidableEq, Repr

def queueKey (userId sessionId : String) : String :=
  "broker:queue:messaging:" ++ userId ++ ":" ++ sessionId

def globalRateKey (senderId : String) : String := "broker:rate:global:" ++ senderId

def rateKey (senderId recipientId : String) : String :=
  "broker:rate:" ++ senderId ++ ":" ++ recipientId

def globalRateLimit (senderId : String) : RateLimit where
  key := globalRateKey senderId
  max := rateLimitGlobalMaxPerWindow
  window := rateLimitWindowSeconds
  error := "Rate limited"

def pairRateLimit (senderId recipientId : String) : RateLimit where
  key := rateKey senderId recipientId
  max := rateLimitMaxPerWindow
  window := rateLimitWindowSeconds
  error := "Rate limited"

def queueOfflineMessage (senderId recipientId sessionId messageEvent : String) : Enqueue where
  message := messageEvent
  maxBytes := offlineQueueMaxMessageBytes
  sizeError := "Message exceeds maximum size for offline delivery."
  limits := [globalRateLimit senderId, pairRateLimit senderId recipientId]
  queue := queueKey recipientId sessionId
  maxDepth := offlineQueueMaxDepth
  queueTtl := offlineQueueTtlSeconds
  depthError := "Recipient's offline message queue is full. Try again later."

def syncQueueKey (userId destSessionId : String) : String :=
  "broker:sync:messaging:" ++ userId ++ ":" ++ destSessionId

def syncRateKey (userId sourceSessionId : String) : String :=
  "broker:sync:rate:" ++ userId ++ ":" ++ sourceSessionId

/-- Push an envelope from one device of a user to another. -/
def pushSyncEnvelope (userId sourceSessionId destSessionId envelope : String) : Enqueue where
  message := envelope
  maxBytes := syncMaxEnvelopeBytes
  sizeError := "Sync envelope exceeds maximum size."
  limits := [{
    key := syncRateKey userId sourceSessionId
    max := syncRateLimitPerHour
    window := syncRateLimitWindowSeconds
    error := "Sync rate limit exceeded. Try again later." }]
  queue := syncQueueKey userId destSessionId
  maxDepth := syncMaxEnvelopesPerQueue
  queueTtl := syncQueueTtlSeconds
  depthError := "Destination sync queue is full."

/-- Where a call is that queues a message. The counts are those of the limits
that it has counted itself against, in their order. -/
inductive EnqueueProgress where
  | counting (counts : List Nat)
  | writing (counts : List Nat) (depth : Nat)
  | finished (counts : List Nat) (result : Result Unit)

namespace Enqueue

variable (call : Enqueue)

def begin : EnqueueProgress :=
  if call.maxBytes < call.message.utf8ByteSize then
    .finished [] (.error (.failedValidation call.sizeError))
  else .counting []

variable (counts : List Nat) (depth : Nat)

def exceeded : Option (RateLimit × Nat) :=
  (call.limits.zip counts).find? fun counted => counted.1.max < counted.2

def check : EnqueueProgress :=
  match call.exceeded counts with
  | some (limit, _) => .finished counts (.error (.failedValidation limit.error))
  | none =>
    if call.maxDepth ≤ depth then
      .finished counts (.error (.failedValidation call.depthError))
    else .writing counts depth

/-- A counter that was just created gets a time to live. -/
def expireFirst (redis : Redis) (counted : RateLimit × Nat) : Redis :=
  if counted.2 = 1 then redis.expire counted.1.key counted.1.window else redis

def write (redis : Redis) : Redis :=
  let pushed := ((call.limits.zip counts).foldl expireFirst redis).rpush call.queue call.message
  if depth = 0 then pushed.expire call.queue call.queueTtl else pushed

def next : EnqueueProgress → Redis → EnqueueProgress × Redis
  | .counting counts, redis =>
    match call.limits[counts.length]? with
    | some limit =>
      let after := redis.incr limit.key
      (.counting (counts ++ [after.1]), after.2)
    | none => (call.check counts (redis.llen call.queue), redis)
  | .writing counts depth, redis => (.finished counts (.ok ()), call.write counts depth redis)
  | .finished counts result, redis => (.finished counts result, redis)

theorem foldl_expireFirst (counted : List (RateLimit × Nat)) (redis : Redis) :
    ∃ ttl, counted.foldl expireFirst redis = { redis with ttl } := by
  induction counted generalizing redis with
  | nil => exact ⟨redis.ttl, rfl⟩
  | cons first counted ih =>
    obtain ⟨ttl, expired⟩ : ∃ ttl, expireFirst redis first = { redis with ttl } := by
      rw [expireFirst]
      split
      · exact Redis.expire_eq
      · exact ⟨redis.ttl, rfl⟩
    rw [List.foldl_cons, expired]
    exact ih _

/-- Apart from times to live, the second pipeline pushes the message. -/
theorem write_eq (redis : Redis) :
    ∃ ttl, call.write counts depth redis = { redis.rpush call.queue call.message with ttl } := by
  obtain ⟨ttl, expired⟩ := foldl_expireFirst (call.limits.zip counts) redis
  rw [write, expired]
  split
  · exact Redis.expire_eq
  · exact ⟨ttl, rfl⟩

end Enqueue

def channelEpochKey (channelId : String) : String := "broker:channel_epoch:" ++ channelId

def getChannelEpochCached (channelId : String) (redis : Redis) : Int :=
  (redis.get (channelEpochKey channelId)).getD 0

/-- A call that takes all messages out of a list, without those from before a
purge if it filters them. -/
structure Drain where
  queue : String
  filters : Bool
  deriving DecidableEq, Repr

def drainOfflineQueue (userId sessionId : String) : Drain where
  queue := queueKey userId sessionId
  filters := true

def drainSyncEnvelopes (userId destSessionId : String) : Drain where
  queue := syncQueueKey userId destSessionId
  filters := false

/-- The loop that drops envelopes from before a purge: the epochs that are
known, the messages that are kept, and those that are still to be looked at. -/
structure Filtering where
  epochs : HashMap String Int := ∅
  kept : List String := []
  rest : List String

/-- Where a call is that drains a list. What it has read is kept to the end. -/
inductive DrainProgress where
  | begun
  | clearing (messages : List String)
  | filtering (messages : List String) (loop : Filtering)
  | finished (messages returned : List String)

namespace Filtering

/-- The loop goes on until it needs an epoch that it does not know. -/
def advance (fromStr : String → Option Json) (epochs : HashMap String Int) :
    List String → List String → Filtering
  | kept, [] => { epochs, kept, rest := [] }
  | kept, eventJson :: rest =>
    match extractEnvelopeEpoch fromStr eventJson with
    | none => advance fromStr epochs (kept ++ [eventJson]) rest
    | some (channelId, epoch) =>
      match epochs.lookup channelId with
      | none => { epochs, kept, rest := eventJson :: rest }
      | some current =>
        if epoch < current then advance fromStr epochs kept rest
        else advance fromStr epochs (kept ++ [eventJson]) rest

/-- Look up the epoch that the loop waits for. -/
def lookup (fromStr : String → Option Json) (redis : Redis) (loop : Filtering) : Filtering :=
  match loop.rest.head?.bind (extractEnvelopeEpoch fromStr) with
  | some (channelId, _) =>
    let epochs := loop.epochs.put channelId (getChannelEpochCached channelId redis)
    advance fromStr epochs loop.kept loop.rest
  | none => loop

def progress (messages : List String) (loop : Filtering) : DrainProgress :=
  match loop.rest with
  | [] => .finished messages loop.kept
  | _ => .filtering messages loop

end Filtering

namespace Drain

variable (fromStr : String → Option Json) (call : Drain)

/-- What follows the deletion of the list. -/
def filter (messages : List String) : DrainProgress :=
  if call.filters then (Filtering.advance fromStr ∅ [] messages).progress messages
  else .finished messages messages

def next : DrainProgress → Redis → DrainProgress × Redis
  | .begun, redis =>
    let messages := redis.lrange call.queue
    if messages.isEmpty then (call.filter fromStr messages, redis) else (.clearing messages, redis)
  | .clearing messages, redis => (call.filter fromStr messages, redis.del call.queue)
  | .filtering messages loop, redis => ((loop.lookup fromStr redis).progress messages, redis)
  | .finished messages returned, redis => (.finished messages returned, redis)

end Drain

/-- Those who use the lists and counters. A key that expires acts on its own. -/
inductive BrokerCall where
  | enqueue (call : Enqueue) (progress : EnqueueProgress)
  | drain (call : Drain) (progress : DrainProgress)
  | expiry (key : String)

def BrokerCall.next (fromStr : String → Option Json) : BrokerCall → Redis → BrokerCall × Redis
  | .enqueue call progress, redis =>
    let after := call.next progress redis
    (.enqueue call after.1, after.2)
  | .drain call progress, redis =>
    let after := call.next fromStr progress redis
    (.drain call after.1, after.2)
  | .expiry key, redis => (.expiry key, redis.del key)

end Company
