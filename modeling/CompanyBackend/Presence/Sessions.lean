import CompanyBackend.Redis
import CompanyBackend.Library.Interleaving

/-!
# Presence

The sessions of a user are a set in Redis, and the users who have a session are listed in a
set of their own. A session is added to the first set and then announced in the second; one
that ends is removed from the first set, and the user from the second if the first is found
to be empty. Another session may begin between the look and the removal, and then the user
has a session and is not listed as online.

The two sets agree if nobody announces a user who is about to be removed from the list, and
no session is ended before its beginning has been announced.
-/

namespace Company

def onlineSet : String := "online"

def regionKey (regionId : UInt16) : String := "region" ++ toString regionId.toNat

/-- A user whose id is not the key of another set. -/
@[ext]
structure PresenceUser where
  id : String
  notOnline : id ≠ onlineSet
  notRegion : ∀ regionId, id ≠ regionKey regionId

def flagBits : UInt32 := 1

/-- A call of `create_session`. The random part of the session id is drawn by
the caller. -/
structure CreateSession where
  user : PresenceUser
  flags : UInt8
  random : UInt32
  regionId : UInt16
  connected : Bool := true

/-- A call of `delete_session`, or of its variant that leaves the region
alone. -/
structure DeleteSession where
  user : PresenceUser
  sessionId : UInt32
  skipRegion : Bool := false
  regionId : UInt16
  connected : Bool := true

/-- Where a call is that begins a session: before it looks at the sessions,
before it adds its own, before it announces the user, before it notes the
session in the region. -/
inductive CreateProgress where
  | counting
  | adding (wasEmpty : Bool)
  | announcing (wasEmpty : Bool)
  | placing (wasEmpty : Bool)
  | finished (wasEmpty : Bool) (sessionId : UInt32)
  deriving DecidableEq, Repr

/-- Where a call is that ends a session: before it removes the session, before
it removes the note in the region, before it looks at the remaining sessions,
before it removes the user. -/
inductive DeleteProgress where
  | removing
  | leaving
  | counting
  | retiring
  | finished (isEmpty : Bool)
  deriving DecidableEq, Repr

def sessionMember (sessionId : UInt32) : String := toString sessionId.toNat

def regionMember (userId : String) (sessionId : UInt32) : String :=
  userId ++ ":" ++ toString sessionId.toNat

namespace CreateSession

variable (call : CreateSession)

def sessionId : UInt32 := (call.random &&& ~~~flagBits) ||| (call.flags.toUInt32 &&& flagBits)

def begin : CreateProgress := if call.connected then .counting else .finished false 0

def next : CreateProgress → Redis → CreateProgress × Redis
  | .counting, redis => (.adding (redis.scard call.user.id == 0), redis)
  | .adding wasEmpty, redis =>
    (.announcing wasEmpty, redis.sadd call.user.id (sessionMember call.sessionId))
  | .announcing wasEmpty, redis => (.placing wasEmpty, redis.sadd onlineSet call.user.id)
  | .placing wasEmpty, redis =>
    (.finished wasEmpty call.sessionId,
      redis.sadd (regionKey call.regionId) (regionMember call.user.id call.sessionId))
  | .finished wasEmpty sessionId, redis => (.finished wasEmpty sessionId, redis)

end CreateSession

namespace DeleteSession

variable (call : DeleteSession)

def begin : DeleteProgress := if call.connected then .removing else .finished false

def next : DeleteProgress → Redis → DeleteProgress × Redis
  | .removing, redis =>
    (if call.skipRegion then .counting else .leaving,
      redis.srem call.user.id (sessionMember call.sessionId))
  | .leaving, redis =>
    (.counting, redis.srem (regionKey call.regionId) (regionMember call.user.id call.sessionId))
  | .counting, redis =>
    (if redis.scard call.user.id == 0 then .retiring else .finished false, redis)
  | .retiring, redis => (.finished true, redis.srem onlineSet call.user.id)
  | .finished isEmpty, redis => (.finished isEmpty, redis)

end DeleteSession

inductive PresenceCall where
  | create (call : CreateSession) (progress : CreateProgress)
  | delete (call : DeleteSession) (progress : DeleteProgress)

def PresenceCall.next : PresenceCall → Redis → PresenceCall × Redis
  | .create call progress, redis =>
    let after := call.next progress redis
    (.create call after.1, after.2)
  | .delete call progress, redis =>
    let after := call.next progress redis
    (.delete call after.1, after.2)

def isOnline (connected : Bool) (userId : String) (redis : Redis) : Bool :=
  connected && redis.present userId

def filterOnline (connected : Bool) (userIds : List String) (redis : Redis) : Finset String :=
  if userIds.isEmpty then ∅
  else if connected then redis.smembers onlineSet ∩ userIds.toFinset
  else ∅

end Company
