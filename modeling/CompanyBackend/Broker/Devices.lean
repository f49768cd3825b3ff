import CompanyBackend.Broker.Queue

/-!
# The device registry

The sessions of a user are the fields of a hash in Redis. A session is written when it
registers and again with every heartbeat, and it is deleted when it unregisters, when the user
forgets the device, when the user has too many devices, and when somebody lists the sessions
and finds it stale. The heartbeat reads the entry and writes it back with a second command.

Of all calls only registrations and heartbeats write. For one session, `EntryDuty` says what a
call still has to do with its entry, and a deletion is final as long as no heartbeat is about
to write back what it has read before.
-/

namespace Company

open Function

def deviceTtlSeconds : Nat := 604800

def maxDevicesPerUser : Nat := 8

def devicesKey (userId : String) : String := "broker:devices:messaging:" ++ userId

structure DeviceEntry where
  nodeId : String
  connectedAt : String
  lastSeenUnix : Int
deriving DecidableEq

/-- How entries are written into the hash and read from it. -/
structure EntryJson where
  fromStr : String → Option DeviceEntry
  toStr : DeviceEntry → Option String

structure DeviceStore where
  redis : Redis := {}
  hashes : String → HashMap String String := fun _ => ∅

namespace DeviceStore

variable (key field : String) (store : DeviceStore)

def hget : Option String := (store.hashes key).lookup field

def hgetall : HashMap String String := store.hashes key

def hset (value : String) : DeviceStore :=
  { store with
    hashes := update store.hashes key ((store.hashes key).put field value) }

/-- A hash that becomes empty is gone, and so is its time to live. -/
def hdel : DeviceStore :=
  let left := (store.hashes key).erase field
  { redis :=
      if left.entries.isEmpty then
        { store.redis with ttl := update store.redis.ttl key none }
      else store.redis
    hashes := update store.hashes key left }

def del : DeviceStore where
  redis := store.redis.del key
  hashes := update store.hashes key ∅

def expire (seconds : Nat) : DeviceStore :=
  if (store.hashes key).entries.isEmpty then { store with redis := store.redis.expire key seconds }
  else
    { store with
      redis := { store.redis with ttl := update store.redis.ttl key (some seconds) } }

variable {key field value : String} {store : DeviceStore}

theorem hashes_hset : (store.hset key field value).hashes =
    update store.hashes key ((store.hashes key).put field value) := rfl

theorem hashes_hdel : (store.hdel key field).hashes =
    update store.hashes key ((store.hashes key).erase field) := rfl

theorem hashes_del : (store.del key).hashes = update store.hashes key ∅ := rfl

theorem hget_hset_ne {other otherField : String} (apart : ¬ (other = key ∧ otherField = field)) :
    (store.hset other otherField value).hget key field = store.hget key field := by
  rw [hget, hashes_hset]
  by_cases same : key = other
  · subst same
    rw [update_self]
    exact HashMap.lookup_put_ne _ (fun equal => apart ⟨rfl, equal.symm⟩) _
  · rw [update_of_ne same]
    rfl

theorem hget_hdel_self : (store.hdel key field).hget key field = none := by
  rw [hget, hashes_hdel, update_self]
  exact AList.lookup_erase ..

theorem hget_hdel (other otherField : String) :
    (store.hdel other otherField).hget key field = store.hget key field ∨
      (store.hdel other otherField).hget key field = none := by
  by_cases same : key = other ∧ field = otherField
  · obtain ⟨rfl, rfl⟩ := same
    exact .inr hget_hdel_self
  · left
    rw [hget, hashes_hdel]
    by_cases sameKey : key = other
    · subst sameKey
      rw [update_self]
      exact AList.lookup_erase_ne fun equal => same ⟨rfl, equal⟩
    · rw [update_of_ne sameKey]
      rfl

theorem hget_del (other : String) :
    (store.del other).hget key field = store.hget key field ∨
      (store.del other).hget key field = none := by
  rw [hget, hashes_del]
  by_cases same : key = other
  · subst same
    rw [update_self]
    exact .inr rfl
  · rw [update_of_ne same]
    exact .inl rfl

@[simp] theorem hget_expire (other : String) (seconds : Nat) :
    (store.expire other seconds).hget key field = store.hget key field := by
  unfold expire
  split
  · rfl
  · rfl

end DeviceStore

open DeviceStore

/-- A deletion that is still to be made for a user: of a session, or of a
key. -/
inductive Removal where
  | device (sessionId : String)
  | key (name : String)
deriving DecidableEq

def DeviceStore.remove (userId : String) (store : DeviceStore) : Removal → DeviceStore
  | .device sessionId => store.hdel (devicesKey userId) sessionId
  | .key name => store.del name

section

variable (userId sessionId : String)

/-- A session goes together with the messages that wait for it. -/
def dropDevice : List Removal :=
  [.device sessionId, .key (queueKey userId sessionId)]

/-- The sessions over the limit, the oldest first. What cannot be parsed is
older than everything else, and the new session is kept. -/
def evictions (json : EntryJson) (userId sessionId : String) (raw : HashMap String String) :
    List Removal :=
  if maxDevicesPerUser < raw.size then
    let entries := (raw.entries.map fun e =>
        (e.1, ((json.fromStr e.2).map DeviceEntry.lastSeenUnix).getD
          (-9223372036854775808))).mergeSort
      fun a b => a.2 ≤ b.2
    ((entries.take (entries.length - maxDevicesPerUser)).filter fun e => e.1 ≠ sessionId).flatMap
      fun e => dropDevice userId e.1
  else []

/-- The sessions that are alive, and the removal of those that are stale or not
parseable. -/
def prune (json : EntryJson) (userId : String) (now : Int) (raw : HashMap String String) :
    List (String × DeviceEntry) × List Removal :=
  let alive := raw.entries.filterMap fun e =>
    (json.fromStr e.2).bind fun entry =>
      if now - entry.lastSeenUnix > deviceTtlSeconds then none else some (e.1, entry)
  let stale := raw.entries.filter fun e =>
    (json.fromStr e.2).all fun entry => now - entry.lastSeenUnix > deviceTtlSeconds
  (alive, stale.flatMap fun e => dropDevice userId e.1)

inductive RegisterProgress where
  | writing (value : String)
  | expiring
  | reading
  | evicting (left : List Removal)
  | failed

inductive RefreshProgress where
  | reading
  | writing (updated : String)
  | expiring
  | finished

inductive ListProgress where
  | reading
  | pruning (alive : List (String × DeviceEntry)) (left : List Removal)

/-- The calls that use the registry, each with the point that it has reached. A
call with nothing left to remove has returned. -/
inductive DeviceCall where
  | registerUser (userId sessionId : String) (progress : RegisterProgress)
  | unregisterUser (userId sessionId : String) (left : List Removal)
  | refreshUserTtl (userId sessionId : String) (now : Int) (progress : RefreshProgress)
  | listKnownSessions (userId : String) (now : Int) (progress : ListProgress)
  | forgetDevice (userId sessionId : String) (left : List Removal)
  | enqueue (call : Enqueue) (progress : EnqueueProgress)

/-- Register a session: nothing is written if its entry cannot be serialised. -/
def registerUser (json : EntryJson) (userId sessionId : String) (entry : DeviceEntry) :
    DeviceCall :=
  .registerUser userId sessionId ((json.toStr entry).elim .failed .writing)

def unregisterUser : DeviceCall :=
  .unregisterUser userId sessionId (dropDevice userId sessionId)

def refreshUserTtl (now : Int) : DeviceCall :=
  .refreshUserTtl userId sessionId now .reading

def listKnownSessions (userId : String) (now : Int) : DeviceCall :=
  .listKnownSessions userId now .reading

/-- Forget a device: its session and both of its queues. -/
def forgetDevice : DeviceCall :=
  .forgetDevice userId sessionId
    [.device sessionId, .key (queueKey userId sessionId), .key (syncQueueKey userId sessionId)]

end

namespace DeviceCall

/-- Execute the first of the removals that are left. -/
def removeNext (userId : String) : List Removal → DeviceStore → List Removal × DeviceStore
  | [], store => ([], store)
  | removal :: left, store => (left, store.remove userId removal)

variable (json : EntryJson)

def nextRegister (userId sessionId : String) :
    RegisterProgress → DeviceStore → RegisterProgress × DeviceStore
  | .writing value, store => (.expiring, store.hset (devicesKey userId) sessionId value)
  | .expiring, store => (.reading, store.expire (devicesKey userId) deviceTtlSeconds)
  | .reading, store =>
    (.evicting (evictions json userId sessionId (store.hgetall (devicesKey userId))), store)
  | .evicting left, store =>
    let after := removeNext userId left store
    (.evicting after.1, after.2)
  | .failed, store => (.failed, store)

/-- What a heartbeat writes back for what it has read. -/
def refreshed (now : Int) (raw : Option String) : Option String :=
  (raw.bind json.fromStr).bind fun entry => json.toStr { entry with lastSeenUnix := now }

def nextRefresh (userId sessionId : String) (now : Int) :
    RefreshProgress → DeviceStore → RefreshProgress × DeviceStore
  | .reading, store =>
    ((refreshed json now (store.hget (devicesKey userId) sessionId)).elim .expiring .writing, store)
  | .writing updated, store => (.expiring, store.hset (devicesKey userId) sessionId updated)
  | .expiring, store => (.finished, store.expire (devicesKey userId) deviceTtlSeconds)
  | .finished, store => (.finished, store)

def nextList (userId : String) (now : Int) : ListProgress → DeviceStore → ListProgress × DeviceStore
  | .reading, store =>
    let pruned := prune json userId now (store.hgetall (devicesKey userId))
    (.pruning pruned.1 pruned.2, store)
  | .pruning alive left, store =>
    let after := removeNext userId left store
    (.pruning alive after.1, after.2)

def next : DeviceCall → DeviceStore → DeviceCall × DeviceStore
  | .registerUser userId sessionId progress, store =>
    let after := nextRegister json userId sessionId progress store
    (.registerUser userId sessionId after.1, after.2)
  | .unregisterUser userId sessionId left, store =>
    let after := removeNext userId left store
    (.unregisterUser userId sessionId after.1, after.2)
  | .refreshUserTtl userId sessionId now progress, store =>
    let after := nextRefresh json userId sessionId now progress store
    (.refreshUserTtl userId sessionId now after.1, after.2)
  | .listKnownSessions userId now progress, store =>
    let after := nextList json userId now progress store
    (.listKnownSessions userId now after.1, after.2)
  | .forgetDevice userId sessionId left, store =>
    let after := removeNext userId left store
    (.forgetDevice userId sessionId after.1, after.2)
  | .enqueue call progress, store =>
    let after := call.next progress store.redis
    (.enqueue call after.1, { store with redis := after.2 })

end DeviceCall

open DeviceCall

/-! ## The entry of one session -/

/-- What a call has to do with the entry of a session. -/
inductive EntryDuty where
  | none
  | registering
  | refreshing
  | forgetting
  | forgot
deriving DecidableEq

/-- What one command can do: a registration and a heartbeat that has read the
entry write it, a heartbeat that finds no entry has nothing to write, a device
is forgotten by deleting the entry, and everything else deletes at most. -/
inductive EntryMoves (entry : Option String) : EntryDuty → EntryDuty → Option String → Prop
  | registers {entry' : Option String} : EntryMoves entry .registering .none entry'
  | reads (found : entry.isSome) : EntryMoves entry .none .refreshing entry
  | refreshes {entry' : Option String} : EntryMoves entry .refreshing .none entry'
  | forgets : EntryMoves entry .forgetting .forgot none
  | other {duty : EntryDuty} {entry' : Option String} (deletes : entry' = entry ∨ entry' = none) :
      EntryMoves entry duty duty entry'

/-- Once somebody has forgotten the session, it is gone and nobody is about to
bring it back. -/
structure Gone {ι : Type} (duties : ι → EntryDuty) (entry : Option String) : Prop where
  absent : ∀ i, duties i = .forgot → entry = none
  settled : ∀ i j, duties i = .forgot → duties j ≠ .refreshing

/-- The session does not register, and it is forgotten only while none of its
heartbeats is between reading and writing. -/
structure Settled {ι : Type} (duties : ι → EntryDuty) (i : ι) : Prop where
  unregistered : duties i ≠ .registering
  apart : duties i = .forgetting → ∀ j, duties j ≠ .refreshing

instance decidableSettled {ι : Type} [Fintype ι] (duties : ι → EntryDuty) (i : ι) :
    Decidable (Settled duties i) :=
  decidable_of_iff
    (duties i ≠ .registering ∧ (duties i = .forgetting → ∀ j, duties j ≠ .refreshing))
    ⟨fun ⟨unregistered, apart⟩ => ⟨unregistered, apart⟩,
      fun settled => ⟨settled.unregistered, settled.apart⟩⟩

section Duties

variable {ι : Type} [DecidableEq ι] {duties : ι → EntryDuty} {i : ι} {duty : EntryDuty}
variable {entry entry' : Option String}

theorem Gone.step (gone : Gone duties entry) (settled : Settled duties i)
    (moved : EntryMoves entry (duties i) duty entry') : Gone (update duties i duty) entry' := by
  generalize current : duties i = before at moved
  -- Whoever has forgotten the session after a step that is not a deletion had done so before.
  have earlier : duty ≠ .forgot → ∀ j, update duties i duty j = .forgot →
      ∃ k, duties k = .forgot := fun unlike j forgot =>
    Pool.of_exists_update (fun duty : EntryDuty => duty = .forgot) ⟨j, forgot⟩ unlike
  cases moved with
  | registers => exact absurd current settled.unregistered
  | reads found =>
    have nobody : ∀ j, update duties i .refreshing j ≠ .forgot := by
      intro j forgot
      obtain ⟨k, forgotten⟩ := earlier nofun j forgot
      rw [gone.absent k forgotten] at found
      cases found
    exact ⟨fun j forgot => absurd forgot (nobody j), fun j _ forgot => absurd forgot (nobody j)⟩
  | refreshes =>
    have nobody : ∀ j, update duties i .none j ≠ .forgot := by
      intro j forgot
      obtain ⟨k, forgotten⟩ := earlier nofun j forgot
      exact gone.settled k i forgotten current
    exact ⟨fun j forgot => absurd forgot (nobody j), fun j _ forgot => absurd forgot (nobody j)⟩
  | forgets =>
    refine ⟨fun _ _ => rfl, ?_⟩
    intro _ j _
    have own : EntryDuty.forgot ≠ .refreshing := nofun
    exact Pool.forall_update (fun duty : EntryDuty => duty ≠ .refreshing) own
      (settled.apart current) j
  | other deletes =>
    rw [← current, update_eq_self]
    refine ⟨?_, gone.settled⟩
    intro j forgot
    obtain rfl | rfl := deletes
    · exact gone.absent j forgot
    · rfl

end Duties

namespace DeviceCall

variable {json : EntryJson} {userId sessionId : String} {call : DeviceCall} {store : DeviceStore}

def duty (userId sessionId : String) : DeviceCall → EntryDuty
  | .registerUser user session (.writing _) =>
    if user = userId ∧ session = sessionId then .registering else .none
  | .refreshUserTtl user session _ (.writing _) =>
    if user = userId ∧ session = sessionId then .refreshing else .none
  | .forgetDevice user session left =>
    if user = userId ∧ session = sessionId then
      if .device sessionId ∈ left then .forgetting else .forgot
    else .none
  | _ => .none

abbrev entry (userId sessionId : String) (store : DeviceStore) : Option String :=
  store.hget (devicesKey userId) sessionId

theorem devicesKey_inj {user : String} : devicesKey user = devicesKey userId ↔ user = userId :=
  String.append_right_inj _

theorem entry_removeNext (user : String) (left : List Removal) :
    entry userId sessionId (removeNext user left store).2 = entry userId sessionId store ∨
      entry userId sessionId (removeNext user left store).2 = none := by
  cases left with
  | nil => exact .inl rfl
  | cons removal left =>
    cases removal with
    | device session => exact hget_hdel ..
    | key name => exact hget_del ..

theorem entry_hset_ne {user session value : String}
    (apart : ¬ (user = userId ∧ session = sessionId)) :
    entry userId sessionId (store.hset (devicesKey user) session value) =
      entry userId sessionId store :=
  hget_hset_ne fun same => apart ⟨devicesKey_inj.mp same.1, same.2⟩

variable (user session : String)

theorem moves_register (progress : RegisterProgress) : EntryMoves (entry userId sessionId store)
      ((registerUser user session progress).duty userId sessionId)
      (((registerUser user session progress).next json store).1.duty userId sessionId)
      (entry userId sessionId
        ((registerUser user session progress).next json store).2) := by
  cases progress with
  | writing value =>
    by_cases own : user = userId ∧ session = sessionId
    · simp only [duty, if_pos own, next, nextRegister]
      exact .registers
    · simp only [duty, if_neg own, next, nextRegister]
      exact .other (.inl (entry_hset_ne own))
  | expiring => exact .other (.inl (hget_expire ..))
  | reading | failed => exact .other (.inl rfl)
  | evicting left => exact .other (entry_removeNext user left)

theorem moves_refresh (now : Int) (progress : RefreshProgress) :
    EntryMoves (entry userId sessionId store)
      ((refreshUserTtl user session now progress).duty userId sessionId)
      (((refreshUserTtl user session now progress).next json store).1.duty userId sessionId)
      (entry userId sessionId
        ((refreshUserTtl user session now progress).next json store).2) := by
  cases progress with
  | reading =>
    cases read : refreshed json now (store.hget (devicesKey user) session) with
    | none =>
      simp only [next, nextRefresh, read]
      exact .other (.inl rfl)
    | some updated =>
      simp only [next, nextRefresh, read]
      by_cases own : user = userId ∧ session = sessionId
      · obtain ⟨rfl, rfl⟩ := own
        simp only [duty, Option.elim, and_self, if_true]
        apply EntryMoves.reads
        cases found : store.hget (devicesKey user) session with
        | none =>
          rw [found] at read
          cases read
        | some raw => exact Option.isSome_of_eq_some found
      · simp only [duty, Option.elim, if_neg own]
        exact .other (.inl rfl)
  | writing updated =>
    by_cases own : user = userId ∧ session = sessionId
    · simp only [duty, if_pos own, next, nextRefresh]
      exact .refreshes
    · simp only [duty, if_neg own, next, nextRefresh]
      exact .other (.inl (entry_hset_ne own))
  | expiring => exact .other (.inl (hget_expire ..))
  | finished => exact .other (.inl rfl)

theorem moves_forget (left : List Removal) : EntryMoves (entry userId sessionId store)
      ((forgetDevice user session left).duty userId sessionId)
      (((forgetDevice user session left).next json store).1.duty userId sessionId)
      (entry userId sessionId ((forgetDevice user session left).next json store).2) := by
  by_cases own : user = userId ∧ session = sessionId
  · obtain ⟨rfl, rfl⟩ := own
    cases left with
    | nil => exact .other (.inl rfl)
    | cons removal left =>
      by_cases last : removal = .device session ∧ .device session ∉ left
      · obtain ⟨rfl, last⟩ := last
        simp only [duty, next, removeNext, and_self, if_true, List.mem_cons_self, if_neg last]
        have gone : entry user session (store.remove user (.device session)) = none :=
          hget_hdel_self
        rw [gone]
        exact .forgets
      · have same : .device session ∈ removal :: left ↔ .device session ∈ left := by
          rw [List.mem_cons]
          constructor
          · rintro (rfl | later)
            · exact of_not_not fun absent => last ⟨rfl, absent⟩
            · exact later
          · exact .inr
        simp only [duty, next, removeNext, and_self, if_true, same]
        exact .other (entry_removeNext user (removal :: left))
  · simp only [duty, next, if_neg own]
    exact .other (entry_removeNext user left)

/-- Every command moves the entry of a session in one of the ways above. -/
theorem next_moves (json : EntryJson) (userId sessionId : String) (call : DeviceCall)
    (store : DeviceStore) :
    EntryMoves (entry userId sessionId store) (call.duty userId sessionId)
      ((call.next json store).1.duty userId sessionId)
      (entry userId sessionId (call.next json store).2) := by
  cases call with
  | registerUser user session progress => exact moves_register user session progress
  | unregisterUser user session left => exact .other (entry_removeNext user left)
  | refreshUserTtl user session now progress => exact moves_refresh user session now progress
  | listKnownSessions user now progress =>
    cases progress with
    | reading => exact .other (.inl rfl)
    | pruning alive left => exact .other (entry_removeNext user left)
  | forgetDevice user session left => exact moves_forget user session left
  | enqueue call progress => exact .other (.inl rfl)

end DeviceCall

abbrev DevicePool (ι : Type) := Pool ι DeviceCall DeviceStore

def DevicePool.duties {ι : Type} (userId sessionId : String) (pool : DevicePool ι) (i : ι) :
    EntryDuty :=
  (pool.calls i).duty userId sessionId

open DeviceCall

section Forgetting

variable {ι : Type} [DecidableEq ι] {json : EntryJson} {userId sessionId : String}
variable {start pool : DevicePool ι} {i : ι}

theorem gone_step (gone : Gone (pool.duties userId sessionId) (entry userId sessionId
    pool.store)) (settled : Settled (pool.duties userId sessionId) i) :
    Gone (DevicePool.duties userId sessionId (pool.step (next json) i))
      (entry userId sessionId (pool.step (next json) i).store) := by
  have moved := next_moves json userId sessionId (pool.calls i) pool.store
  change Gone (fun j => ((pool.step (next json) i).calls j).duty userId sessionId) _
  rw [Pool.map_calls_step]
  exact gone.step settled moved

/-- In every interleaving in which the session does not register and none of its
heartbeats is between reading and writing when it is deleted, the session is
absent from the moment on when a call that forgets it has returned. -/
theorem forget_device_final (begun : ∀ i, start.duties userId sessionId i ≠ .forgot)
    (reached : Pool.Reaches (DeviceCall.next json)
      (fun pool i => Settled (DevicePool.duties userId sessionId pool) i) start pool)
    (returned : pool.calls i = .forgetDevice userId sessionId []) :
    pool.store.hget (devicesKey userId) sessionId = none := by
  have first : Gone (start.duties userId sessionId)
      (entry userId sessionId start.store) :=
    ⟨fun i forgot => absurd forgot (begun i), fun i _ forgot => absurd forgot (begun i)⟩
  have gone : Gone (pool.duties userId sessionId) (entry userId sessionId pool.store) :=
    reached.invariant first fun _ _ => gone_step
  apply gone.absent i
  rw [DevicePool.duties, returned]
  simp [duty]

end Forgetting

/-- A heartbeat and a call that forgets the device, of a user with one
session. -/
def heartbeatAndForget : DevicePool Bool where
  calls heartbeat :=
    if heartbeat then refreshUserTtl "user" "session" 1 else forgetDevice "user" "session"
  store := ({} : DeviceStore).hset (devicesKey "user") "session" "seen at 0"

def sampleJson : EntryJson where
  fromStr raw :=
    if raw = "seen at 0" then some ⟨"node", "then", 0⟩
    else if raw = "seen at 1" then some ⟨"node", "then", 1⟩
    else none
  toStr entry :=
    if entry = ⟨"node", "then", 0⟩ then some "seen at 0"
    else if entry = ⟨"node", "then", 1⟩ then some "seen at 1"
    else none

theorem heartbeatAndForget_begun (i : Bool) :
    heartbeatAndForget.duties "user" "session" i ≠ .forgot := by
  revert i
  decide +kernel

/-- The heartbeat has written before the device is forgotten. -/
def forgottenAfterwards : DevicePool Bool :=
  heartbeatAndForget.run (next sampleJson) [true, true, false, true, false, false]

theorem forget_device_final_afterwards :
    forgottenAfterwards.store.hget (devicesKey "user") "session" = none := by
  have returned : forgottenAfterwards.calls false = .forgetDevice "user" "session" [] := rfl
  exact forget_device_final heartbeatAndForget_begun (Pool.reaches_run (by decide +kernel)) returned

/-- The heartbeat has read the entry before the device is forgotten, and writes
it back. -/
theorem forgotten_device_returns :
    ∃ pool i, Pool.Reaches (DeviceCall.next sampleJson) (fun _ _ => True) heartbeatAndForget pool ∧
      (∀ j, heartbeatAndForget.duties "user" "session" j ≠ .registering) ∧
      pool.calls i = .forgetDevice "user" "session" [] ∧
      pool.store.hget (devicesKey "user") "session" = some "seen at 1" := by
  refine ⟨heartbeatAndForget.run (next sampleJson) [true, false, false, false, true],
    false, Pool.reaches_run (Pool.admits_any _), ?_, rfl, ?_⟩ <;> decide +kernel

end Company
